import Provision.Text.Quoted

/-!
# Service types, tags and keys

A service is looked up by a key: the type it is wanted as, and possibly a tag that tells several
registrations of one type apart.  Two keys are equal exactly when their types and their tags
are.  A tag is either a name that a client chose or a position in the list of everything
registered for one type; a position is never equal to a name, even where both print alike.
-/

namespace Provision

/-- The types services are registered and asked for under.

`list item` is the type of the list of everything registered as `item`.  `context` and
`scopeHandle` are the types of the two ambient values, which no registration may offer. -/
inductive ServiceType where
  | concrete (home name : String)
  | interface (home name : String)
  | list (item : ServiceType)
  | context
  | scopeHandle
  deriving DecidableEq, Repr

namespace ServiceType

/-- The full spelling of a type in messages: the home of a named type comes first, an interface
is marked, and a list names its item between angle brackets. -/
def text : ServiceType → String
  | concrete home name => home ++ "::" ++ name
  | interface home name => "dyn " ++ home ++ "::" ++ name
  | list item => "alloc::vec::Vec<alloc::sync::Arc<" ++ item.text ++ ">>"
  | context => "scoped_injector::context::Context"
  | scopeHandle => "scoped_injector::scope::ScopeHandle"

end ServiceType

/-- What tells registrations of one type apart. -/
inductive Tag where
  | named (name : String)
  | position (index : Nat)
  deriving DecidableEq, Repr

namespace Tag

/-- The name of a named tag; a position has none. -/
def name? : Tag → Option String
  | named name => some name
  | position _ => none

/-- Whether the tag is a position in the list of a type. -/
def isPosition : Tag → Bool
  | named _ => false
  | position _ => true

/-- A name stands for itself and a position follows a number sign. -/
def text : Tag → String
  | named name => name
  | position index => "#" ++ toString index

/-- The debug form, in which a name is quoted and so differs from every position. -/
def debugText : Tag → String
  | named name => "Tag(" ++ Text.quoted name ++ ")"
  | position index => "Tag(#" ++ toString index ++ ")"

end Tag

/-- What a service is looked up by: a type and an optional tag. -/
structure Key where
  type : ServiceType
  tag : Option Tag := none
  deriving DecidableEq, Repr

namespace Key

/-- The key of a type without a tag. -/
def of (type : ServiceType) : Key :=
  { type }

/-- The same type under another tag, whatever tag the key had. -/
def withTag (key : Key) (tag : Tag) : Key :=
  { key with tag := some tag }

/-- The same type without a tag. -/
def untagged (key : Key) : Key :=
  { key with tag := none }

/-- Whether two keys name one type, whatever their tags. -/
def sameType (key other : Key) : Bool :=
  decide (key.type = other.type)

/-- Whether the tag of the key is a position. -/
def isPosition (key : Key) : Bool :=
  key.tag.any Tag.isPosition

/-- The type, followed by the tag in square brackets if there is one. -/
def text (key : Key) : String :=
  match key.tag with
  | none => key.type.text
  | some tag => key.type.text ++ "[" ++ tag.text ++ "]"

/-- The debug form of a key. -/
def debugText (key : Key) : String :=
  "TypeKey(" ++ key.text ++ ")"

/-- The key of the list of everything registered as the key's type. -/
def listKey (key : Key) : Key :=
  of (.list key.type)

/-- The key of the item at a position in the list of a type. -/
def item (type : ServiceType) (index : Nat) : Key :=
  { type, tag := some (.position index) }

end Key

end Provision
