import Provision.Container
import Provision.Session.Script

/-!
# Scripted instances

The objects of a session.  Each instance has a type, a number of its own, a label, and the names
of what it was made from.  Making, converting and decorating services number new instances in
the order in which they come about.
-/

namespace Provision

/-- The short name of a type, without its home. -/
def ServiceType.name : ServiceType → String
  | concrete _ name => name
  | interface _ name => name
  | list item => "[" ++ item.name ++ "]"
  | context => "Context"
  | scopeHandle => "ScopeHandle"

namespace Session

/-- An object of a concrete type. -/
structure Instance where
  type : ServiceType
  serial : Nat
  label : String
  args : List String
  refused : Bool := false
  onClose : CloseScript Step := {}

/-- What services are made of: numbered instances, and marks for the two ambient types. -/
inductive Thing where
  | made (object : Instance)
  | mark (name : String)

/-- The constructor of a scripted registration. -/
structure Maker where
  number : Nat
  type : ServiceType
  draft : Draft Step
  script : FunctionScript Step
  params : List Param

/-- The function of a scripted decorator. -/
structure Adorner where
  number : Nat
  type : ServiceType
  label : String
  script : FunctionScript Step
  params : List Param
  pass : Bool

/-- The conversion of one type to another. -/
structure Conversion where
  source : ServiceType
  target : ServiceType
  deriving DecidableEq, Repr

/-- A scripted closer; the one an instance brings along has no script here. -/
structure ScriptedCloser where
  shape : CloserShape
  script : CloseScript Step := {}

/-- A function that is called once. -/
structure Routine where
  label : String
  params : List Param
  acts : List Step
  fail : Option String := none

/-- What a session brings to its containers. -/
abbrev client : Client where
  Object := Thing
  Constructor := Maker
  Transform := Adorner
  Cast := Conversion
  Closer := ScriptedCloser
  Routine := Routine

/-- Texts between square brackets, separated by commas. -/
def bracketed (items : List String) : String :=
  "[" ++ String.intercalate "," items ++ "]"

/-- The name of an instance: its type and its number. -/
def Instance.ref (object : Instance) : String :=
  object.type.name ++ "#" ++ toString object.serial

/-- The name of a thing. -/
def Thing.ref : Thing → String
  | made object => object.ref
  | mark name => name

/-- The label of a thing; a mark is its own label. -/
def Thing.label : Thing → String
  | made object => object.label
  | mark name => name

mutual

/-- The name of a service: that of its object, or the names of its items. -/
def refOf : Content client → String
  | .object thing => thing.ref
  | .list items => bracketed (refsOf items)

/-- The names of services. -/
def refsOf : List (Content client) → List String
  | [] => []
  | item :: rest => refOf item :: refsOf rest

end

mutual

/-- The label of a service: that of its object, or the labels of its items. -/
def labelOf : Content client → String
  | .object thing => thing.label
  | .list items => bracketed (labelsOf items)

/-- The labels of services. -/
def labelsOf : List (Content client) → List String
  | [] => []
  | item :: rest => labelOf item :: labelsOf rest

end

/-- The name of an argument. -/
def argumentRef : Argument client → String
  | .context _ => "ctx"
  | .scope _ => "scope"
  | .service value => refOf value.content

/-- What can be seen of a service. -/
inductive View where
  | object (ref label : String) (args : List String)
  | mark (name : String)
  | list (items : List View)

/-- What can be seen of a thing. -/
def Thing.view : Thing → View
  | made object => .object object.ref object.label object.args
  | mark name => .mark name

mutual

/-- What can be seen of a service. -/
def viewOf : Content client → View
  | .object thing => thing.view
  | .list items => .list (viewsOf items)

/-- What can be seen of services. -/
def viewsOf : List (Content client) → List View
  | [] => []
  | item :: rest => viewOf item :: viewsOf rest

end

/-- The views of the items of a list; anything else has no items. -/
def View.items : View → List View
  | list items => items
  | _ => []

/-- The concrete type that stands in where an interface is wanted. -/
def standIn : ServiceType :=
  .concrete "app::types" "W"

/-- The concrete type of new instances of a type. -/
def concreteType : ServiceType → ServiceType
  | .interface _ _ => standIn
  | type => type

/-- A thing of the given number for a type: an instance, or the mark of an ambient type.  Inside
a list it is the only item. -/
def newContent (draft : Draft Step) (args : List String) (serial : Nat) :
    ServiceType → Content client
  | .list item => .list [newContent draft args serial item]
  | .context => .object (.mark "Context")
  | .scopeHandle => .object (.mark "ScopeHandle")
  | type =>
      .object (.made
        { type := concreteType type, serial, label := draft.label, args
          refused := draft.refused, onClose := draft.onClose })

/-- View an object as a type, with the number for a new instance and whether it was used: an
interface shows the object itself, a concrete type a new instance made from it. -/
def viewAs (ref label : String) (content : Content client) (serial : Nat) :
    ServiceType → Content client × Bool
  | .interface _ _ => (content, false)
  | .list item =>
      let (shown, used) := viewAs ref label content serial item
      (.list [shown], used)
  | .context => (.object (.mark "Context"), false)
  | .scopeHandle => (.object (.mark "ScopeHandle"), false)
  | type => (.object (.made { type, serial, label, args := [ref] }), true)

/-- Convert a service from one type to another, with the next free number before and after.  A
list or a mark is first wrapped into an instance of its own. -/
def convertContent (conversion : Conversion) (content : Content client) (next : Nat) :
    Content client × Nat :=
  let wrap (label : String) (args : List String) : Content client × Nat :=
    (.object (.made { type := standIn, serial := next, label, args }), next + 1)
  let (item, next) :=
    match conversion.source with
    | .list _ => wrap "vec" [refOf content]
    | .context => wrap "Context" []
    | .scopeHandle => wrap "ScopeHandle" []
    | _ => (content, next)
  let (shown, used) := viewAs (refOf item) (labelOf item) item next conversion.target
  (shown, if used then next + 1 else next)

/-- Decorate a service, with the next free number before and after: an object becomes a new
instance, a list is reversed, and a mark stays as it is. -/
def decorateContent (type : ServiceType) (label : String) (args : List String)
    (target : Content client) (next : Nat) : Content client × Nat :=
  match target with
  | .list items => (.list items.reverse, next)
  | .object (.mark name) => (.object (.mark name), next)
  | .object (.made object) =>
      (.object (.made
        { type := concreteType type
          serial := next
          label := label ++ "(" ++ object.label ++ ")"
          args := object.ref :: args }), next + 1)

end Session

end Provision
