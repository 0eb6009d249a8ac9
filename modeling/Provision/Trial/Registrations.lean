import Provision.Trial.Listener

/-!
# The trial of registrations

A container is built from any list out of eight kinds of registrations of two services, which may
depend on each other, be visible as nodes, be decorated, or fail.  Then keys are queried.  A
query that failed must fail again, the list of all nodes is never found empty, and the root can
be closed exactly once.
-/

namespace Provision.Trial.Registrations

/-- The home of the types of this trial. -/
def home : String := "fuzz_container"

/-- The first service. -/
def left : ServiceType := .concrete home "Left"

/-- The second service. -/
def right : ServiceType := .concrete home "Right"

/-- What both services can be seen as. -/
def node : ServiceType := .interface home "Node"

/-- The constructors of this trial. -/
inductive Maker where
  | leftFromRight
  | rightFromLeft
  | leftSeven
  | rightNine
  | unavailable
  deriving DecidableEq, Repr

/-- The client of this trial: its objects are numbers, its only decorator adds a hundred, and
its conversions keep the number. -/
abbrev client : Client where
  Object := UInt32
  Constructor := Maker
  Transform := Unit
  Cast := Unit
  Closer := Empty
  Routine := Empty

/-- One registration of this trial. -/
inductive Entry where
  | leftValue (weight : UInt32) (tag : Option String)
  | rightValue (weight : UInt32) (tag : Option String)
  | leftFromRight (lifetime : Lifetime) (tag : Option String)
  | rightFromLeft (lifetime : Lifetime)
  | leftAsNode (lifetime : Lifetime)
  | rightAsNode (lifetime : Lifetime) (tag : Option String)
  | decorateLeft
  | failingRight
  deriving DecidableEq, Repr

/-- One query of this trial. -/
inductive Query where
  | left (tag : Option String)
  | right (tag : Option String)
  | node (tag : Option String)
  | allNodes
  deriving DecidableEq, Repr

/-- The input of this trial. -/
structure Input where
  entries : List Entry
  queries : List Query
  child : Bool
  deriving Repr

/-- The number in a service. -/
def weight : Content client → UInt32
  | .object number => number
  | .list _ => 0

/-- The number in the first argument. -/
def firstWeight : List (Argument client) → UInt32
  | .service value :: _ => weight value.content
  | _ => 0

/-- What the constructors make. -/
def Maker.make (arguments : List (Argument client)) :
    Maker → Except UserError (Content client)
  | leftFromRight => .ok (.object (firstWeight arguments + 1))
  | rightFromLeft => .ok (.object (firstWeight arguments * 2))
  | leftSeven => .ok (.object 7)
  | rightNine => .ok (.object 9)
  | unavailable => .error (.text "unavailable")

/-- What the functions of this trial do: they only look at their arguments. -/
def behaviour : Behaviour client (Record client Unit)
  | .construct _ maker arguments, world => some (maker.make arguments, world)
  | .decorate _ _ _ target _, world => some (.ok (.object (weight target + 100)), world)
  | .convert _ _ _ content, world => some (content, world)
  | .accepts _, world => some (true, world)
  | .report notice, world => some ((), listen notice world)

/-- Tag an offer if there is a tag. -/
def tagged (offer : Offer client) (tag : Option String) : Offer client :=
  match tag with
  | none => offer
  | some name => offer.withTag (.named name)

/-- Offer what a constructor of this trial makes. -/
def made (type : ServiceType) (maker : Maker) (params : List ServiceType)
    (lifetime : Lifetime) : Offer client :=
  (Offer.factory type maker (params.map fun param => .service (.of param))).withLifetime lifetime

/-- The registration that an entry stands for. -/
def Entry.registration : Entry → Registration client
  | leftValue weight tag => .service (tagged (.value left (.object weight)) tag)
  | rightValue weight tag => .service (tagged (.value right (.object weight)) tag)
  | leftFromRight lifetime tag =>
      .service (tagged (made left .leftFromRight [right] lifetime) tag)
  | rightFromLeft lifetime => .service (made right .rightFromLeft [left] lifetime)
  | leftAsNode lifetime => .service ((made left .leftSeven [] lifetime).alsoAs node ())
  | rightAsNode lifetime tag =>
      .service (tagged ((made right .rightNine [] lifetime).alsoAs node ()) tag)
  | decorateLeft => .decorator { target := .of left, params := [], transform := () }
  | failingRight => .service (made right .unavailable [] .singleton)

/-- The key of a type, tagged if there is a tag. -/
def keyOf (type : ServiceType) (tag : Option String) : Key :=
  { type, tag := tag.map .named }

/-- Resolve a key. -/
def resolveKey (scope : Scope client) (context : ContextId) (key : Key) :
    Check client Unit (Outcome client) :=
  Check.request behaviour (scope.resolveTyped context key)

/-- A request that failed must fail again. -/
def checkTwice (scope : Scope client) (context : ContextId) (key : Key) :
    Check client Unit Unit := do
  let first ← resolveKey scope context key
  let second ← resolveKey scope context key
  Check.ensure (first.isOk || !second.isOk)

/-- Carry out a query and check what it finds. -/
def checkQuery (scope : Scope client) (context : ContextId) : Query → Check client Unit Unit
  | .left tag => checkTwice scope context (keyOf left tag)
  | .right tag => checkTwice scope context (keyOf right tag)
  | .node tag => do
      let _ ← resolveKey scope context (keyOf node tag)
      return ()
  | .allNodes => do
      match ← Check.request behaviour (scope.resolveAll context node) with
      | .ok { content := .list items, .. } => Check.ensure !items.isEmpty
      | _ => return ()

/-- Whether a request failed because the scope is closed. -/
def isClosedError : Except Error Unit → Bool
  | .error .closed => true
  | _ => false

/-- Query a scope, close it if it is a child, and close the root twice. -/
def checkScope (input : Input) (context : ContextId) (root scope : Scope client) :
    Check client Unit Verdict := do
  (input.queries.take 64).forM (checkQuery scope context)
  if input.child then
    let _ ← Check.request behaviour (scope.close context)
  let first ← Check.request behaviour (root.close context)
  Check.ensure first.isOk
  let second ← Check.request behaviour (root.close context)
  Check.ensure (isClosedError second)
  return .passed

/-- The trial: build a container from at most 32 entries, and a child if it is wanted, and make
at most 64 queries.  Entries that make no container end the trial at once. -/
def trial (input : Input) : Check client Unit Verdict := do
  let world ← get
  let (context, contexts) := world.state.contexts.background
  set { world with state := { world.state with contexts } }
  let registrations := (input.entries.take 32).map Entry.registration
  match ← Check.build behaviour none registrations with
  | .error _ => return .passed
  | .ok root =>
      if input.child then
        match ← Check.build behaviour (some root) [] with
        | .error _ => return .passed
        | .ok child => checkScope input context root child
      else
        checkScope input context root root

/-- Carry out the trial. -/
def run (input : Input) : Option Report :=
  Check.report behaviour () (trial input)

end Provision.Trial.Registrations
