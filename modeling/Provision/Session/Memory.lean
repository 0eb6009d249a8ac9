import Provision.Session.Answer

/-!
# The memory of a session

What a session remembers between its steps: the names it has given, the numbers it has used, what
has happened, and which scopes and contexts are in use right now.

A scope lives as long as a name, a builder of a child, a living child or a step refers to it.  A
context lives as long as a name, its cancel handle, a watch or a step refers to it.
-/

namespace Provision.Session

/-- What a session remembers. -/
structure Memory where
  logging : Bool := false
  scopes : Table String (Scope client) := {}
  builders : Table String (Builder client) := {}
  handles : Table String (Handle client) := {}
  contexts : Table String ContextId := {}
  cancels : Table String ContextId := {}
  watches : Table String WatchId := {}
  errors : Table String (List Key) := {}
  nextSerial : Nat := 1
  nextFunction : Nat := 0
  calls : Table Nat Nat := {}
  events : List Event := []
  live : List (Scope client) := []
  usedScopes : List (Scope client) := []
  usedContexts : List ContextId := []

/-- What the acts of a function mean by its own context and handle: those it was passed first. -/
structure Frame where
  context : Option ContextId := none
  handle : Option (Handle client) := none

/-- The first context among arguments. -/
def firstContext? (arguments : List (Argument client)) : Option ContextId :=
  arguments.findSome? fun argument =>
    match argument with
    | .context context => some context
    | _ => none

/-- The first handle among arguments. -/
def firstHandle? (arguments : List (Argument client)) : Option (Handle client) :=
  arguments.findSome? fun argument =>
    match argument with
    | .scope handle => some handle
    | _ => none

/-- What the acts of a function mean by its own context and handle. -/
def Frame.ofArguments (arguments : List (Argument client)) : Frame :=
  { context := firstContext? arguments, handle := firstHandle? arguments }

/-- What happens in a session; without a result it never returns. -/
abbrev Run (α : Type) : Type :=
  StateT (World client Memory) Option α

namespace Run

/-- What the session remembers. -/
def memory : Run Memory := do
  return (← get).memory

/-- Change what the session remembers. -/
def remember (change : Memory → Memory) : Run Unit :=
  modify fun world => { world with memory := change world.memory }

/-- The state of the scopes and contexts. -/
def state : Run (State client) := do
  return (← get).state

/-- All contexts. -/
def contexts : Run Contexts := do
  return (← state).contexts

/-- Change the contexts. -/
def setContexts (contexts : Contexts) : Run Unit :=
  modify fun world => { world with state := { world.state with contexts } }

/-- Change the contexts and keep what came with the change. -/
def withContexts {α : Type} (change : Contexts → α × Contexts) : Run α := do
  let (result, changed) := change (← contexts)
  setContexts changed
  return result

/-- Write down that something happened. -/
def log (event : Event) : Run Unit :=
  remember fun memory => { memory with events := event :: memory.events }

/-- Use the next number of an instance. -/
def serial : Run Nat := do
  let number := (← memory).nextSerial
  remember fun memory => { memory with nextSerial := number + 1 }
  return number

/-- Make a service with a change of the next free number. -/
def number (make : Nat → Content client × Nat) : Run (Content client) := do
  let (content, next) := make (← memory).nextSerial
  remember fun memory => { memory with nextSerial := next }
  return content

/-- Count a call of a function; the first call is number zero. -/
def countCall (function : Nat) : Run Nat := do
  let count := ((← memory).calls.get? function).getD 0
  remember fun memory => { memory with calls := memory.calls.put function (count + 1) }
  return count

/-- Number a new function. -/
def functionNumber : Run Nat := do
  let number := (← memory).nextFunction
  remember fun memory => { memory with nextFunction := number + 1 }
  return number

/-- Run a program. -/
def program {α : Type} (behaviour : Behaviour client Memory) (program : Program client α) :
    Run α :=
  fun world => program.run behaviour world

/-- Run a request. -/
def request {α : Type} (behaviour : Behaviour client Memory) (request : Request client α) :
    Run (Except Error α) :=
  program behaviour request.run

end Run

/-- The scopes that are referred to: those with a name, those with a builder of a child, and
those in use. -/
def Memory.heldScopes (memory : Memory) : List (Scope client) :=
  memory.scopes.values ++ memory.builders.values.filterMap Builder.parent ++ memory.usedScopes

/-- The contexts that are referred to: those with a name or a cancel handle, those that are
watched, and those in use. -/
def Memory.heldContexts (memory : Memory) (contexts : Contexts) : List ContextId :=
  memory.contexts.values ++ memory.cancels.values
    ++ contexts.watches.values.map Watch.context ++ memory.usedContexts

/-- Let go of every scope and context that nothing refers to. -/
def Run.tidy (behaviour : Behaviour client Memory) : Run Unit := do
  let before ← Run.memory
  let live ← Run.program behaviour (releaseUnheld before.live before.heldScopes)
  Run.remember fun memory => { memory with live }
  let contexts ← Run.contexts
  Run.setContexts (contexts.releaseUnheld (before.heldContexts contexts))

end Provision.Session
