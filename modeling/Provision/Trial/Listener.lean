import Provision.Container

/-!
# Trials

A trial is a small program over containers that checks what it sees and passes or fails.  Here
stands what trials share: a run that may end early because a check fails, and the record of
everything the containers report meanwhile.
-/

namespace Provision.Trial

/-- Whether a trial found what it expected. -/
inductive Verdict where
  | passed
  | failed
  deriving DecidableEq, Repr

/-- What a trial remembers: the reports so far, the newest first, the scopes that are there, and
what its functions count. -/
structure Record (U : Client) (κ : Type) where
  notices : List Notice := []
  live : List (Scope U) := []
  counts : κ

/-- What a trial shows: its verdict and all reports in order. -/
structure Report where
  verdict : Verdict
  notices : List Notice

variable {U : Client} {κ α : Type}

/-- A trial under way.  It stops when a check fails; without a result it never returns. -/
abbrev Check (U : Client) (κ : Type) (α : Type) : Type :=
  ExceptT Verdict (StateT (World U (Record U κ)) Option) α

namespace Check

/-- Stop unless what was checked holds. -/
def ensure (holds : Bool) : Check U κ Unit :=
  if holds then pure () else throw .failed

/-- Run a program. -/
def program (behaviour : Behaviour U (Record U κ)) (program : Program U α) : Check U κ α :=
  ExceptT.lift fun world => program.run behaviour world

/-- Run a request. -/
def request (behaviour : Behaviour U (Record U κ)) (request : Request U α) :
    Check U κ (Except Error α) :=
  Check.program behaviour request.run

/-- Build a scope, and remember it if it is there. -/
def build (behaviour : Behaviour U (Record U κ)) (parent : Option (Scope U))
    (registrations : List (Registration U)) : Check U κ (Except Error (Scope U)) := do
  let outcome ← request behaviour (buildScope parent registrations)
  match outcome with
  | .ok scope =>
      modify fun world =>
        { world with memory := { world.memory with live := scope :: world.memory.live } }
  | .error _ => pure ()
  return outcome

/-- Let go of all scopes but those that the given ones need. -/
def release (behaviour : Behaviour U (Record U κ)) (held : List (Scope U)) :
    Check U κ Unit := do
  let live := (← get).memory.live
  let live ← program behaviour (releaseUnheld live held)
  modify fun world => { world with memory := { world.memory with live } }

/-- Whether a scope is closed. -/
def isClosed (scope : Scope U) : Check U κ Bool := do
  return ((← get).state.scope scope.id).closed

/-- Carry out a trial from the start, and then let go of its scopes. -/
def report (behaviour : Behaviour U (Record U κ)) (counts : κ) (trial : Check U κ Verdict) :
    Option Report := do
  let (outcome, world) ← trial.run { state := {}, memory := { counts } }
  let verdict :=
    match outcome with
    | .ok verdict => verdict
    | .error verdict => verdict
  let (_, world) ← (release behaviour []).run world
  return { verdict, notices := world.memory.notices.reverse }

end Check

/-- Write down what is reported. -/
def listen (notice : Notice) (world : World U (Record U κ)) : World U (Record U κ) :=
  { world with memory := { world.memory with notices := notice :: world.memory.notices } }

end Provision.Trial
