import Provision.Session.Execution

/-!
# Sessions

A session carries out steps one after the other.  The functions of a session act by carrying out
steps themselves, so their behaviour is built up by nesting: `behave depth` is what the
functions do when calls from within calls go at most `depth` deep.
-/

namespace Provision.Session

/-- What the functions of a session do when calls are nested at most `depth` deep; a call that is
nested deeper never returns. -/
def behave : (depth : Nat) → Behaviour client Memory
  | 0 => fun _ _ => none
  | depth + 1 => fun call => respond (execute (behave depth)) call

/-- How deep calls from within calls may go in a session. -/
def nesting : Nat := 1000

/-- What one step answers, and what happened meanwhile, in order. -/
structure Entry where
  answer : Answer
  events : List Event

/-- Carry out one step. -/
def entry (step : Step) : Run Entry := do
  Run.remember fun memory => { memory with events := [] }
  let answer ← execute (behave nesting) {} step
  return { answer, events := (← Run.memory).events.reverse }

/-- Carry out steps in order. -/
def entries (steps : List Step) : Run (List Entry) :=
  steps.mapM entry

/-- What is there before a session begins. -/
def start (logging : Bool) : World client Memory :=
  { state := {}, memory := { logging } }

/-- Carry out a session from the start. -/
def run (logging : Bool) (steps : List Step) : Option (List Entry) :=
  ((entries steps).run (start logging)).map Prod.fst

end Provision.Session
