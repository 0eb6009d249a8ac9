import Provision.Session.Memory

/-!
# The functions of a session

What the scripted functions of a session do when a container calls them.  A function logs the
call, carries out its acts, and then fails or returns.  Acts are steps, so what a function does
depends on how steps are carried out; this is left open here.
-/

namespace Provision.Session

/-- How a step is carried out on behalf of a function. -/
abbrev Execution : Type :=
  Frame → Step → Run Answer

variable (execute : Execution)

/-- Carry out acts in order and log their answers. -/
def act (frame : Frame) : List Step → Run Unit
  | [] => return ()
  | step :: rest => do
      let answer ← execute frame step
      Run.log (.act answer)
      act frame rest

/-- The failure of a function on a call with the given number, if it fails on that call. -/
def failureOn (script : FunctionScript Step) (call : Nat) : Option UserError :=
  match script.failTimes with
  | none => script.fail
  | some times => if call < times then script.fail else none

/-- A constructor logs its call, acts, and fails or makes a new instance. -/
def construct (maker : Maker) (arguments : List (Argument client)) :
    Run (Except UserError (Content client)) := do
  let args := arguments.map argumentRef
  let call ← Run.countCall maker.number
  Run.log (.called maker.type maker.draft.label args)
  act execute (.ofArguments arguments) maker.script.acts
  match failureOn maker.script call with
  | some failure => return .error failure
  | none =>
      let content := newContent maker.draft args (← Run.serial) maker.type
      Run.log (.made (refOf content))
      return .ok content

/-- A decorator logs its call, acts, and fails or decorates, unless it hands on its target. -/
def adorn (adorner : Adorner) (target : Content client) (arguments : List (Argument client)) :
    Run (Except UserError (Content client)) := do
  let args := arguments.map argumentRef
  let call ← Run.countCall adorner.number
  Run.log (.decorating adorner.type (refOf target) adorner.label args)
  act execute (.ofArguments arguments) adorner.script.acts
  match failureOn adorner.script call with
  | some failure => return .error failure
  | none =>
      if adorner.pass then
        return .ok target
      else
        let content ← Run.number (decorateContent adorner.type adorner.label args target)
        Run.log (.decorated (refOf content))
        return .ok content

/-- A conversion logs what it makes of what. -/
def convert (conversion : Conversion) (content : Content client) : Run (Content client) := do
  let shown ← Run.number (convertContent conversion content)
  Run.log (.converted (refOf content) conversion.target (refOf shown))
  return shown

/-- The script of a closer: its own, or that of the instance it closes. -/
def ScriptedCloser.scriptFor (closer : ScriptedCloser) (subject : Content client) :
    CloseScript Step :=
  match closer.shape, subject with
  | .own, .object (.made object) => object.onClose
  | .own, _ => {}
  | _, _ => closer.script

/-- A closer logs its call, acts, and fails if its shape lets it. -/
def close (closer : ScriptedCloser) (subject : Content client) (context : ContextId) :
    Run (Option UserError) := do
  let script := closer.scriptFor subject
  let contexts ← Run.contexts
  let seen := if closer.shape.takesContext then some (contexts.error? context) else none
  Run.log (.closing (refOf subject) (labelOf subject) closer.shape script.name seen)
  act execute { context := some context } script.acts
  return if closer.shape.canFail then script.fail else none

/-- A routine logs its call, acts, and returns its own error if it has one. -/
def enact (routine : Routine) (arguments : List (Argument client)) :
    Run (Option UserError) := do
  Run.log (.invoked routine.label (arguments.map argumentRef))
  act execute (.ofArguments arguments) routine.acts
  return routine.fail.map .text

/-- Whether parameters take a value: all but those that are refused. -/
def accepted (value : Value client) : Bool :=
  match value.content with
  | .object (.made object) => !object.refused
  | _ => true

/-- What the functions of a session do. -/
def respond : (call : Call client) → Run call.Answer
  | .construct _ maker arguments => construct execute maker arguments
  | .decorate _ _ adorner target arguments => adorn execute adorner target arguments
  | .convert _ _ conversion content => convert conversion content
  | .close _ closer subject context => close execute closer subject context
  | .enact routine arguments => enact execute routine arguments
  | .accepts value => return accepted value
  | .report notice => do
      if (← Run.memory).logging then
        Run.log (.notice notice)

end Provision.Session
