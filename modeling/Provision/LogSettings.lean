import Provision.Text.Quoted

/-!
# Log settings

What a client sets up before it listens to notices: the least level, the form of the lines, and
the target whose notices are wanted.  The settings can be written as a filter directive.  Without
an output at hand, installing settings always succeeds and changes nothing.
-/

namespace Provision

/-- The levels that a filter can ask for. -/
inductive LogLevel where
  | trace
  | debug
  | info
  | warn
  | error
  deriving DecidableEq, Repr

namespace LogLevel

/-- The word for a level in a directive. -/
def text : LogLevel → String
  | trace => "trace"
  | debug => "debug"
  | info => "info"
  | warn => "warn"
  | error => "error"

/-- The debug form of a level. -/
def debugText : LogLevel → String
  | trace => "Level(Trace)"
  | debug => "Level(Debug)"
  | info => "Level(Info)"
  | warn => "Level(Warn)"
  | error => "Level(Error)"

end LogLevel

/-- The form of log lines. -/
inductive LogFormat where
  | json
  | pretty
  | compact
  deriving DecidableEq, Repr

/-- The debug form of a format. -/
def LogFormat.debugText : LogFormat → String
  | json => "Json"
  | pretty => "Pretty"
  | compact => "Compact"

/-- Settings for listening to notices. -/
structure LogSettings where
  level : LogLevel := .debug
  format : LogFormat := .json
  target : Option String := none
  fromEnvironment : Bool := false
  withFile : Bool := false
  withLine : Bool := false
  withThreadIds : Bool := false
  withThreadNames : Bool := false
  deriving DecidableEq, Repr

namespace LogSettings

/-- The target of everything that containers report. -/
def containerTarget : String := "scoped_injector"

/-- Ask only for what containers report. -/
def containersOnly (settings : LogSettings) : LogSettings :=
  { settings with target := some containerTarget }

/-- The settings as a filter directive: the level, for the target if there is one. -/
def directives (settings : LogSettings) : String :=
  match settings.target with
  | none => settings.level.text
  | some target => target ++ "=" ++ settings.level.text

/-- The debug form of a text that may be missing. -/
def optionText : Option String → String
  | none => "None"
  | some text => "Some(" ++ Text.quoted text ++ ")"

/-- The debug form of settings. -/
def debugText (settings : LogSettings) : String :=
  "LoggingBuilder \x7b level: " ++ settings.level.debugText
    ++ ", format: " ++ settings.format.debugText
    ++ ", target: " ++ optionText settings.target
    ++ ", from_env: " ++ toString settings.fromEnvironment
    ++ ", with_file: " ++ toString settings.withFile
    ++ ", with_line_number: " ++ toString settings.withLine
    ++ ", with_thread_ids: " ++ toString settings.withThreadIds
    ++ ", with_thread_names: " ++ toString settings.withThreadNames ++ " \x7d"

/-- Whether installing the settings succeeds. -/
def installs (_ : LogSettings) : Bool := true

end LogSettings

end Provision
