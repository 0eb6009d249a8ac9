import Provision.Key
import Provision.Lifetime
import Provision.ScopeId

/-!
# Notices

What a container tells about its work.  A notice has a level and a line: the level, a fixed
message, and the fields that belong to it, each written as a name and a value.
-/

namespace Provision

/-- How much a notice matters. -/
inductive NoticeLevel where
  | trace
  | debug
  | warn
  deriving DecidableEq, Repr

/-- The word for a level. -/
def NoticeLevel.text : NoticeLevel → String
  | trace => "TRACE"
  | debug => "DEBUG"
  | warn => "WARN"

/-- Everything a container reports. -/
inductive Notice where
  | registeringService (service : Key) (lifetime : Lifetime) (tag : Option Tag) (scope : ScopeId)
  | registeringDecorator (target : Key) (scope : ScopeId)
  | createdContainer (scope : ScopeId) (depth : Nat) (parent : Option ScopeId)
      (registrations : Nat) (ownsRegistry : Bool)
  | closingScope (scope : ScopeId) (depth closers : Nat)
  | resolvedFromCache (service : Key) (scope : ScopeId)
  | constructing (service : Key) (lifetime : Lifetime) (scope : ScopeId)
  | registeredCloser (service : Key)
  | closerFailed (service : Key) (message : String)
  | droppedOpen (scope : ScopeId) (pending : Nat)
  deriving DecidableEq, Repr

namespace Notice

/-- Construction, caching and closers are traced, the life of scopes is for debugging, and what
goes wrong while closing is a warning. -/
def level : Notice → NoticeLevel
  | registeringService .. => .debug
  | registeringDecorator .. => .debug
  | createdContainer .. => .debug
  | closingScope .. => .debug
  | resolvedFromCache .. => .trace
  | constructing .. => .trace
  | registeredCloser .. => .trace
  | closerFailed .. => .warn
  | droppedOpen .. => .warn

/-- The fixed message of a notice. -/
def message : Notice → String
  | registeringService .. => "Registering service"
  | registeringDecorator .. => "Registering decorator"
  | createdContainer .. => "Created container"
  | closingScope .. => "Closing scope"
  | resolvedFromCache .. => "Service resolved from cache"
  | constructing .. => "Constructing service"
  | registeredCloser .. => "Registered closer"
  | closerFailed .. => "Closer failed"
  | droppedOpen .. => "Scope dropped without being closed"

/-- The debug form of a tag that may be missing. -/
def tagText : Option Tag → String
  | none => "None"
  | some tag => "Some(" ++ tag.debugText ++ ")"

/-- The number of a scope that may be missing. -/
def parentText : Option ScopeId → String
  | none => "None"
  | some id => "Some(" ++ toString id.number ++ ")"

/-- The fields of a notice, in the order in which they are written. -/
def fields : Notice → List (String × String)
  | registeringService service lifetime tag scope =>
      [("service", service.text), ("lifetime", lifetime.text), ("tag", tagText tag),
        ("scope_id", toString scope.number)]
  | registeringDecorator target scope =>
      [("target_service", target.text), ("scope_id", toString scope.number)]
  | createdContainer scope depth parent registrations ownsRegistry =>
      [("scope_id", toString scope.number), ("depth", toString depth),
        ("parent_id", parentText parent), ("registrations", toString registrations),
        ("owns_registry", toString ownsRegistry)]
  | closingScope scope depth closers =>
      [("scope_id", toString scope.number), ("depth", toString depth),
        ("closers", toString closers)]
  | resolvedFromCache service scope =>
      [("service", service.text), ("scope_id", toString scope.number)]
  | constructing service lifetime scope =>
      [("service", service.text), ("lifetime", lifetime.text),
        ("scope_id", toString scope.number)]
  | registeredCloser service => [("service", service.text)]
  | closerFailed service message => [("service", service.text), ("error", message)]
  | droppedOpen scope pending =>
      [("scope_id", toString scope.number), ("pending_closers", toString pending)]

/-- The line of a notice. -/
def line (notice : Notice) : String :=
  String.intercalate " "
    (notice.level.text :: notice.message
      :: notice.fields.map fun field => field.1 ++ "=" ++ field.2)

end Notice

end Provision
