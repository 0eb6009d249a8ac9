/-!
# Lifetimes

How long an instance lives once it is made: as long as the scope that registered it, as long as
the scope that asked for it, or no longer than the request.
-/

namespace Provision

/-- The lifetime of a registered service.

* `singleton`: one instance per registering scope, shared with every descendant.
* `perScope`: one instance per descendant of the registering scope.
* `transient`: a new instance for every request. -/
inductive Lifetime where
  | singleton
  | perScope
  | transient
  deriving DecidableEq, Repr, Inhabited

namespace Lifetime

/-- Only transient instances are not kept by a scope. -/
def isKept : Lifetime → Bool
  | singleton => true
  | perScope => true
  | transient => false

/-- The word for a lifetime in log lines. -/
def text : Lifetime → String
  | singleton => "singleton"
  | perScope => "scoped"
  | transient => "transient"

/-- The lifetime that a word names. -/
def ofText? : String → Option Lifetime
  | "singleton" => some singleton
  | "scoped" => some perScope
  | "transient" => some transient
  | _ => none

theorem ofText?_text (lifetime : Lifetime) : ofText? lifetime.text = some lifetime := by
  cases lifetime <;> rfl

/-- The debug form of a lifetime. -/
def debugText : Lifetime → String
  | singleton => "Singleton"
  | perScope => "Scoped"
  | transient => "Transient"

end Lifetime

end Provision
