/-!
# Scope identities

Every scope, root or child, has a number of its own.
-/

namespace Provision

/-- The identity of a scope. -/
structure ScopeId where
  number : Nat
  deriving DecidableEq, Repr

namespace ScopeId

/-- The name of a scope. -/
def text (id : ScopeId) : String :=
  "scope-" ++ toString id.number

/-- The debug form of a scope identity. -/
def debugText (id : ScopeId) : String :=
  "ScopeId(" ++ toString id.number ++ ")"

/-- The debug form of a scope identity that may be missing. -/
def optionDebugText : Option ScopeId → String
  | none => "None"
  | some id => "Some(" ++ id.debugText ++ ")"

end ScopeId

end Provision
