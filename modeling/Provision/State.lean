import Provision.Scope

/-!
# The state of a tree of scopes

Everything that changes while containers are used: which scopes are closed or gone, what they
have kept, which closers they have promised to run, which flags are raised, and the contexts.
-/

namespace Provision

variable {U : Client}

/-- What a scope keeps: the instance of a recipe, or the value handed out for a key that the
recipe was registered under, converted and decorated. -/
inductive CacheKey where
  | made (recipe : RecipeId)
  | shown (recipe : RecipeId) (key : Key)
  deriving DecidableEq, Repr

/-- The place for something a scope keeps.  Whoever comes first fills it and everybody else waits
for the outcome, be it a value or an error. -/
inductive Cell (U : Client) where
  | filling
  | filled (outcome : Outcome U)

/-- The outcome in a cell, once there is one. -/
def Cell.outcome? : Cell U → Option (Outcome U)
  | filling => none
  | filled outcome => some outcome

/-- What changes in a scope.  The closers stand in the order in which they were promised. -/
structure ScopeState (U : Client) where
  closed : Bool := false
  dropped : Bool := false
  cells : Table CacheKey (Cell U) := {}
  closers : List (PendingCloser U) := []

instance : Inhabited (ScopeState U) := ⟨{}⟩

/-- The state of all scopes, flags and contexts. -/
structure State (U : Client) where
  scopes : Table ScopeId (ScopeState U) := {}
  nextScope : Nat := 1
  nextFlag : Nat := 0
  raised : List FlagId := []
  contexts : Contexts := {}

instance : Inhabited (State U) := ⟨{}⟩

namespace State

/-- The state of a scope; one of which nothing is recorded is open and keeps nothing. -/
def scope (state : State U) (id : ScopeId) : ScopeState U :=
  (state.scopes.get? id).getD {}

/-- Record the state of a scope. -/
def setScope (state : State U) (id : ScopeId) (scope : ScopeState U) : State U :=
  { state with scopes := state.scopes.put id scope }

/-- The state of a scope after one scope was recorded. -/
theorem scope_setScope (state : State U) (id other : ScopeId) (scope : ScopeState U) :
    (state.setScope id scope).scope other = if id = other then scope else state.scope other := by
  unfold State.scope setScope
  rw [Table.get?_put]
  split <;> rfl

@[simp] theorem scope_setScope_self (state : State U) (id : ScopeId) (scope : ScopeState U) :
    (state.setScope id scope).scope id = scope := by
  simp [scope_setScope]

/-- The outcome that a scope keeps, if it keeps one. -/
def kept? (state : State U) (id : ScopeId) (entry : CacheKey) : Option (Outcome U) :=
  ((state.scope id).cells.get? entry).bind Cell.outcome?

/-- Whether a flag is raised. -/
def isRaised (state : State U) (flag : FlagId) : Bool :=
  decide (flag ∈ state.raised)

end State

end Provision
