import Provision.Trial.Listener

/-!
# The trial of scope trees

A tree of scopes grows, and three services of different lifetimes, each with a closer, are
resolved from any of the scopes, which are closed in any order.  Closed scopes yield nothing,
instances are shared as far as their lifetime says and no further, and in the end every instance
made has been closed exactly once.
-/

namespace Provision.Trial.ScopeTree

/-- The home of the types of this trial. -/
def home : String := "fuzz_scoped"

/-- A service with one instance per registering scope. -/
def shared : ServiceType := .concrete home "Shared"

/-- A service with one instance per scope. -/
def perScope : ServiceType := .concrete home "PerScope"

/-- A service with a new instance for every request. -/
def fresh : ServiceType := .concrete home "Fresh"

/-- The client of this trial: its objects are numbered, and all its constructors and closers do
the same. -/
abbrev client : Client where
  Object := Nat
  Constructor := Unit
  Transform := Empty
  Cast := Empty
  Closer := Unit
  Routine := Empty

/-- How many instances were made, and how many were closed. -/
structure Counts where
  made : Nat := 0
  closed : Nat := 0
  deriving DecidableEq, Repr

/-- One operation of this trial; scopes are picked by a number. -/
inductive ScopeOp where
  | spawn (parent : Nat) (overrideShared : Bool)
  | resolveShared (scope : Nat)
  | resolvePerScope (scope : Nat)
  | resolveFresh (scope : Nat)
  | close (scope : Nat)
  deriving DecidableEq, Repr

/-- What is remembered after an instance is made. -/
def countMade (record : Record client Counts) : Record client Counts :=
  { record with counts := { record.counts with made := record.counts.made + 1 } }

/-- What is remembered after an instance is closed. -/
def countClosed (record : Record client Counts) : Record client Counts :=
  { record with counts := { record.counts with closed := record.counts.closed + 1 } }

/-- What the functions of this trial do: they count, and number what they make. -/
def behaviour : Behaviour client (Record client Counts)
  | .construct _ _ _, world =>
      some (.ok (.object world.memory.counts.made),
        { world with memory := countMade world.memory })
  | .convert _ _ cast _, _ => nomatch cast
  | .close _ _ _ _, world => some (none, { world with memory := countClosed world.memory })
  | .accepts _, world => some (true, world)
  | .report notice, world => some ((), listen notice world)

/-- The registration of the shared service. -/
def sharedRegistration : Registration client :=
  .service ((Offer.factory shared () []).closeWith ())

/-- The registrations of the root. -/
def registrations : List (Registration client) :=
  [ sharedRegistration,
    .service (((Offer.factory perScope () [.service (.of shared)]).withLifetime
      .perScope).closeWith ()),
    .service (((Offer.factory fresh () [.service (.of perScope)]).withLifetime
      .transient).closeWith ()) ]

/-- The scope with a number, counted round and round. -/
def pick (scopes : List (Scope client)) (number : Nat) : Option (Scope client) :=
  scopes[number % scopes.length]?

/-- Resolve the untagged key of a type. -/
def resolveType (scope : Scope client) (context : ContextId) (type : ServiceType) :
    Check client Counts (Outcome client) :=
  Check.request behaviour (scope.resolveTyped context (.of type))

/-- Whether two outcomes are the same instance, if both are instances. -/
def sameInstance? : Outcome client → Outcome client → Option Bool
  | .ok { content := .object first, .. }, .ok { content := .object second, .. } =>
      some (decide (first = second))
  | _, _ => none

/-- Whether a request failed because the scope is closed. -/
def isClosedError {α : Type} : Except Error α → Bool
  | .error .closed => true
  | _ => false

/-- Carry out an operation on a scope, check what it finds, and tell which scopes there are. -/
def applyTo (context : ContextId) (scopes : List (Scope client)) (scope : Scope client) :
    ScopeOp → Check client Counts (List (Scope client))
  | .spawn _ overrideShared => do
      let parentClosed ← Check.isClosed scope
      let added := if overrideShared then [sharedRegistration] else []
      match ← Check.build behaviour (some scope) added with
      | .ok child => return scopes ++ [child]
      | .error error =>
          Check.ensure parentClosed
          Check.ensure (isClosedError (α := Unit) (.error error))
          return scopes
  | .resolveShared _ => do
      let closed ← Check.isClosed scope
      let outcome ← resolveType scope context shared
      Check.ensure (!closed || !outcome.isOk)
      return scopes
  | .resolvePerScope _ => do
      let first ← resolveType scope context perScope
      let second ← resolveType scope context perScope
      Check.ensure ((sameInstance? first second).getD true)
      Check.ensure (scope.depth ≠ 0 || !first.isOk)
      return scopes
  | .resolveFresh _ => do
      let first ← resolveType scope context fresh
      let second ← resolveType scope context fresh
      Check.ensure !((sameInstance? first second).getD false)
      return scopes
  | .close _ => do
      let wasClosed ← Check.isClosed scope
      let outcome ← Check.request behaviour (scope.close context)
      Check.ensure (wasClosed == isClosedError outcome)
      return scopes

/-- The number by which an operation picks its scope. -/
def ScopeOp.picked : ScopeOp → Nat
  | spawn parent _ => parent
  | resolveShared scope => scope
  | resolvePerScope scope => scope
  | resolveFresh scope => scope
  | close scope => scope

/-- Carry out operations in order. -/
def applyAll (context : ContextId) :
    List (Scope client) → List ScopeOp → Check client Counts (List (Scope client))
  | scopes, [] => return scopes
  | scopes, op :: rest => do
      match pick scopes op.picked with
      | none => applyAll context scopes rest
      | some scope => applyAll context (← applyTo context scopes scope op) rest

/-- The trial: carry out at most 128 operations, close all scopes, the newest first, and compare
what was made with what was closed. -/
def trial (ops : List ScopeOp) : Check client Counts Verdict := do
  let world ← get
  let (context, contexts) := world.state.contexts.background
  set { world with state := { world.state with contexts } }
  match ← Check.build behaviour none registrations with
  | .error _ => return .passed
  | .ok root =>
      let scopes ← applyAll context [root] (ops.take 128)
      scopes.reverse.forM fun scope => do
        let _ ← Check.request behaviour (scope.close context)
      let counts := (← get).memory.counts
      Check.ensure (counts.made == counts.closed)
      return .passed

/-- Carry out the trial. -/
def run (ops : List ScopeOp) : Option Report :=
  Check.report behaviour {} (trial ops)

end Provision.Trial.ScopeTree
