import Provision.Proofs.Execution.RunningAlone
import Provision.Proofs.Resolution.ReportedCycles
import Provision.Proofs.Resolution.NestingDepth

/-!
# Where a singleton is asked for

A scope sees the bindings of its ancestors unless it registers a key again, and what it sees is what
the owner of the binding sees.  A singleton is made and kept by its owner.  So a request for it, of
any scope that is open, only looks whether that scope is open and then goes on as one of the owner.

Main statement: `singleton_anywhere`, that both come to the same, call the same functions of the
client and leave the same behind.
-/

namespace Provision

open Moment

variable {U : Client} {σ α β : Type} {behaviour : Behaviour U σ} {world : World U σ}

/-! ## What is seen of a request -/

/-- The call that begins with an event, if one does. -/
def Event.call? : Event U → Option (Call U)
  | .called call => some call
  | _ => none

/-- All that is seen of a request that runs alone: what it comes to and what it leaves behind, and
its calls of the client, the last first. -/
def Request.effect (request : Request U α) (behaviour : Behaviour U σ) (world : World U σ) :
    Option (Except Error α × World U σ) × List (Call U) :=
  (request.alone behaviour world, (request.run.trace behaviour world).filterMap Event.call?)

/-- What is seen of a program that goes on after another. -/
theorem Program.trace_andThen (program : Program U α) (next : α → Program U β) :
    (program.andThen next).trace behaviour world =
      (match program.run behaviour world with
        | some (result, last) => (next result).trace behaviour last
        | none => []) ++ program.trace behaviour world := by
  induction program generalizing world with
  | done result => simp [andThen, run, trace]
  | never => rfl
  | perform operation after ih =>
      simp only [andThen, run, trace]
      cases operation.perform world.state with
      | none => rfl
      | some reached => simp [ih]
  | ask call after ih =>
      simp only [andThen, run, trace]
      cases behaviour call world with
      | none => rfl
      | some reached => simp [ih]

namespace Request

theorem trace_bind (request : Request U α) (next : α → Request U β) :
    (request >>= next).run.trace behaviour world =
      (match request.alone behaviour world with
        | some (.ok value, last) => (next value).run.trace behaviour last
        | _ => []) ++ request.run.trace behaviour world := by
  refine (Program.trace_andThen request.run _).trans ?_
  congr 1
  unfold alone
  rcases request.run.run behaviour world with _ | ⟨_ | _, _⟩ <;> rfl

/-- Two requests that are seen to do the same are seen to do the same before a third. -/
theorem effect_bind_congr {request other : Request U α} {next : α → Request U β}
    (same : request.effect behaviour world = other.effect behaviour world) :
    (request >>= next).effect behaviour world = (other >>= next).effect behaviour world := by
  obtain ⟨alone, calls⟩ := Prod.mk.inj same
  simp only [effect, alone_bind, trace_bind, alone, List.filterMap_append, calls]

/-- Nothing is seen of a request that changes nothing and calls nobody, but for its error. -/
theorem effect_bind_idle {request : Request U α} {outcome : Except Error α}
    {next : α → Request U β} :
    request.effect behaviour world = (some (outcome, world), []) →
      (request >>= next).effect behaviour world =
        match outcome with
        | .ok value => (next value).effect behaviour world
        | .error error => (some (.error error, world), []) := by
  intro idle
  obtain ⟨alone, calls⟩ := Prod.mk.inj idle
  simp only [effect, alone_bind, trace_bind, alone, List.filterMap_append, calls]
  cases outcome <;> simp

/-- An operation that changes nothing, before a request. -/
theorem effect_bind_look {operation : Operation U} {next : operation.Answer → Request U α}
    {answer : operation.Answer}
    (looks : operation.perform world.state = some (answer, world.state)) :
    (act operation >>= next).effect behaviour world = (next answer).effect behaviour world := by
  have unfolds : (act operation >>= next).run =
      .perform operation fun answer => (next answer).run := rfl
  simp [effect, alone, unfolds, Program.run, Program.trace, looks, Event.call?]

theorem effect_ensureUsable (context : ContextId) :
    (ensureUsable context).effect behaviour world =
      (some (match world.state.contexts.error? context with
        | some reason => .error (.contextDone reason)
        | none => .ok (), world), []) := by
  refine (effect_bind_look rfl).trans ?_
  cases world.state.contexts.error? context <;> rfl

theorem effect_ensureOpen (scope : ScopeId) :
    (ensureOpen scope).effect behaviour world =
      (some (if (world.state.scope scope).closed then .error .closed else .ok (), world), []) := by
  refine (effect_bind_look rfl).trans ?_
  cases (world.state.scope scope).closed <;> rfl

end Request

/-! ## Requests for singletons -/

section Singleton

variable {scope owner : Scope U} {key : Key} {binding : Binding U} {context : ContextId}

/-- A request for a singleton looks whether the scope and the owner are open, and goes on in the
owner. -/
theorem Scope.Finds.resolve_singleton (finds : scope.Finds key binding owner)
    (isSingleton : binding.recipe.lifetime = .singleton) (resolver : Resolver U)
    (active : List Key) :
    resolver.resolve scope context key active = (do
      ensureUsable context
      ensureOpen scope.id
      ensureOpen owner.id
      resolver.resolveIn owner context key binding active) := by
  have isOwner : scope.ancestor? binding.owner = some owner := by
    have home := finds.home
    rwa [Binding.home?, isSingleton] at home
  have goesOn : (do
      let effective ← effectiveScope scope key binding
      resolver.resolveIn effective context key binding active) = (do
        ensureOpen owner.id
        resolver.resolveIn owner context key binding active) := by
    rw [effectiveScope, isSingleton, isOwner, bind_assoc]
    rfl
  rw [Resolver.resolve, finds.bound]
  cases source : binding.recipe.source with
  | value content => exact absurd ⟨content, source⟩ finds.made
  | factory make => simp only [source, goesOn]
  | list item => simp only [source, goesOn]

/-- Below a scope and its bound keys as many requests may be nested as an ancestor of it needs. -/
theorem Scope.Built.resolveWithin_above (built : scope.Built) (isAbove : owner.Above scope)
    (context : ContextId) (key : Key) :
    resolveWithin (scope.registry.bound + 1) owner context key [] =
      resolve owner context key := by
  let deep := owner.registry.bound + 1
  calc resolveWithin (scope.registry.bound + 1) owner context key []
      = Resolver.resolve^[scope.registry.bound + 1] (Resolver.resolve^[deep] (resolveWithin 0))
          owner context key [] := by
        rw [resolveWithin_eq_iterate]
        exact built.iterate_resolve_congr isAbove scope.depthLeft_nil _ _
    _ = Resolver.resolve^[deep] (Resolver.resolve^[scope.registry.bound + 1] (resolveWithin 0))
          owner context key [] := by
        rw [← Function.iterate_add_apply, ← Function.iterate_add_apply, Nat.add_comm]
    _ = resolve owner context key := (built.above isAbove).nested_eq context key _

/-- A request for a singleton, made of a scope that is open, is seen to do what one made of the
owner does. -/
theorem Scope.Finds.effect_resolve (finds : scope.Finds key binding owner) (built : scope.Built)
    (isSingleton : binding.recipe.lifetime = .singleton)
    (opened : (world.state.scope scope.id).closed = false) :
    (resolve scope context key).effect behaviour world =
      (resolve owner context key).effect behaviour world := by
  have leads : scope.Leads key ⟨owner, binding⟩ := ⟨finds.bound, finds.home⟩
  have inOwner := leads.atHome built
  have findsOwn : owner.Finds key binding owner := ⟨inOwner.bound, finds.made, inOwner.home⟩
  rw [← built.resolveWithin_above leads.above, resolve, resolveWithin,
    finds.resolve_singleton isSingleton, findsOwn.resolve_singleton isSingleton]
  simp only [Request.effect_bind_idle (Request.effect_ensureUsable _),
    Request.effect_bind_idle (Request.effect_ensureOpen _), opened, Bool.false_eq_true, if_false]
  cases world.state.contexts.error? context with
  | some reason => rfl
  | none => cases (world.state.scope owner.id).closed <;> rfl

end Singleton

/-- A request for a key, by either way to ask a scope for it, comes to the same from two scopes,
calls the same functions of the client and leaves the same behind. -/
structure Scope.SameEffect (scope other : Scope U) (context : ContextId) (key : Key)
    (behaviour : Behaviour U σ) (world : World U σ) : Prop where
  resolve : (resolve scope context key).effect behaviour world =
    (Provision.resolve other context key).effect behaviour world
  resolveTyped : (scope.resolveTyped context key).effect behaviour world =
    (other.resolveTyped context key).effect behaviour world

/-- What a scope sees under a key is what the owner of the binding sees there, and the owner is the
scope or an ancestor of it.  A singleton is therefore the same wherever it is asked for: a request
of an open scope and one of the owner, made in the same world with the same context, come to the
same value or error, call the same functions of the client and leave all scopes in the same
state. -/
theorem singleton_anywhere {activity : Activity U} (reachable : activity.Reachable)
    {scope : Scope U} (isScope : activity.moment.IsScope scope) {key : Key} {binding : Binding U}
    (bound : scope.registry.find? key = some binding) :
    ∃ owner, owner.Above scope ∧ owner.id = binding.owner ∧ activity.moment.IsScope owner ∧
      owner.registry.find? key = some binding ∧
      ∀ make, binding.recipe.lifetime = .singleton → binding.recipe.source = .factory make →
        ∀ {σ : Type} (behaviour : Behaviour U σ) (world : World U σ) (context : ContextId),
          (world.state.scope scope.id).closed = false →
            scope.SameEffect owner context key behaviour world := by
  have lawful := reachable.lawful kept_growing
  have built := (isScope.grown lawful).built
  obtain ⟨owner, finds, owns⟩ := built.sound.owner bound
  refine ⟨owner, .ofAncestor finds, (Scope.ancestor?_some finds).1,
    isScope.ancestor lawful finds, owns, ?_⟩
  intro make isSingleton isFactory σ behaviour world context opened
  have isMade : ¬ binding.IsValue := by
    rintro ⟨content, isValue⟩
    cases isFactory.symm.trans isValue
  have isHome : binding.home? scope = some owner := by
    rw [Binding.home?, isSingleton]
    exact finds
  have finds : scope.Finds key binding owner := ⟨bound, isMade, isHome⟩
  have same : (resolve scope context key).effect behaviour world =
      (resolve owner context key).effect behaviour world :=
    finds.effect_resolve built isSingleton opened
  exact ⟨same, Request.effect_bind_congr same⟩

/-- A child that registers one service again asks for a singleton of its parent that needs this
service: it is told what the parent is told, and both make it of the parent's own service. -/
theorem singleton_of_parent : ∃ activity : Activity Client.obliging, activity.Reachable ∧
    activity.moment.IsScope Override.child ∧
      Override.child.registry.find? Override.between = some Override.shared.binding ∧
      Override.shared.binding.recipe.lifetime = .singleton ∧
      Override.shared.binding.recipe.source = .factory () ∧
      (Override.withChild.state.scope Override.child.id).closed = false ∧
      ∃ owner, owner.Above Override.child ∧ owner.id = Override.parent.id ∧
        Override.child.SameEffect owner ⟨0⟩ Override.between Behaviour.obliging
          Override.withChild := by
  obtain ⟨activity, served⟩ := Override.served
  have isScope : activity.moment.IsScope Override.child := ⟨_, (served.did 1 rfl).2⟩
  have bound : Override.child.registry.find? Override.between =
      some Override.shared.binding := rfl
  have opened : (Override.withChild.state.scope Override.child.id).closed = false := rfl
  obtain ⟨owner, above, owns, _, _, same⟩ := singleton_anywhere served.reachable isScope bound
  exact ⟨activity, served.reachable, isScope, bound, rfl, rfl, opened, owner, above, owns,
    same () rfl rfl Behaviour.obliging Override.withChild ⟨0⟩ opened⟩

end Provision
