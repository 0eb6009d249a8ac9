import Provision.Proofs.Execution.InterleavedActivity
import Provision.Proofs.Resolution.ResolutionUpkeep

/-!
# Requests that run alone

What a request comes to if nobody else acts in between, one rule for each way of composing
requests.  What a request keeps to among others it also keeps to alone.

Main statement: `Program.Keeps.alone`.
-/

namespace Provision

open Moment

variable {U : Client} {σ α β : Type} {behaviour : Behaviour U σ} {world last : World U σ}

namespace Request

/-- What a request comes to when it runs alone. -/
abbrev alone (request : Request U α) (behaviour : Behaviour U σ) (world : World U σ) :
    Option (Except Error α × World U σ) :=
  request.run.run behaviour world

/-- One request after another. -/
theorem alone_bind (request : Request U α) (next : α → Request U β) :
    (request >>= next).alone behaviour world =
      (request.alone behaviour world).bind fun reached =>
        match reached.1 with
        | .ok value => (next value).alone behaviour reached.2
        | .error error => some (.error error, reached.2) := by
  refine (Program.run_andThen ..).trans ?_
  congr 1
  funext reached
  cases reached.1 <;> rfl

/-- Alone, a request that succeeds goes on with its value. -/
theorem alone_bind_ok {request : Request U α} {next : α → Request U β} {value : α}
    (first : request.alone behaviour world = some (.ok value, last)) :
    (request >>= next).alone behaviour world = (next value).alone behaviour last := by
  rw [alone_bind, first]
  rfl

/-- Alone, a request that fails ends there. -/
theorem alone_bind_error {request : Request U α} {next : α → Request U β} {error : Error}
    (first : request.alone behaviour world = some (.error error, last)) :
    (request >>= next).alone behaviour world = some (.error error, last) := by
  rw [alone_bind, first]
  rfl

/-- An operation, and then another request. -/
theorem alone_bind_act {operation : Operation U} {next : operation.Answer → Request U α}
    {answer : operation.Answer} {state : State U}
    (performs : operation.perform world.state = some (answer, state)) :
    (act operation >>= next).alone behaviour world =
      (next answer).alone behaviour { world with state } := by
  have unfolds : (act operation >>= next).run =
      .perform operation fun answer => (next answer).run := rfl
  rw [alone, unfolds, Program.run, performs]

/-- A call of the client, and then another request. -/
theorem alone_bind_call (call : Call U) (next : call.Answer → Request U α) :
    (callClient call >>= next).alone behaviour world =
      (behaviour call world).bind fun reached => (next reached.1).alone behaviour reached.2 := by
  have unfolds : (callClient call >>= next).run =
      .ask call fun answer => (next answer).run := rfl
  rw [alone, unfolds, Program.run]
  cases behaviour call world <;> rfl

end Request

/-! ## Looking at contexts and scopes -/

/-- Alone, a usable context is found so. -/
theorem alone_ensureUsable {context : ContextId}
    (usable : world.state.contexts.error? context = none) :
    (ensureUsable context).alone behaviour world = some (.ok (), world) := by
  have performs : (Operation.contextError context).perform world.state =
      some (none, world.state) := by
    rw [Operation.perform, usable]
    rfl
  exact Request.alone_bind_act performs

/-- Alone, an open scope is found so. -/
theorem alone_ensureOpen {scope : ScopeId} (opened : (world.state.scope scope).closed = false) :
    (ensureOpen scope).alone behaviour world = some (.ok (), world) := by
  have performs : (Operation.isClosed scope).perform world.state =
      some (false, world.state) := by
    rw [Operation.perform, opened]
    rfl
  exact Request.alone_bind_act performs

/-- Alone, the home of a service is found if it is open. -/
theorem alone_effectiveScope {scope home : Scope U} {binding : Binding U} (key : Key)
    (isHome : binding.home? scope = some home)
    (opened : (world.state.scope home.id).closed = false) :
    (effectiveScope scope key binding).alone behaviour world = some (.ok home, world) := by
  unfold Binding.home? at isHome
  unfold effectiveScope
  cases lifetime : binding.recipe.lifetime with
  | singleton =>
      simp only [lifetime] at isHome ⊢
      rw [isHome]
      exact Request.alone_bind_ok (alone_ensureOpen opened)
  | perScope =>
      simp only [lifetime, Option.ite_none_left_eq_some, Option.some.injEq] at isHome ⊢
      rw [if_neg isHome.1, isHome.2]
      rfl
  | transient =>
      simp only [lifetime, Option.some.injEq] at isHome ⊢
      rw [isHome]
      rfl

/-- Resolving a key that is bound to something that has to be made goes on in its home. -/
theorem Scope.Finds.alone_resolve {scope home : Scope U} {key : Key} {binding : Binding U}
    (finds : scope.Finds key binding home) (resolver : Resolver U) {context : ContextId}
    (active : List Key) (usable : world.state.contexts.error? context = none)
    (opened : (world.state.scope scope.id).closed = false)
    (openedHome : (world.state.scope home.id).closed = false) :
    (resolver.resolve scope context key active).alone behaviour world =
      (resolver.resolveIn home context key binding active).alone behaviour world := by
  have goesOn : (effectiveScope scope key binding >>= fun effective =>
      resolver.resolveIn effective context key binding active).alone behaviour world =
        (resolver.resolveIn home context key binding active).alone behaviour world :=
    Request.alone_bind_ok (alone_effectiveScope key finds.home openedHome)
  rw [Resolver.resolve, Request.alone_bind_ok (alone_ensureUsable usable),
    Request.alone_bind_ok (alone_ensureOpen opened), finds.bound]
  cases source : binding.recipe.source with
  | value content => exact absurd ⟨content, source⟩ finds.made
  | factory make => simpa only [source] using goesOn
  | list item => simpa only [source] using goesOn

/-! ## Conduct -/

/-- A program that keeps to a conduct as long as others do keeps to it alone. -/
theorem Program.Keeps.alone {guar : Conduct U} {id : RequestId} {post : α → Moment U → Prop}
    {program : Program U α} {start : Moment U} {result : α}
    (keeps : program.Keeps (Conduct.orderly.and guar) guar id post start)
    (detached : behaviour.Detached) (lawful : start.Lawful (Conduct.orderly.and guar))
    (underway : start.Underway id) (state : start.state = world.state)
    (runs : program.run behaviour world = some (result, last)) :
    ∃ final, final.Lawful (Conduct.orderly.and guar) ∧ final.state = last.state ∧
      post result final := by
  induction program generalizing start world with
  | done value =>
      cases runs
      exact ⟨start, lawful, state, keeps start (.refl _) lawful⟩
  | perform operation next ih =>
      obtain ⟨answer, between, performs, runs⟩ := Program.run_perform_eq_some.mp runs
      have recorded : start.Records ⟨id, .performed operation answer⟩ _ :=
        Moment.records_recording (state ▸ performs)
      obtain ⟨allowed, rest⟩ := keeps start (.refl _) lawful answer _ recorded
      exact ih answer rest (.records lawful recorded ⟨underway, allowed⟩)
        (underway.goesOn recorded nofun) rfl runs
  | ask call next ih =>
      obtain ⟨answer, between, answers, runs⟩ := Program.run_ask_eq_some.mp runs
      let begun := start.recording ⟨id, .called call⟩ start.state
      have calls : start.Records ⟨id, .called call⟩ begun := Moment.records_recording rfl
      have waited : begun.state = world.state := state
      obtain ⟨contexts, returns⟩ := detached.returns answers waited id
      obtain ⟨allowed, rest⟩ := keeps start (.refl _) lawful
      have waits : (begun.withContexts contexts).Lawful (Conduct.orderly.and guar) :=
        .contexts contexts (.records lawful calls ⟨underway, allowed⟩)
      have waiting : begun.Underway id := underway.goesOn calls nofun
      have underway' : (begun.withContexts contexts).Underway id := waiting
      obtain ⟨allowed', rest'⟩ := rest begun calls _ (.contexts contexts (.refl _)) waits
        answer _ returns
      exact ih answer rest' (.records waits returns ⟨underway', allowed'⟩)
        (underway'.goesOn returns nofun) rfl runs
  | never => cases runs

end Provision
