import Provision.Proofs.Execution.RunningAlone
import Provision.Proofs.Instances.KeptInstances

/-!
# Kept failures

If making an instance fails, its cell keeps the error, and if converting or decorating it fails,
the cell of the key does.  A later request for the key, alone, ends with the same error.  Where
the finished value failed it does nothing else.  Where the instance failed nothing is kept for the
key, so the parameters of the decorators are resolved once more before the error is met; the
constructor and the decorators themselves are not called.

Main statement: `failures_replay`.
-/

namespace Provision

open Moment

variable {U : Client}

/-! ## Nothing is shown of an instance that failed -/

/-- The value for a key is filled in only once there is an instance. -/
def Conduct.showing : Conduct U :=
  Duties.conduct {
    enters := fun moment scope cell found =>
      match cell, found with
      | .shown recipe _, none => ∃ made, moment.Settled scope (.made recipe) (.ok made)
      | _, _ => True }

section Kept

variable {rely : Conduct U} {id : RequestId} {start : Moment U}
  (within : ∀ moment entry, rely moment entry →
    (Conduct.orderly.and (Conduct.growing.and Conduct.keeping)) moment entry)

include within

/-- A value is made before it is shown. -/
theorem keeps_produceFrom_showing (home : Scope U) (context : ContextId) (key : Key)
    (binding : Binding U) (inputs : Inputs U) :
    Request.Keeps rely Conduct.showing id (fun _ _ => True)
      (produceFrom home context key binding inputs) start := by
  have makes := (only_construct home.id context binding.recipe inputs.arguments inputs.flag
    binding.cast.isSome).mono (fun _ making => making) fun _ _ => trivial
  refine Request.keeps_bind (keeps_keepIf_through within makes (fun _ _ _ _ => trivial)
    fun _ _ _ => trivial) (fun _ _ _ _ => trivial) ?_
  intro made moment _ settled
  have finishes := (only_finish home.id context key binding inputs.stages made).mono
    (fun _ making => making) fun _ _ => trivial
  refine (keeps_keepIf_through within finishes ?_ fun _ _ _ => trivial).mono
    fun _ _ _ _ => trivial
  intro kept later found grows
  cases found with
  | some outcome => trivial
  | none => exact ⟨made, (settled kept).mono grows⟩

/-- All requests keep to that. -/
theorem kept_showing : Conduct.Kept rely Conduct.showing := by
  refine .ofResolving (fun _ _ _ => trivial) (Duties.conduct_of_aside ·.aside)
    (fun _ _ _ _ _ _ => trivial) ?_
  intro moment id demand after _ _ _ resolves
  exact ((resolving rely id (Duties.conduct_of_aside ·.aside)
    fun _ home context key binding inputs =>
      keeps_produceFrom_showing within home context key binding inputs).asking resolves
        (fun _ _ => trivial) trivial).mono fun _ _ _ _ => trivial

end Kept

/-! ## What the cells hold -/

namespace Moment

section Lawful

variable {conduct : Conduct U} {moment : Moment U} (lawful : moment.Lawful conduct)
  {scope : ScopeId}

include lawful

theorem Lawful.kept_of_settled
    (settles : ∀ moment entry, conduct moment entry → Conduct.settling moment entry)
    {cell : CacheKey} {outcome : Outcome U} (settled : moment.Settled scope cell outcome) :
    moment.state.kept? scope cell = some outcome := by
  obtain ⟨id, did⟩ := settled
  exact State.kept?_eq_some.mpr ((lawful.cellSound settles scope cell).settled did).2

/-- Nothing was ever shown of an instance that failed. -/
theorem Lawful.unshown
    (settles : ∀ moment entry, conduct moment entry → Conduct.settling moment entry)
    (shows : ∀ moment entry, conduct moment entry → Conduct.showing moment entry)
    {recipe : RecipeId} {error : Error} (failed : moment.Settled scope (.made recipe) (.error error))
    (key : Key) : moment.state.kept? scope (.shown recipe key) = none := by
  cases kept : moment.state.kept? scope (.shown recipe key) with
  | none => rfl
  | some outcome =>
      have sound := lawful.cellSound settles scope (.shown recipe key)
      obtain ⟨id, did⟩ := sound.filled (State.kept?_eq_some.mp kept)
      obtain ⟨before, _, grows, allowed⟩ := lawful.allowed (sound.settled did).1
      obtain ⟨made, succeeded⟩ := shows _ _ allowed
      cases lawful.settled_once settles failed (succeeded.mono grows)

end Lawful

/-- There is always another request to make. -/
theorem exists_fresh (moment : Moment U) : ∃ id, ¬ moment.Knows id := by
  suffices ∀ history : List (Entry U), ∃ bound, ∀ entry ∈ history,
      entry.request.index < bound by
    obtain ⟨bound, below⟩ := this moment.history
    refine ⟨⟨bound⟩, ?_⟩
    rintro ⟨entry, member, same⟩
    have inside := below entry member
    rw [same] at inside
    exact Nat.lt_irrefl _ inside
  intro history
  induction history with
  | nil => exact ⟨0, fun _ member => absurd member List.not_mem_nil⟩
  | cons entry rest ih =>
      obtain ⟨bound, below⟩ := ih
      refine ⟨max bound (entry.request.index + 1), fun other member => ?_⟩
      rcases List.mem_cons.mp member with rfl | later
      · exact Nat.lt_of_lt_of_le (Nat.lt_succ_self _) (Nat.le_max_right ..)
      · exact Nat.lt_of_lt_of_le (below other later) (Nat.le_max_left ..)

end Moment

/-! ## Requests for what failed -/

/-- What is left to do for a key whose instance failed: the parameters of its decorators are
resolved, and then comes the error. -/
def Resolver.replay (resolver : Resolver U) (home : Scope U) (context : ContextId) (key : Key)
    (binding : Binding U) (active : List Key) (error : Error) : Request U (Value U) := do
  let _ ← Request.act .newFlag
  let _ ← resolver.stages home context key (active ++ [key])
    (home.registry.decoratorsOf binding.registered)
  Request.fail error

section Alone

variable {σ : Type} {behaviour : Behaviour U σ} {world : World U σ}

/-- The world after some flags were numbered. -/
def World.numbering (world : World U σ) (count : Nat) : World U σ :=
  { world with state := { world.state with nextFlag := world.state.nextFlag + count } }

theorem World.numbering_add (world : World U σ) (first second : Nat) :
    (world.numbering first).numbering second = world.numbering (first + second) := by
  simp only [numbering, Nat.add_assoc]

variable {resolver : Resolver U} {home : Scope U} {context : ContextId} {key : Key}
  {binding : Binding U} {active : List Key}

/-- What is kept for a key is handed out as it is. -/
theorem alone_resolveIn_shown {outcome : Outcome U}
    (kept : binding.recipe.lifetime.isKept = true)
    (shown : world.state.kept? home.id (.shown binding.recipe.id binding.registered) =
      some outcome) :
    (resolver.resolveIn home context key binding active).alone behaviour world =
      (do
        Request.report (.resolvedFromCache key home.id)
        Request.ofExcept outcome : Request U (Value U)).alone behaviour world := by
  have looks : recallShown home.id binding =
      Request.act (.peek home.id (.shown binding.recipe.id binding.registered)) := if_pos kept
  have performs : (Operation.peek home.id
      (.shown binding.recipe.id binding.registered)).perform world.state =
        some (some outcome, world.state) := by
    rw [Operation.perform, shown]
    rfl
  rw [Resolver.resolveIn, looks]
  exact Request.alone_bind_act performs

/-- If nothing is kept for a key, its value is created. -/
theorem alone_resolveIn_unshown (kept : binding.recipe.lifetime.isKept = true)
    (unshown : world.state.kept? home.id (.shown binding.recipe.id binding.registered) = none)
    (inactive : key ∉ active) :
    (resolver.resolveIn home context key binding active).alone behaviour world =
      (resolver.create home context key binding active).alone behaviour world := by
  have looks : recallShown home.id binding =
      Request.act (.peek home.id (.shown binding.recipe.id binding.registered)) := if_pos kept
  have performs : (Operation.peek home.id
      (.shown binding.recipe.id binding.registered)).perform world.state =
        some (none, world.state) := by
    rw [Operation.perform, unshown]
    rfl
  rw [Resolver.resolveIn, looks]
  refine (Request.alone_bind_act performs).trans ?_
  exact congrArg (Request.alone · behaviour world) (if_neg inactive)

/-- If the instance is kept, only the parameters of the decorators are resolved. -/
theorem alone_inputs_made (kept : binding.recipe.lifetime.isKept = true)
    (made : ∃ outcome, world.state.kept? home.id (.made binding.recipe.id) = some outcome) :
    (resolver.inputs home context key binding active).alone behaviour world =
      ((resolver.stages home context key active
        (home.registry.decoratorsOf binding.registered)).alone behaviour
          (world.numbering 1)).map fun reached =>
            (reached.1.map fun stages => ⟨[], ⟨world.state.nextFlag⟩, stages⟩, reached.2) := by
  obtain ⟨outcome, made⟩ := made
  have looks : isMade home.id binding.recipe =
      Request.act (.peek home.id (.made binding.recipe.id)) >>= fun made => pure made.isSome :=
    if_pos kept
  have peeks : (Operation.peek home.id (.made binding.recipe.id)).perform
      (world.numbering 1).state = some (some outcome, (world.numbering 1).state) := by
    change some (world.state.kept? _ _, _) = _
    rw [made]
  have isMade : (isMade home.id binding.recipe).alone behaviour (world.numbering 1) =
      some (.ok true, world.numbering 1) := by
    rw [looks]
    exact Request.alone_bind_act peeks
  have numbers : Operation.newFlag.perform world.state =
      some (⟨world.state.nextFlag⟩, (world.numbering 1).state) := rfl
  have skips : (pure [] : Request U (List (Argument U))).alone behaviour (world.numbering 1) =
      some (.ok [], world.numbering 1) := rfl
  rw [Resolver.inputs]
  refine (Request.alone_bind_act numbers).trans ((Request.alone_bind_ok isMade).trans ?_)
  refine (Request.alone_bind_ok skips).trans ((Request.alone_bind ..).trans ?_)
  cases (resolver.stages home context key active
      (home.registry.decoratorsOf binding.registered)).alone behaviour (world.numbering 1) with
  | none => rfl
  | some reached =>
      obtain ⟨outcome, last⟩ := reached
      cases outcome <;> rfl

/-- If the instance failed, the parameters of the decorators are resolved before the error is
met. -/
theorem alone_create_failed {error : Error} (kept : binding.recipe.lifetime.isKept = true)
    (failed : world.state.kept? home.id (.made binding.recipe.id) = some (.error error))
    (lasting : ∀ stages last,
      (resolver.stages home context key (active ++ [key])
        (home.registry.decoratorsOf binding.registered)).alone behaviour (world.numbering 1) =
          some (stages, last) →
        last.state.kept? home.id (.made binding.recipe.id) = some (.error error)) :
    (resolver.create home context key binding active).alone behaviour world =
      (resolver.replay home context key binding active error).alone behaviour world := by
  have enters : ∀ (create : Request U (Value U)) (last : World U σ),
      last.state.kept? home.id (.made binding.recipe.id) = some (.error error) →
        (keepIf binding.recipe.lifetime.isKept home.id (.made binding.recipe.id) create).alone
          behaviour last = some (.error error, last) := by
    intro create last filled
    have performs : (Operation.enter home.id (.made binding.recipe.id)).perform last.state =
        some (some (.error error), last.state) := by
      have cell := State.kept?_eq_some.mp filled
      unfold State.cell? at cell
      rw [Operation.perform, cell]
      rfl
    rw [keepIf, if_pos kept]
    exact Request.alone_bind_act performs
  have numbers : Operation.newFlag.perform world.state =
      some (⟨world.state.nextFlag⟩, (world.numbering 1).state) := rfl
  have replays : (resolver.replay home context key binding active error).alone behaviour world =
      (resolver.stages home context key (active ++ [key])
        (home.registry.decoratorsOf binding.registered) >>= fun _ =>
          Request.fail error : Request U (Value U)).alone behaviour (world.numbering 1) :=
    Request.alone_bind_act numbers
  rw [Resolver.create_eq, Request.alone_bind, alone_inputs_made kept ⟨_, failed⟩, replays,
    Request.alone_bind]
  cases ran : (resolver.stages home context key (active ++ [key])
      (home.registry.decoratorsOf binding.registered)).alone behaviour (world.numbering 1) with
  | none => rfl
  | some reached =>
      obtain ⟨outcome, last⟩ := reached
      cases outcome with
      | error failure => rfl
      | ok stages => exact Request.alone_bind_error (enters _ _ (lasting _ _ ran))

/-- Parameters that ask for no service are resolved at once. -/
theorem alone_arguments_plain (resolver : Resolver U) (flag : FlagId) {params : List Param}
    (plain : ∀ needed, .service needed ∉ params) : ∃ arguments,
      (resolver.arguments home context key active flag params).alone behaviour world =
        some (.ok arguments, world) := by
  induction params with
  | nil => exact ⟨[], rfl⟩
  | cons param params ih =>
      obtain ⟨rest, resolved⟩ := ih fun needed member => plain needed (List.mem_cons_of_mem _ member)
      have first : ∃ argument, (wrapDependency key param
          (resolver.argument home context active flag param)).alone behaviour world =
            some (.ok argument, world) := by
        cases param with
        | context => exact ⟨.context context, rfl⟩
        | scope => exact ⟨.scope { scope := home, flag }, rfl⟩
        | service needed => exact absurd List.mem_cons_self (plain needed)
      obtain ⟨argument, first⟩ := first
      exact ⟨argument :: rest,
        (Request.alone_bind_ok first).trans (Request.alone_bind_ok resolved)⟩

/-- Decorators that ask for no service take a flag each. -/
theorem alone_stages_plain (resolver : Resolver U) (world : World U σ)
    {decorators : List (Decorator U)}
    (plain : ∀ decorator ∈ decorators, ∀ needed, .service needed ∉ decorator.params) :
    ∃ stages, (resolver.stages home context key active decorators).alone behaviour world =
      some (.ok stages, world.numbering decorators.length) := by
  induction decorators generalizing world with
  | nil => exact ⟨[], rfl⟩
  | cons decorator decorators ih =>
      have numbers : Operation.newFlag.perform world.state =
          some (⟨world.state.nextFlag⟩, (world.numbering 1).state) := rfl
      obtain ⟨arguments, resolved⟩ := alone_arguments_plain resolver
        ⟨world.state.nextFlag⟩ (plain decorator List.mem_cons_self)
      obtain ⟨rest, others⟩ := ih (world.numbering 1) fun other member =>
        plain other (List.mem_cons_of_mem _ member)
      refine ⟨⟨decorator, arguments, ⟨world.state.nextFlag⟩⟩ :: rest, ?_⟩
      refine (Request.alone_bind_act numbers).trans ((Request.alone_bind_ok resolved).trans ?_)
      rw [List.length_cons, Nat.add_comm, ← World.numbering_add]
      exact Request.alone_bind_ok others

/-- If the decorators ask for no service, nothing comes before the error. -/
theorem alone_replay_plain
    (plain : ∀ decorator ∈ home.registry.decoratorsOf binding.registered, ∀ needed,
      .service needed ∉ decorator.params) (error : Error) :
    (resolver.replay home context key binding active error).alone behaviour world =
      some (.error error,
        world.numbering (1 + (home.registry.decoratorsOf binding.registered).length)) := by
  have numbers : Operation.newFlag.perform world.state =
      some (⟨world.state.nextFlag⟩, (world.numbering 1).state) := rfl
  obtain ⟨stages, resolved⟩ := alone_stages_plain resolver (world.numbering 1) plain
  rw [← World.numbering_add]
  exact (Request.alone_bind_act numbers).trans (Request.alone_bind_ok resolved)

/-- While the parameters of decorators are resolved, all that is known of cells goes on to hold. -/
theorem keeps_stages (id : RequestId) {start : Moment U}
    (lawful : start.Lawful (Conduct.orderly.and (Conduct.growing.and Conduct.keeping)))
    (isScope : start.IsScope home) (context : ContextId) (key : Key) (active : List Key)
    (decorators : List (Decorator U)) (depth : Nat) :
    Request.Keeps (Conduct.orderly.and (Conduct.growing.and Conduct.keeping))
      (Conduct.growing.and Conduct.keeping) id
      (fun _ moment => start.history <:+ moment.history)
      ((resolveWithin depth).stages home context key active decorators) start := by
  have growing : Request.Keeps (Conduct.orderly.and (Conduct.growing.and Conduct.keeping))
      Conduct.growing id (fun _ _ => True)
      ((resolveWithin depth).stages home context key active decorators) start := by
    have grows : (growth (Conduct.orderly.and (Conduct.growing.and Conduct.keeping)) id).Upholds
        (resolveWithin depth : Resolver U) := Upkeep.upholds_resolveWithin depth
    exact (grows.stages (fun _ _ => True) trivial trivial context
      fun _ _ _ _ _ _ _ => trivial).mono fun _ _ _ _ => trivial
  have keeping : Request.Keeps (Conduct.orderly.and (Conduct.growing.and Conduct.keeping))
      Conduct.keeping id (fun _ _ => True)
      ((resolveWithin depth).stages home context key active decorators) start := by
    have keeps : (safekeeping (fun _ _ allowed => allowed)
        (lawful.grow fun _ _ allowed => allowed) id).Upholds (resolveWithin depth) :=
      Upkeep.upholds_resolveWithin depth
    exact (keeps.stages (fun _ _ => True) isScope (List.suffix_refl _) context
      fun _ _ _ _ _ _ _ => trivial).mono fun _ _ _ _ => trivial
  exact (growing.and keeping).grows.mono fun _ _ _ reached => reached.1

/-- What a cell holds it still holds after the parameters of decorators were resolved. -/
theorem Moment.Lawful.kept_after_stages {moment : Moment U}
    (lawful : moment.Lawful (Conduct.orderly.and (Conduct.growing.and Conduct.keeping)))
    (detached : behaviour.Detached) (isScope : moment.IsScope home)
    (state : moment.state = world.state) {scope : ScopeId} {cell : CacheKey} {outcome : Outcome U}
    (settled : moment.Settled scope cell outcome) {depth : Nat} {decorators : List (Decorator U)}
    {stages : Except Error (List (Stage U))} {last : World U σ}
    (runs : ((resolveWithin depth).stages home context key active decorators).alone behaviour
      (world.numbering 1) = some (stages, last)) :
    last.state.kept? scope cell = some outcome := by
  obtain ⟨id, fresh⟩ := moment.exists_fresh
  let demand : Demand U := .resolve home context key
  let began := moment.recording ⟨id, .started demand⟩ moment.state
  let numbered := began.recording ⟨id, .performed .newFlag ⟨world.state.nextFlag⟩⟩
    (world.numbering 1).state
  have starts : moment.Records ⟨id, .started demand⟩ began := Moment.records_recording rfl
  have numbers : began.Records ⟨id, .performed .newFlag ⟨world.state.nextFlag⟩⟩ numbered := by
    refine Moment.records_recording ?_
    change Operation.newFlag.perform moment.state = _
    rw [state]
    rfl
  have allowed : demand.Allowed moment := by
    intro scope named
    rw [List.mem_singleton.mp named]
    exact isScope
  have underway : began.Underway id := starts.underway_of_started fresh
  have origin : numbered.Lawful (Conduct.orderly.and (Conduct.growing.and Conduct.keeping)) :=
    .records (.records lawful starts ⟨⟨fresh, allowed⟩, trivial, trivial⟩) numbers
      ⟨underway, trivial, trivial⟩
  have grown := starts.suffix.trans numbers.suffix
  have keeps := keeps_stages id origin (isScope.mono grown) context key active decorators depth
  obtain ⟨final, lawful', same, grown'⟩ :=
    keeps.alone detached origin (underway.goesOn numbers nofun) rfl runs
  rw [← same]
  exact lawful'.kept_of_settled (fun _ _ allowed => Conduct.settling_of_keeping allowed.2.2)
    (settled.mono (grown.trans grown'))

/-- A program that comes to an end even if no call of it ever returns makes no calls. -/
theorem Program.uncalled {α : Type} {program : Program U α} {reached : α × World U σ}
    (runs : program.run (fun _ _ => none) world = some reached) (behaviour : Behaviour U σ)
    (call : Call U) : .called call ∉ program.trace behaviour world := by
  induction program generalizing world with
  | done result => exact List.not_mem_nil
  | perform operation next ih =>
      obtain ⟨answer, between, performs, rest⟩ := Program.run_perform_eq_some.mp runs
      rw [Program.trace_perform performs]
      intro called
      rcases List.mem_append.mp called with later | now
      · exact ih answer rest later
      · cases List.mem_singleton.mp now
  | ask call next ih => cases runs
  | never => exact List.not_mem_nil

end Alone

/-- A request for a key whose instance failed, alone and with the context usable and the scopes
open, resolves the parameters of the decorators and then ends with the same error; if these ask
for no service it does so without any call.  Where the value for the key failed after the instance
was made, the request only reports and ends with the same error. -/
theorem failures_replay {σ : Type} {behaviour : Behaviour U σ} (detached : behaviour.Detached)
    {activity : Activity U} (reachable : activity.Reachable) {scope home : Scope U} {key : Key}
    {binding : Binding U} (isScope : activity.moment.IsScope scope)
    (finds : scope.Finds key binding home) (kept : binding.recipe.lifetime.isKept = true)
    {world : World U σ} (state : activity.moment.state = world.state) {context : ContextId}
    (usable : world.state.contexts.error? context = none)
    (opened : (world.state.scope scope.id).closed = false)
    (openedHome : (world.state.scope home.id).closed = false) (depth : Nat) {active : List Key}
    (inactive : key ∉ active) :
    (∀ error, activity.moment.Settled home.id (.made binding.recipe.id) (.error error) →
      (resolveWithin (depth + 1) scope context key active).alone behaviour world =
          ((resolveWithin depth).replay home context key binding active error).alone behaviour
            world ∧
        ((∀ decorator ∈ home.registry.decoratorsOf binding.registered, ∀ needed,
            .service needed ∉ decorator.params) →
          (resolveWithin (depth + 1) scope context key active).alone behaviour world =
              some (.error error,
                world.numbering (1 + (home.registry.decoratorsOf binding.registered).length)) ∧
            ∀ call, .called call ∉
              (resolveWithin (depth + 1) scope context key active).run.trace behaviour world)) ∧
      ∀ error, activity.moment.Settled home.id (.shown binding.recipe.id binding.registered)
          (.error error) →
        (resolveWithin (depth + 1) scope context key active).alone behaviour world =
          (do
            Request.report (.resolvedFromCache key home.id)
            Request.fail error : Request U (Value U)).alone behaviour world := by
  have conduct : Conduct.Kept
      (Conduct.orderly.and (Conduct.growing.and (Conduct.keeping.and Conduct.showing)))
      ((@Conduct.growing U).and (Conduct.keeping.and Conduct.showing)) :=
    kept_growing.and ((kept_keeping fun _ _ all => ⟨all.1, all.2.1, all.2.2.1⟩).and
      (kept_showing fun _ _ all => ⟨all.1, all.2.1, all.2.2.1⟩))
  have lawful := reachable.lawful conduct
  have storing := lawful.mono fun _ _ all =>
    (⟨all.1, all.2.1, all.2.2.1⟩ : (Conduct.orderly.and (Conduct.growing.and Conduct.keeping)) _ _)
  have settles : ∀ (moment : Moment U) entry,
      (Conduct.orderly.and (Conduct.growing.and Conduct.keeping)) moment entry →
        Conduct.settling moment entry := fun _ _ all => Conduct.settling_of_keeping all.2.2
  have isHome := isScope.home (storing.mono fun _ _ all => ⟨all.1, all.2.1⟩) finds.home
  have goesOn : ∀ behaviour : Behaviour U σ,
      (resolveWithin (depth + 1) scope context key active).alone behaviour world =
        ((resolveWithin depth).resolveIn home context key binding active).alone behaviour world :=
    fun _ => finds.alone_resolve _ active usable opened openedHome
  refine ⟨fun error failed => ?_, fun error failed => ?_⟩
  · have unshown := lawful.unshown (fun _ _ all => Conduct.settling_of_keeping all.2.2.1)
      (fun _ _ all => all.2.2.2) failed binding.registered
    have kept' := storing.kept_of_settled settles failed
    rw [state] at unshown kept'
    have replays : ∀ behaviour : Behaviour U σ, behaviour.Detached →
        (resolveWithin (depth + 1) scope context key active).alone behaviour world =
          ((resolveWithin depth).replay home context key binding active error).alone behaviour
            world := by
      intro behaviour detached
      rw [goesOn, alone_resolveIn_unshown kept unshown inactive]
      exact alone_create_failed kept kept' fun stages last runs =>
        storing.kept_after_stages detached isHome state failed runs
    refine ⟨replays behaviour detached, fun plain => ⟨?_, ?_⟩⟩
    · rw [replays behaviour detached, alone_replay_plain plain]
    · have silent : Behaviour.Detached (fun _ _ => none : Behaviour U σ) :=
        fun _ _ _ _ impossible => absurd impossible (Option.some_ne_none _).symm
      exact Program.uncalled ((replays _ silent).trans (alone_replay_plain plain error)) behaviour
  · have kept' := storing.kept_of_settled settles failed
    rw [state] at kept'
    exact (goesOn behaviour).trans (alone_resolveIn_shown kept kept')

/-- All constructors fail; all else is as for an obliging client. -/
def Behaviour.failing : Behaviour Client.obliging Unit := fun call world =>
  match call with
  | .construct _ _ _ => some (.error (.text "failed"), world)
  | call => Behaviour.obliging call world

theorem Behaviour.failing_detached : Behaviour.failing.Detached := by
  intro call world answer after runs
  refine ⟨world.state.contexts, ?_⟩
  cases call <;> cases runs <;> rfl

namespace Failing

/-- The key of a service that cannot be made. -/
def key : Key := .of (.concrete "sample" "A")

/-- The service, with a decorator that asks for the context. -/
def registrations : List (Registration Client.obliging) :=
  [.service (Offer.factory key.type () []),
    .decorator { target := key, params := [.context], transform := () }]

/-- The scope that would keep it. -/
def scope : Scope Client.obliging :=
  ((Builder.root ⟨1⟩).addAll registrations).scope

/-- The binding of the service. -/
def binding : Binding Client.obliging where
  recipe := (Offer.factory key.type () []).recipe (.registration ⟨1⟩ 0)
  registered := key
  owner := ⟨1⟩
  cast := none

/-- The world once the scope is built. -/
def built : World Client.obliging Unit :=
  (Demand.build none registrations).afterwards Behaviour.failing { state := {}, memory := () }

/-- The world once the service was asked for. -/
def failed : World Client.obliging Unit :=
  (Demand.resolve scope ⟨0⟩ key).afterwards Behaviour.failing built

/-- What became of that. -/
def failure : Error := .creationFailed key (.text "failed")

theorem served : ∃ activity : Activity Client.obliging, activity.Reachable ∧
    activity.moment.state = failed.state ∧ activity.moment.IsScope scope ∧
      activity.moment.Settled ⟨1⟩ (.made (.registration ⟨1⟩ 0)) (.error failure) := by
  have builds : (Demand.build none registrations).request.run.run Behaviour.failing
      { state := {}, memory := () } = some (.ok (.built scope), built) := rfl
  have fails : (Demand.resolve scope ⟨0⟩ key).request.run.run Behaviour.failing built =
      some (.error failure, failed) := rfl
  have detached := Behaviour.failing_detached
  obtain ⟨_, first, _⟩ := (Activity.Served.initial ()).next detached builds nofun
  obtain ⟨activity, second, history⟩ := first.nextOn detached fails rfl List.mem_cons_self
  have isScope : activity.moment.IsScope scope := ⟨_, (second.did 0 rfl).2⟩
  have settles : .performed (.settle ⟨1⟩ (.made (.registration ⟨1⟩ 0)) (.error failure)) () ∈
      (Demand.resolve scope ⟨0⟩ key).trace Behaviour.failing (.error failure) built :=
    List.mem_of_getElem? (i := 1) rfl
  have settled : activity.moment.Settled ⟨1⟩ (.made (.registration ⟨1⟩ 0)) (.error failure) := by
    refine ⟨⟨1⟩, ?_⟩
    unfold Moment.Did
    rw [history]
    exact List.mem_append_left _ (List.mem_map_of_mem settles)
  exact ⟨activity, second.reachable, second.state, isScope, settled⟩

end Failing

/-- A service that could not be made is asked for again. -/
theorem failed_service_fails_again : ∃ activity : Activity Client.obliging,
    activity.Reachable ∧ activity.moment.state = Failing.failed.state ∧
      (Provision.resolve Failing.scope ⟨0⟩ Failing.key).alone Behaviour.failing Failing.failed =
        some (.error Failing.failure, Failing.failed.numbering 2) := by
  obtain ⟨activity, reachable, state, isScope, settled⟩ := Failing.served
  have finds : Failing.scope.Finds Failing.key Failing.binding Failing.scope := by
    refine ⟨rfl, ?_, rfl⟩
    rintro ⟨_, impossible⟩
    cases impossible
  have usable : Failing.failed.state.contexts.error? ⟨0⟩ = none := rfl
  have inactive : Failing.key ∉ [] := List.not_mem_nil
  have plain : ∀ decorator ∈
      Failing.scope.registry.decoratorsOf Failing.binding.registered, ∀ needed,
        .service needed ∉ decorator.params := by
    intro decorator member needed asks
    obtain rfl := List.mem_singleton.mp member
    cases List.mem_singleton.mp asks
  have single : (Failing.scope.registry.decoratorsOf Failing.binding.registered).length = 1 := rfl
  obtain ⟨replays, _⟩ := failures_replay Behaviour.failing_detached reachable isScope finds rfl
    state usable rfl rfl Failing.scope.registry.bound inactive
  obtain ⟨again, _⟩ := (replays _ settled).2 plain
  rw [single] at again
  unfold Provision.resolve
  exact ⟨activity, reachable, state, again⟩

end Provision
