import Provision.Proofs.Resolution.NestingDepth
import Provision.Proofs.Resolution.CalmWorlds

/-!
# Following a request for a key

Alone, a request for a key looks up what the key is bound to, resolves what that needs, and makes
the value.  A `Terrain` says which worlds are good and how they may change on the way.  A `Trail`
also says which keys are asked for while which others are being resolved, what is known of the value
of a key, and which errors are met; for making a value it asks the proof itself.

In a calm world and with functions that succeed, a request can only fail because a key is met again.
A `Course` is a trail through calm worlds, and says what else has to hold along it.

Main statements: `Trail.resolve`, which follows the recursion of resolution once for all of them,
and `Course.resolve`.
-/

namespace Provision

open Request

variable {U : Client} {σ α β : Type}

/-- The arguments for parameters were resolved. -/
theorem Fits.known {known : Key → Prop} {params : List Param} {arguments : List (Argument U)}
    {needed : Key} (fits : List.Forall₂ (Fits fun needed _ => known needed) params arguments)
    (member : .service needed ∈ params) : known needed := by
  induction fits with
  | nil => cases member
  | cons fit _ ih =>
      rcases List.mem_cons.mp member with rfl | later
      · cases fit with
        | service holds => exact holds
      · exact ih later

/-! ## Terrains -/

/-- Which worlds are good, and how a good world may change.  What is kept in a cell stays there. -/
structure Terrain (U : Client) (σ : Type) where
  good : World U σ → Prop
  onward : World U σ → World U σ → Prop
  refl : ∀ {world}, good world → onward world world
  trans : ∀ {world middle last}, onward world middle → onward middle last → onward world last
  reaches : ∀ {world last}, onward world last → good last
  alike : ∀ {world last}, good world → world.Alike last → onward world last
  retains : ∀ {world last scope cell outcome}, onward world last →
    world.state.cell? scope cell = some (.filled outcome) →
      last.state.cell? scope cell = some (.filled outcome)

namespace Terrain

/-- Alone, a request goes on in good worlds and returns, with a value of which something holds or
with an error that may be met. -/
def Goes (terrain : Terrain U σ) (behaviour : Behaviour U σ) (failed : Error → Prop)
    (request : Request U α) (world : World U σ) (post : α → World U σ → Prop) : Prop :=
  request.Returns behaviour world fun outcome last => terrain.onward world last ∧
    match outcome with
    | .ok value => post value last
    | .error error => failed error

variable {terrain : Terrain U σ} {behaviour : Behaviour U σ} {failed : Error → Prop}
  {world later : World U σ} {post : α → World U σ → Prop} {post' : β → World U σ → Prop}

theorem goes_pure {value : α} (good : terrain.good world) (holds : post value world) :
    terrain.Goes behaviour failed (pure value) world post :=
  returns_pure ⟨terrain.refl good, holds⟩

theorem goes_fail {error : Error} (good : terrain.good world) (met : failed error) :
    terrain.Goes behaviour failed (fail error : Request U α) world post :=
  returns_fail ⟨terrain.refl good, met⟩

theorem goes_ofExcept {outcome : Except Error α} (good : terrain.good world)
    (holds : match outcome with
      | .ok value => post value world
      | .error error => failed error) :
    terrain.Goes behaviour failed (Request.ofExcept outcome) world post :=
  returns_ofExcept ⟨terrain.refl good, holds⟩

/-- A request that succeeds and leaves the world as it is. -/
theorem goes_look {request : Request U α} {holds : α → Prop} (good : terrain.good world)
    (succeeds : request.Succeeds behaviour world fun value last => last = world ∧ holds value) :
    terrain.Goes behaviour failed request world fun value last => last = world ∧ holds value := by
  obtain ⟨value, _, runs, rfl, reached⟩ := succeeds
  exact ⟨.ok value, _, runs, terrain.refl good, rfl, reached⟩

/-- A request that succeeds in a world that is alike. -/
theorem goes_alike {request : Request U α} (good : terrain.good world)
    (succeeds : request.Succeeds behaviour world fun value last =>
      world.Alike last ∧ post value last) :
    terrain.Goes behaviour failed request world post := by
  obtain ⟨value, last, runs, alike, reached⟩ := succeeds
  exact ⟨.ok value, last, runs, terrain.alike good alike, reached⟩

/-- A weaker statement.  It may use how the world changed. -/
theorem Goes.mono {request : Request U α} {weaker : α → World U σ → Prop} {met : Error → Prop}
    (goes : terrain.Goes behaviour failed request world post)
    (implies : ∀ value last, terrain.onward world last → post value last → weaker value last)
    (meets : ∀ error, failed error → met error) :
    terrain.Goes behaviour met request world weaker := by
  apply Returns.mono goes
  rintro (error | value) last ⟨onward, reached⟩
  · exact ⟨onward, meets error reached⟩
  · exact ⟨onward, implies value last onward reached⟩

/-- A request that is made some steps later. -/
theorem Goes.congr {request other : Request U α}
    (goes : terrain.Goes behaviour failed request later post) (onward : terrain.onward world later)
    (same : other.alone behaviour world = request.alone behaviour later) :
    terrain.Goes behaviour failed other world post := by
  obtain ⟨outcome, last, runs, further, reached⟩ := goes
  exact ⟨outcome, last, same.trans runs, terrain.trans onward further, reached⟩

/-- One request after another. -/
theorem Goes.bind {request : Request U α} {next : α → Request U β}
    (first : terrain.Goes behaviour failed request world post)
    (rest : ∀ value middle, terrain.onward world middle → post value middle →
      terrain.Goes behaviour failed (next value) middle post') :
    terrain.Goes behaviour failed (request >>= next) world post' := by
  apply returns_bind first
  · exact fun error last reached => reached
  · intro value middle reached
    apply Returns.mono (rest value middle reached.1 reached.2)
    exact fun _ _ ends => ⟨terrain.trans reached.1 ends.1, ends.2⟩

/-- A flag is numbered, and then another request is made. -/
theorem goes_newFlag {next : FlagId → Request U β} (good : terrain.good world)
    (rest : ∀ flag, terrain.good (world.numbering 1) →
      terrain.Goes behaviour failed (next flag) (world.numbering 1) post') :
    terrain.Goes behaviour failed (act .newFlag >>= next) world post' := by
  have onward := terrain.alike good (world.alike_numbering 1)
  exact (rest _ (terrain.reaches onward)).congr onward (alone_bind_act rfl)

/-! ## Inputs -/

section Inputs

variable {resolver : Resolver U} {home : Scope U} {context : ContextId} {active : List Key}
  {key : Key} {binding : Binding U} {yields : Key → Value U → Prop}

/-- A resolver goes well for a key that a service needs, if the errors that are met may be met once
the key is named in them. -/
def Supplies (terrain : Terrain U σ) (behaviour : Behaviour U σ) (failed : Error → Prop)
    (resolver : Resolver U) (home : Scope U) (context : ContextId) (active : List Key)
    (yields : Key → Value U → Prop) (service needed : Key) : Prop :=
  ∀ world : World U σ, terrain.good world →
    terrain.Goes behaviour (fun error => failed (.dependency service needed error))
      (resolver home context needed active) world fun value _ => yields needed value

theorem goes_argument (good : terrain.good world) (service : Key) (flag : FlagId) (param : Param)
    (supplies : ∀ needed, param = .service needed →
      terrain.Supplies behaviour failed resolver home context active yields service needed) :
    terrain.Goes behaviour failed
      (wrapDependency service param (resolver.argument home context active flag param)) world
      fun argument _ => Fits yields param argument := by
  cases param with
  | context => exact goes_pure good (.context context)
  | scope => exact goes_pure good (.scope _)
  | service needed =>
      have resolves : terrain.Goes behaviour
          (fun error => failed (.dependency service needed error))
          (resolver.argument home context active flag (.service needed)) world
          fun argument _ => Fits yields (.service needed) argument :=
        (supplies needed rfl world good).bind fun value middle onward holds =>
          goes_pure (terrain.reaches onward) (.service holds)
      apply returns_tryCatch resolves
      · exact fun argument last reached => reached
      · exact fun error last reached => returns_fail reached

/-- The parameters of a constructor or a decorator, one after another. -/
theorem goes_arguments (good : terrain.good world) (service : Key) (flag : FlagId)
    {params : List Param}
    (supplies : ∀ needed, .service needed ∈ params →
      terrain.Supplies behaviour failed resolver home context active yields service needed) :
    terrain.Goes behaviour failed (resolver.arguments home context service active flag params) world
      fun arguments _ => List.Forall₂ (Fits yields) params arguments := by
  induction params generalizing world with
  | nil => exact goes_pure good .nil
  | cons param params ih =>
      have first := goes_argument good service flag param fun needed same =>
        supplies needed (same ▸ List.mem_cons_self)
      apply first.bind
      intro argument middle onward fit
      apply (ih (terrain.reaches onward) fun needed member =>
        supplies needed (List.mem_cons_of_mem _ member)).bind
      intro arguments last onward fits
      exact goes_pure (terrain.reaches onward) (.cons fit fits)

/-- The decorators of a service, one after another. -/
theorem goes_stages (good : terrain.good world) (service : Key) {decorators : List (Decorator U)}
    (supplies : ∀ decorator ∈ decorators, ∀ needed, .service needed ∈ decorator.params →
      terrain.Supplies behaviour failed resolver home context active yields service needed) :
    terrain.Goes behaviour failed (resolver.stages home context service active decorators) world
      fun stages _ => stages.map Stage.decorator = decorators ∧ ∀ stage ∈ stages,
        List.Forall₂ (Fits yields) stage.decorator.params stage.arguments := by
  induction decorators generalizing world with
  | nil => exact goes_pure good ⟨rfl, fun _ member => absurd member List.not_mem_nil⟩
  | cons decorator decorators ih =>
      apply goes_newFlag good
      intro flag good
      apply (goes_arguments good service flag (supplies decorator List.mem_cons_self)).bind
      intro arguments middle onward fits
      apply (ih (terrain.reaches onward) fun other member =>
        supplies other (List.mem_cons_of_mem _ member)).bind
      intro stages last onward staged
      apply goes_pure (terrain.reaches onward)
      refine ⟨congrArg _ staged.1, fun stage member => ?_⟩
      rcases List.mem_cons.mp member with rfl | below
      · exact fits
      · exact staged.2 stage below

/-- What a binding needs is resolved, but for the arguments of an instance that is kept. -/
theorem goes_inputs (good : terrain.good world)
    (supplies : ∀ needed, binding.Needs home needed →
      terrain.Supplies behaviour failed resolver home context active yields key needed) :
    terrain.Goes behaviour failed (resolver.inputs home context key binding active) world
      fun inputs last => inputs.Suit yields binding home
        (∃ outcome, last.state.cell? home.id (.made binding.recipe.id) =
          some (.filled outcome)) := by
  apply goes_newFlag good
  intro flag good
  apply (goes_look good (succeeds_isMade binding.recipe home.id)).bind
  rintro made _ onward ⟨rfl, found⟩
  have staged : ∀ (arguments : List (Argument U)) (middle : World U σ), terrain.good middle →
      (binding.recipe.lifetime.isKept = true ∧ (∃ outcome,
          middle.state.cell? home.id (.made binding.recipe.id) = some (.filled outcome)) ∨
        List.Forall₂ (Fits yields) binding.recipe.params arguments) →
      terrain.Goes behaviour failed (do
        let stages ← resolver.stages home context key active
          (home.registry.decoratorsOf binding.registered)
        pure { arguments, flag, stages } : Request U (Inputs U)) middle fun inputs last =>
          inputs.Suit yields binding home
            (∃ outcome, last.state.cell? home.id (.made binding.recipe.id) =
              some (.filled outcome)) := by
    intro arguments middle good argued
    apply (goes_stages good key fun decorator member needed needs =>
      supplies needed (.inr ⟨decorator, member, needs⟩)).bind
    rintro stages last onward ⟨same, fits⟩
    apply goes_pure (terrain.reaches onward)
    refine ⟨argued.imp (fun recalled => ?_) fun fits => fits, same, fits⟩
    obtain ⟨kept, outcome, filled⟩ := recalled
    exact ⟨kept, outcome, terrain.retains onward filled⟩
  cases made with
  | true => exact staged [] _ good (.inl (found rfl))
  | false =>
      apply (goes_arguments good key flag fun needed member => supplies needed (.inl member)).bind
      exact fun arguments middle onward fits =>
        staged arguments middle (terrain.reaches onward) (.inr fits)

end Inputs

end Terrain

/-! ## Routes -/

/-- A key of a scope is bound, to a fixed value or to something that has a home. -/
def Scope.Offers (scope : Scope U) (key : Key) : Prop :=
  ∃ binding, scope.registry.find? key = some binding ∧
    (binding.IsValue ∨ ∃ home, scope.Finds key binding home)

/-- What holds along a request for a key of a scope that runs alone: the terrain, which keys are
asked for while which others are being resolved, what is known of a value that was resolved, and
which errors are met. -/
structure Trail (behaviour : Behaviour U σ) (base : Scope U) (context : ContextId)
    extends Terrain U σ where
  among : Scope U → Key → List Key → Prop
  yields : Scope U → Key → Value U → Prop
  failed : Scope U → Key → List Key → Error → Prop
  usable : ∀ {world}, good world → world.state.contexts.error? context = none
  opened : ∀ {world} {above : Scope U}, good world → above.Above base →
    (world.state.scope above.id).closed = false
  above : ∀ {lower key active}, among lower key active → lower.Above base
  needs : ∀ {lower key active binding home needed}, among lower key active →
    lower.Finds key binding home → key ∉ active → binding.Needs home needed →
      among home needed (active ++ [key])
  missing : ∀ {lower key active error}, among lower key active → ¬ lower.Offers key →
    error.Direct → failed lower key active error
  cycle : ∀ {lower key active}, among lower key active → key ∈ active →
    failed lower key active (.cycle (cycleChain active key))
  dependency : ∀ {lower key active binding home needed error}, among lower key active →
    lower.Finds key binding home → binding.Needs home needed →
      failed home needed (active ++ [key]) error →
        failed lower key active (.dependency key needed error)
  fixed : ∀ {world lower key active binding} (resolver : Resolver U), among lower key active →
    lower.registry.find? key = some binding → binding.IsValue → good world →
      toTerrain.Goes behaviour (failed lower key active)
        (resolver.resolve lower context key active) world fun value _ => yields lower key value
  recalled : ∀ {world lower key active binding home outcome}, among lower key active →
    lower.Finds key binding home → binding.recipe.lifetime.isKept = true → good world →
      world.state.cell? home.id (.shown binding.recipe.id binding.registered) =
        some (.filled outcome) →
          match outcome with
          | .ok value => yields lower key value
          | .error error => failed lower key active error
  produced : ∀ {world lower key active binding home inputs}, among lower key active →
    lower.Finds key binding home →
      inputs.Suit (yields home) binding home
        (∃ outcome, world.state.cell? home.id (.made binding.recipe.id) =
          some (.filled outcome)) → good world →
        toTerrain.Goes behaviour (failed lower key active)
          (produceFrom home context key binding inputs) world fun value _ => yields lower key value

/-- A key that is not offered is told of by its own error. -/
theorem alone_resolve_missing {behaviour : Behaviour U σ} {world : World U σ} {scope : Scope U}
    {key : Key} (missing : ¬ scope.Offers key) (resolver : Resolver U) {context : ContextId}
    (active : List Key) (usable : world.state.contexts.error? context = none)
    (opened : (world.state.scope scope.id).closed = false) :
    ∃ error : Error, error.Direct ∧ (resolver.resolve scope context key active).alone behaviour
      world = some (.error error, world) := by
  rw [Resolver.resolve, alone_bind_ok (alone_ensureUsable usable),
    alone_bind_ok (alone_ensureOpen opened)]
  cases bound : scope.registry.find? key with
  | none => exact ⟨.notRegistered key, trivial, rfl⟩
  | some binding =>
      have homeless (made : ¬ binding.IsValue) : ∃ error : Error, error.Direct ∧
          effectiveScope scope key binding = Request.fail error := by
        have none : ∀ home, binding.home? scope ≠ some home := fun home isHome =>
          missing ⟨binding, bound, .inr ⟨home, bound, made, isHome⟩⟩
        unfold Binding.home? at none
        unfold effectiveScope
        cases lifetime : binding.recipe.lifetime with
        | singleton =>
            simp only [lifetime] at none ⊢
            rw [Option.eq_none_iff_forall_ne_some.mpr none]
            exact ⟨.notRegistered key, trivial, rfl⟩
        | perScope =>
            simp only [lifetime] at none ⊢
            by_cases owns : scope.id = binding.owner
            · exact ⟨.scopedFromOwner key, trivial, if_pos owns⟩
            · exact absurd (if_neg owns) (none scope)
        | transient => exact absurd (by rw [lifetime]) (none scope)
      have unfixed : ¬ binding.IsValue := fun isValue => missing ⟨binding, bound, .inl isValue⟩
      obtain ⟨error, direct, fails⟩ := homeless unfixed
      refine ⟨error, direct, ?_⟩
      cases source : binding.recipe.source with
      | value content => exact absurd ⟨content, source⟩ unfixed
      | factory make =>
          simp only [source, fails]
          rfl
      | list item =>
          simp only [source, fails]
          rfl

namespace Trail

variable {behaviour : Behaviour U σ} {base : Scope U} {context : ContextId}
  {trail : Trail behaviour base context} {fails : U.Constructor → Prop} {world : World U σ}
  {resolver : Resolver U} {lower home : Scope U} {active : List Key} {key : Key}
  {binding : Binding U}

/-- A resolver goes well for a key of a scope while other keys are being resolved. -/
def Serves (trail : Trail behaviour base context) (resolver : Resolver U) (scope : Scope U)
    (active : List Key) (key : Key) : Prop :=
  ∀ world : World U σ, trail.good world →
    trail.Goes behaviour (trail.failed scope key active) (resolver scope context key active) world
      fun value _ => trail.yields scope key value

/-- A key that is bound to something that has to be made, in the home of its value. -/
theorem goes_resolveIn (grants : behaviour.GrantsBut fails) (good : trail.good world)
    (among : trail.among lower key active) (finds : lower.Finds key binding home)
    (serves : key ∉ active → ∀ needed, binding.Needs home needed →
      trail.Serves resolver home (active ++ [key]) needed) :
    trail.Goes behaviour (trail.failed lower key active)
      (resolver.resolveIn home context key binding active) world fun value _ =>
        trail.yields lower key value := by
  apply (Terrain.goes_look good (succeeds_recallShown binding home.id)).bind
  rintro shown _ onward ⟨rfl, found⟩
  cases shown with
  | some outcome =>
      obtain ⟨kept, filled⟩ := found outcome rfl
      obtain ⟨_, last, reports, alike⟩ := succeeds_report grants (.resolvedFromCache key home.id)
      have holds := trail.recalled among finds kept good filled
      have further := trail.alike good alike
      refine Terrain.Goes.congr ?_ further (alone_bind_ok reports)
      apply Terrain.goes_ofExcept (trail.reaches further)
      cases outcome <;> exact holds
  | none =>
      by_cases isActive : key ∈ active
      · simp only [isActive, if_true]
        exact Terrain.goes_fail good (trail.cycle among isActive)
      · simp only [isActive, if_false, Resolver.create_eq]
        have supplies : ∀ needed, binding.Needs home needed →
            trail.Supplies behaviour (trail.failed lower key active) resolver home context
              (active ++ [key]) (trail.yields home) key needed := by
          intro needed needs world good
          exact (serves isActive needed needs world good).mono (fun _ _ _ holds => holds)
            fun _ met => trail.dependency among finds needs met
        apply (Terrain.goes_inputs good supplies).bind
        intro inputs middle onward suit
        exact trail.produced among finds suit (trail.reaches onward)

/-- Requests go well for everything along the trail as long as there is depth left. -/
theorem serves (built : base.Built) (grants : behaviour.GrantsBut fails) {depth : Nat}
    (among : trail.among lower key active) (left : base.DepthLeft depth active) :
    trail.Serves (resolveWithin depth) lower active key := by
  induction depth generalizing lower key active with
  | zero => exact absurd rfl left.ne_zero
  | succ depth ih =>
      intro world good
      have isAbove := trail.above among
      have usable := trail.usable good
      have opened := trail.opened good isAbove
      by_cases offers : lower.Offers key
      · obtain ⟨binding, bound, isValue | ⟨home, finds⟩⟩ := offers
        · exact trail.fixed _ among bound isValue good
        · have resolves : trail.Goes behaviour (trail.failed lower key active)
              ((resolveWithin depth).resolveIn home context key binding active) world
                fun value _ => trail.yields lower key value := by
            apply goes_resolveIn grants good among finds
            intro inactive needed needs
            apply ih (trail.needs among finds inactive needs)
            exact left.push inactive (built.contains_of_find isAbove bound)
          exact Request.Returns.congr resolves (finds.alone_resolve _ active usable opened
            (trail.opened good (finds.leads.above.trans isAbove)))
      · obtain ⟨error, direct, runs⟩ := alone_resolve_missing offers (resolveWithin depth) active
          usable opened
        exact ⟨.error error, world, runs, trail.refl good, trail.missing among offers direct⟩

/-- A request for a key goes along the trail on which it is made. -/
theorem resolve (built : base.Built) (grants : behaviour.GrantsBut fails)
    (among : trail.among base key []) (good : trail.good world) :
    trail.Goes behaviour (trail.failed base key []) (Provision.resolve base context key) world
      fun value _ => trail.yields base key value :=
  serves built grants among base.depthLeft_nil world good

end Trail

/-! ## Courses through calm worlds -/

/-- What holds along a request for a key of a scope that runs alone in a calm world: what else of
the world, which keys are asked for while which others are being resolved, what is known of a key
that was resolved, and which errors may be met. -/
structure Course (behaviour : Behaviour U σ) (base : Scope U) (context : ContextId) where
  holds : World U σ → Prop
  among : Scope U → Key → List Key → Prop
  known : Scope U → Key → Prop
  failed : Error → Prop
  alike : ∀ {world last}, holds world → world.Alike last → holds last
  wraps : ∀ {service needed error}, failed error → failed (.dependency service needed error)
  above : ∀ {lower key active}, among lower key active → lower.Above base
  supplied : ∀ {lower key active}, among lower key active →
    ∃ binding, lower.registry.find? key = some binding ∧
      (binding.IsValue ∨ ∃ home, lower.Finds key binding home)
  cycle : ∀ {lower key active}, among lower key active → key ∈ active →
    failed (.cycle (cycleChain active key))
  needs : ∀ {lower key active binding home needed}, among lower key active →
    lower.Finds key binding home → key ∉ active → binding.Needs home needed →
      among home needed (active ++ [key])
  value : ∀ {lower key active binding}, among lower key active →
    lower.registry.find? key = some binding → binding.IsValue → known lower key
  recalled : ∀ {world lower key active binding home outcome}, among lower key active →
    lower.Finds key binding home → binding.recipe.lifetime.isKept = true → holds world →
      world.state.cell? home.id (.shown binding.recipe.id binding.registered) =
        some (.filled outcome) → known lower key
  produced : ∀ {world last lower key active binding home inputs value}, among lower key active →
    lower.Finds key binding home →
      inputs.Suit (fun needed _ => known home needed) binding home
        (∃ outcome, world.state.cell? home.id (.made binding.recipe.id) =
          some (.filled outcome)) → holds world →
        (produceFrom home context key binding inputs).alone behaviour world =
          some (.ok value, last) → holds last ∧ known lower key

namespace Course

variable {behaviour : Behaviour U σ} {base : Scope U} {context : ContextId}
  (course : Course behaviour base context)

/-- A calm world, along the course. -/
structure Good (world : World U σ) : Prop where
  calm : world.Calm base context
  holds : course.holds world

/-- Alone, a request returns: with a value, in a good world in which all that was kept still is, or
with an error that may be met. -/
def Goes (request : Request U α) (world : World U σ) (post : α → World U σ → Prop) : Prop :=
  request.Returns behaviour world fun outcome last =>
    match outcome with
    | .ok value => world.Onward base context last ∧ course.holds last ∧ post value last
    | .error error => course.failed error

/-- What a value for a key of a scope satisfies. -/
abbrev Yields (scope : Scope U) (key : Key) (value : Value U) : Prop :=
  value.type = key.type ∧ course.known scope key

/-- The good worlds of a course. -/
def terrain : Terrain U σ where
  good := course.Good
  onward := fun world last => world.Onward base context last ∧ course.holds last
  refl := fun good => ⟨good.calm.onward, good.holds⟩
  trans := fun first second => ⟨first.1.trans second.1, second.2⟩
  reaches := fun onward => ⟨onward.1.calm, onward.2⟩
  alike := fun good alike => ⟨good.calm.alike alike, course.alike good.holds alike⟩
  retains := fun onward filled => onward.1.retains filled

/-- A course is a trail: what is asked for is there, and making it succeeds. -/
def trail (built : base.Built) (grants : behaviour.Grants) : Trail behaviour base context where
  toTerrain := course.terrain
  among := course.among
  yields := course.Yields
  failed := fun _ _ _ => course.failed
  usable := fun good => good.calm.usable
  opened := fun good isAbove => good.calm.open_of_above isAbove
  above := course.above
  needs := course.needs
  missing := fun among missing _ => absurd (course.supplied among) missing
  cycle := course.cycle
  dependency := fun _ _ _ failed => course.wraps failed
  fixed := by
    intro world lower key active binding resolver among bound isValue good
    have isAbove := course.above among
    apply Terrain.goes_alike good
    apply (succeeds_resolve_value built grants.but isAbove bound isValue good.calm.usable
      (good.calm.open_of_above isAbove)).mono
    exact fun _ _ reached => ⟨reached.1, reached.2, course.value among bound isValue⟩
  recalled := by
    intro world lower key active binding home outcome among finds kept good filled
    have isAbove := finds.leads.above.trans (course.above among)
    have bound := (finds.leads.atHome (built.above (course.above among))).bound
    rcases good.calm.cells isAbove (.shown binding.recipe.id binding.registered) with
      empty | ⟨value, holdsValue, typed⟩
    · rw [empty] at filled
      cases filled
    · obtain rfl : outcome = .ok value := by
        rw [holdsValue] at filled
        cases filled
        rfl
      exact ⟨Eq.trans typed ((built.above isAbove).sound.proper bound).type,
        course.recalled among finds kept good.holds filled⟩
  produced := by
    intro world lower key active binding home inputs among finds suit good
    have isAbove := finds.leads.above.trans (course.above among)
    have bound := (finds.leads.atHome (built.above (course.above among))).bound
    obtain ⟨value, last, runs, typed, onward⟩ := succeeds_produceFrom built grants isAbove bound
      (suit.mono (fun _ _ yields => yields.1) fun recalled => recalled) (fun recalled => recalled)
      good.calm
    obtain ⟨holds, known⟩ := course.produced among finds
      (suit.mono (fun _ _ yields => yields.2) fun recalled => recalled) good.holds runs
    exact ⟨.ok value, last, runs, ⟨onward, holds⟩, typed, known⟩

variable {course} {world : World U σ}

/-- A request for a key goes along the course from which it is made. -/
theorem resolve (built : base.Built) (grants : behaviour.Grants) {wanted : Key}
    (among : course.among base wanted []) (good : course.Good world) :
    course.Goes (Provision.resolve base context wanted) world fun value _ =>
      course.Yields base wanted value := by
  have trail : (course.trail built grants).Goes behaviour course.failed
      (Provision.resolve base context wanted) world fun value _ =>
        course.Yields base wanted value :=
    Trail.resolve built grants.but among good
  apply Request.Returns.mono trail
  rintro (error | value) last ⟨onward, reached⟩
  · exact reached
  · exact ⟨onward.1, onward.2, reached⟩

end Course

end Provision
