import Provision.Proofs.Resolution.KeyTrails
import Provision.Proofs.Resolution.DependencyGraph
import Provision.Proofs.Types.MirroredRequests

/-!
# Requests that are decided

In a scope whose ancestors see the same as it does, and with constructors of which each either
always succeeds or always fails, the registrations alone decide which requests succeed, whatever
was requested before: what is kept in a cell, be it a value or an error, tells no more than whether
its service works.  A key works if it is bound to a fixed value, or if it has a home, its
constructor is none that fails, and everything that it needs there works.

Main statements: `Scope.Works.not_self`, that a key that works does not need itself, and
`Scene.resolve`, that a request for a key returns a value if the key works, and otherwise an error.
-/

namespace Provision

open Request Relation

variable {U : Client}

/-! ## Keys that work -/

section Working

variable {fails : U.Constructor → Prop}

/-- A recipe is not made by a constructor that fails. -/
def Recipe.Sound (fails : U.Constructor → Prop) (recipe : Recipe U) : Prop :=
  ∀ make, recipe.source = .factory make → ¬ fails make

/-- A key of a scope is bound, and so is all that has to be resolved for it, nothing of which is
made by a constructor that fails. -/
inductive Scope.Works (fails : U.Constructor → Prop) : Scope U → Key → Prop where
  | fixed {scope : Scope U} {key : Key} {binding : Binding U} :
      scope.registry.find? key = some binding → binding.IsValue → Works fails scope key
  | made {scope home : Scope U} {key : Key} {binding : Binding U} :
      scope.Finds key binding home → binding.recipe.Sound fails →
        (∀ needed, binding.Needs home needed → Works fails home needed) → Works fails scope key

/-- All services that are asked for by parameters work. -/
def Scope.Meets (fails : U.Constructor → Prop) (scope : Scope U) (params : List Param) : Prop :=
  ∀ needed, .service needed ∈ params → scope.Works fails needed

/-- An instance of a recipe can be made in a scope. -/
structure Recipe.Makeable (fails : U.Constructor → Prop) (recipe : Recipe U) (home : Scope U) :
    Prop where
  sound : recipe.Sound fails
  meets : home.Meets fails recipe.params

/-- What is bound can be made and finished in a scope. -/
structure Binding.Able (fails : U.Constructor → Prop) (binding : Binding U) (home : Scope U) :
    Prop where
  makeable : binding.recipe.Makeable fails home
  decorated : ∀ decorator ∈ home.registry.decoratorsOf binding.registered,
    home.Meets fails decorator.params

section Works

variable {scope home base : Scope U} {key needed : Key} {binding : Binding U}

theorem Binding.able_iff : binding.Able fails home ↔
    binding.recipe.Sound fails ∧ ∀ needed, binding.Needs home needed → home.Works fails needed := by
  constructor
  · rintro ⟨⟨sound, meets⟩, decorated⟩
    refine ⟨sound, ?_⟩
    rintro needed (parameter | ⟨decorator, applies, decorates⟩)
    · exact meets needed parameter
    · exact decorated decorator applies needed decorates
  · rintro ⟨sound, needs⟩
    refine ⟨⟨sound, fun needed parameter => needs needed (.inl parameter)⟩, ?_⟩
    exact fun decorator applies needed decorates =>
      needs needed (.inr ⟨decorator, applies, decorates⟩)

theorem Scope.Works.offers (works : scope.Works fails key) : scope.Offers key := by
  cases works with
  | fixed bound isValue => exact ⟨_, bound, .inl isValue⟩
  | made finds _ _ => exact ⟨_, finds.bound, .inr ⟨_, finds⟩⟩

/-- A key that is bound to something that has to be made works if this can be made in its home. -/
theorem Scope.Finds.works_iff (finds : scope.Finds key binding home) :
    scope.Works fails key ↔ binding.Able fails home := by
  rw [Binding.able_iff]
  constructor
  · intro works
    cases works with
    | fixed bound isValue =>
        obtain rfl := Option.some.inj (bound.symm.trans finds.bound)
        exact absurd isValue finds.made
    | made finds' sound needs =>
        obtain rfl := Option.some.inj (finds'.bound.symm.trans finds.bound)
        obtain rfl := Option.some.inj (finds'.home.symm.trans finds.home)
        exact ⟨sound, needs⟩
  · exact fun able => .made finds able.1 able.2

/-! ## Keys that need each other -/

/-- Where all ways on end, none leads back. -/
theorem not_transGen_self {α : Type} {relation : α → α → Prop} {start : α}
    (ends : Acc (fun next before => relation before next) start) :
    ¬ TransGen relation start start := by
  induction ends with
  | intro start _ ih =>
      intro cycle
      obtain ⟨next, leads, back⟩ := TransGen.head'_iff.mp cycle
      exact ih next leads (.tail' back leads)

/-- All scopes from one to the root see the same bindings and decorators. -/
def Scope.Uniform (base : Scope U) : Prop :=
  ∀ above : Scope U, above.Above base → above.registry = base.registry

/-- What a key is bound to needs another key to be made. -/
def Scope.Relies (base : Scope U) (key needed : Key) : Prop :=
  ∃ binding, base.registry.find? key = some binding ∧ ¬ binding.IsValue ∧ binding.Needs base needed

variable (uniform : base.Uniform)

include uniform

theorem Scope.Uniform.relies (isAbove : scope.Above base) (finds : scope.Finds key binding home)
    (needs : binding.Needs home needed) : base.Relies key needed := by
  have same := uniform scope isAbove
  have same' := uniform home (finds.leads.above.trans isAbove)
  refine ⟨binding, same ▸ finds.bound, finds.made, ?_⟩
  unfold Binding.Needs at needs ⊢
  rwa [same'] at needs

/-- All ways on from a key that works end. -/
theorem Scope.Works.acc (works : scope.Works fails key) (isAbove : scope.Above base) :
    Acc (fun needed key => base.Relies key needed) key := by
  induction works with
  | @fixed scope key binding bound isValue =>
      constructor
      rintro needed ⟨other, bound', made, _⟩
      rw [← uniform scope isAbove, bound] at bound'
      obtain rfl := Option.some.inj bound'
      exact absurd isValue made
  | @made scope home key binding finds _ _ ih =>
      have isHome := finds.leads.above.trans isAbove
      constructor
      rintro needed ⟨other, bound, _, needs⟩
      rw [← uniform scope isAbove, finds.bound] at bound
      obtain rfl := Option.some.inj bound
      apply ih needed _ isHome
      unfold Binding.Needs at needs ⊢
      rwa [uniform home isHome]

/-- A key that works does not need itself. -/
theorem Scope.Works.not_self (works : scope.Works fails key) (isAbove : scope.Above base) :
    ¬ TransGen base.Relies key key :=
  not_transGen_self (works.acc uniform isAbove)

end Works

end Working

variable {σ α : Type} {behaviour : Behaviour U σ}

/-- Requests that run alone are returned something along with what can be said of their text. -/
theorem Request.Returns.along {request : Request U α} {world : World U σ}
    {post : Except Error α → World U σ → Prop} {yields : Except Error α → Prop}
    {fails : U.Constructor → Prop} (returns : request.Returns behaviour world post)
    (only : Request.Only Event.Making yields request) (grants : behaviour.GrantsBut fails) :
    request.Returns behaviour world fun outcome last =>
      post outcome last ∧ yields outcome ∧ world.Alike last := by
  obtain ⟨outcome, last, runs, holds⟩ := returns
  exact ⟨outcome, last, runs, holds, Program.Only.alike only grants runs⟩

/-! ## What outcomes tell -/

/-- A value of a type if something can be made, and an error if it cannot. -/
def Outcome.Tells (able : Prop) (type : ServiceType) : Outcome U → Prop
  | .ok value => able ∧ value.type = type
  | .error _ => ¬ able

/-- What is kept in a cell tells whether what it is for can be made in its scope. -/
structure Scope.Tells (fails : U.Constructor → Prop) (scope : Scope U) (cell : CacheKey)
    (outcome : Outcome U) : Prop where
  made : ∀ key binding, scope.registry.find? key = some binding →
    binding.recipe.lifetime.isKept = true → cell = .made binding.recipe.id →
      Outcome.Tells (binding.recipe.Makeable fails scope) binding.recipe.produces outcome
  shown : ∀ key binding, scope.registry.find? key = some binding →
    binding.recipe.lifetime.isKept = true →
      cell = .shown binding.recipe.id binding.registered →
        Outcome.Tells (binding.Able fails scope) binding.registered.type outcome

section Cells

variable {fails : U.Constructor → Prop} {home : Scope U} {key : Key} {binding : Binding U}
  {outcome : Outcome U} (built : home.Built) (bound : home.registry.find? key = some binding)
  (kept : binding.recipe.lifetime.isKept = true)

include built bound kept

/-- The cell of an instance is for all bindings of one recipe. -/
theorem Scope.Built.tells_made
    (tells : Outcome.Tells (binding.recipe.Makeable fails home) binding.recipe.produces outcome) :
    home.Tells fails (.made binding.recipe.id) outcome where
  made := by
    intro other found bound' _ same
    rw [← (built.sound.agree bound bound' (CacheKey.made.inj same) kept).1]
    exact tells
  shown := fun _ _ _ _ => nofun

/-- The cell of a value is for all bindings of one recipe that were registered for one key. -/
theorem Scope.Built.tells_shown
    (tells : Outcome.Tells (binding.Able fails home) binding.registered.type outcome) :
    home.Tells fails (.shown binding.recipe.id binding.registered) outcome where
  made := fun _ _ _ _ => nofun
  shown := by
    intro other found bound' _ same
    obtain ⟨sameId, sameKey⟩ := CacheKey.shown.inj same
    have sameRecipe := (built.sound.agree bound bound' sameId kept).1
    cases outcome with
    | ok value =>
        obtain ⟨⟨makeable, decorated⟩, typed⟩ := tells
        exact ⟨⟨sameRecipe ▸ makeable, sameKey ▸ decorated⟩, sameKey ▸ typed⟩
    | error error =>
        intro able
        exact tells ⟨sameRecipe ▸ able.makeable, sameKey ▸ able.decorated⟩

end Cells

/-! ## Making instances -/

section Making

variable {fails : U.Constructor → Prop} {world : World U σ} {scope : ScopeId} {context : ContextId}
  {recipe : Recipe U} {arguments : List (Argument U)}

/-- A constructor that fails is told of as soon as it has returned. -/
theorem returns_produce_failing (grants : behaviour.GrantsBut fails) {make : U.Constructor}
    (source : recipe.source = .factory make) (failing : fails make)
    (fits : List.Forall₂ (Fits Typed) recipe.params arguments) :
    (recipe.produce scope arguments).Returns behaviour world fun outcome _ =>
      ∃ error, outcome = .error error := by
  unfold Recipe.produce
  simp only [source]
  have takes : (takeAll recipe.params arguments).Succeeds behaviour world fun _ _ => True :=
    succeeds_takeAll grants fits
  obtain ⟨_, middle, taken, _⟩ := takes
  apply returns_bind_ok taken
  obtain ⟨answer, contexts, memory, answers, granted, _⟩ :=
    grants (.construct ⟨scope, recipe⟩ make arguments) middle
  apply returns_bind_call answers
  rcases granted with ⟨_, sound⟩ | ⟨⟨failure, rfl⟩, _⟩
  · exact absurd failing sound
  · exact returns_fail ⟨_, rfl⟩

/-- Making an instance tells whether its constructor is none that fails. -/
theorem returns_construct (grants : behaviour.GrantsBut fails) (flag : FlagId) (closeMade : Bool)
    (usable : world.state.contexts.error? context = none)
    (opened : (world.state.scope scope).closed = false)
    (fits : List.Forall₂ (Fits Typed) recipe.params arguments) :
    (construct scope context recipe arguments flag closeMade).Returns behaviour world
      fun outcome _ => Outcome.Tells (recipe.Sound fails) recipe.produces outcome := by
  by_cases sound : recipe.Sound fails
  · obtain ⟨value, last, runs, _⟩ :=
      succeeds_construct grants flag closeMade sound usable opened fits
    have makes := only_construct scope context recipe arguments flag closeMade
    have typed := (Program.Only.alike makes grants runs).1.type trivial value rfl
    exact ⟨.ok value, last, runs, sound, typed⟩
  · obtain ⟨make, source, failing⟩ : ∃ make, recipe.source = .factory make ∧ fails make := by
      unfold Recipe.Sound at sound
      simpa using sound
    unfold construct
    apply returns_bind_ok (alone_ensureUsable usable)
    have reporting : (Request.report (.constructing (.of recipe.produces) recipe.lifetime scope) :
        Request U Unit).Succeeds behaviour world fun _ last => world.Alike last :=
      succeeds_report grants _
    obtain ⟨_, reported, reports, _⟩ := reporting
    apply returns_bind_ok reports
    apply returns_bind_run (returns_produce_failing grants source failing fits)
    rintro _ last ⟨error, rfl⟩
    apply returns_bind_act rfl
    exact returns_fail sound

end Making

/-- The instance that is made is what the recipe comes to. -/
theorem only_construct_of {yields : Outcome U → Prop} (scope : ScopeId) (context : ContextId)
    (recipe : Recipe U) (arguments : List (Argument U)) (flag : FlagId) (closeMade : Bool)
    (only : Request.Only Event.Serving yields (recipe.produce scope arguments)) :
    Request.Only Event.Making (fun outcome => ∀ value, outcome = .ok value → yields (.ok value))
      (construct scope context recipe arguments flag closeMade) := by
  have usable : Request.Only (@Event.Making U) Creates (ensureUsable context) :=
    (only_ensureUsable context).mono (fun _ => Event.Idle.making) fun _ creates => creates
  refine Request.only_bind usable (fun _ _ => nofun) fun _ _ => ?_
  refine Request.only_bind_call trivial fun _ => ⟨trivial, ?_⟩
  refine Request.only_bind_lift (only.mono (fun _ => Event.Serving.making) fun _ made => made)
    fun outcome made => ?_
  refine Request.only_bind_act fun _ => ⟨trivial, ?_⟩
  refine Request.only_bind_ofExcept (fun _ _ => nofun) fun value succeeds => ?_
  have holds : ∀ other, (.ok value : Outcome U) = .ok other → yields (.ok other) := by
    rintro _ ⟨⟩
    exact succeeds ▸ made
  refine Request.only_bind usable (fun _ _ => nofun) fun _ _ => ?_
  cases closeMade with
  | false => exact holds
  | true =>
      refine Request.only_bind ((only_attachCloser scope context recipe value).mono
        (fun _ => Event.Attending.making) fun _ creates => creates) (fun _ _ => nofun) ?_
      exact fun _ _ => holds

/-- A list that is neither converted nor decorated is handed out as it was collected. -/
theorem content_of_list {fails : U.Constructor → Prop} (grants : behaviour.GrantsBut fails)
    {home : Scope U} {context : ContextId} {key wanted : Key} {binding : Binding U}
    {inputs : Inputs U} {world last : World U σ} {item : ServiceType} {value : Value U}
    (proper : binding.Proper wanted) (source : binding.recipe.source = .list item)
    (uncast : binding.cast = none) (unstaged : inputs.stages = [])
    (runs : (produceFrom home context key binding inputs).alone behaviour world =
      some (.ok value, last)) :
    value.content = .list (itemsOf item inputs.arguments) := by
  have isList : binding.recipe.isList = true := by rw [Recipe.isList, source]
  have unkept : binding.recipe.lifetime.isKept = false := by
    rw [(proper.list isList).1]
    rfl
  have plain : produceFrom home context key binding inputs = construct home.id context
      binding.recipe inputs.arguments inputs.flag binding.cast.isSome := by
    unfold produceFrom
    simp only [unkept, unstaged, keepIf, Bool.false_eq_true, if_false,
      finish_plain home.id context key _ uncast (proper.unclosed isList), bind_pure]
  have collects : Request.Only Event.Serving
      (fun outcome : Outcome U => ∀ value, outcome = .ok value →
        value.content = .list (itemsOf item inputs.arguments))
      (binding.recipe.produce home.id inputs.arguments) := by
    unfold Recipe.produce
    simp only [source]
    rintro _ ⟨⟩
    rfl
  rw [plain] at runs
  exact (Program.Only.alike (only_construct_of home.id context binding.recipe inputs.arguments
    inputs.flag binding.cast.isSome collects) grants runs).1 value rfl value rfl

/-! ## Scenes -/

/-- What a value for the key of a list holds, if it is neither converted nor decorated: as many
items as the list collects. -/
def Scope.Collects (scope : Scope U) (key : Key) (value : Value U) : Prop :=
  ∀ binding item, scope.registry.find? key = some binding → binding.recipe.source = .list item →
    binding.cast = none → scope.registry.decoratorsOf binding.registered = [] →
      ∃ items, value.content = .list items ∧ items.length = binding.recipe.params.length

/-- A scope in which requests are made with a context, one at a time: its ancestors see the same as
it does, and each constructor either always succeeds or always fails. -/
structure Scene (behaviour : Behaviour U σ) where
  base : Scope U
  context : ContextId
  fails : U.Constructor → Prop
  built : base.Built
  uniform : base.Uniform
  grants : behaviour.GrantsBut fails

namespace Scene

variable (scene : Scene behaviour)

/-- The scopes of the scene are open, and what they keep tells what can be made. -/
abbrev Good (world : World U σ) : Prop :=
  world.Stocked scene.base scene.context (Scope.Tells scene.fails)

/-- A value for a key of a scope: it has the type of the key, which works. -/
structure Yields (scope : Scope U) (key : Key) (value : Value U) : Prop where
  type : value.type = key.type
  works : scope.Works scene.fails key
  collects : scope.Collects key value

/-- The good worlds of a scene. -/
def terrain : Terrain U σ where
  good := scene.Good
  onward := fun world last => scene.Good last ∧ world.Retains last
  refl := fun good => ⟨good, id⟩
  trans := fun first second => ⟨second.1, fun kept => second.2 (first.2 kept)⟩
  reaches := And.left
  alike := fun good alike => ⟨good.alike alike, alike.retains⟩
  retains := fun onward => onward.2

variable {scene} {world : World U σ} {lower home : Scope U} {key : Key} {binding : Binding U}
  {inputs : Inputs U} {active : List Key}

theorem opened_of_above (good : scene.Good world) (isAbove : home.Above scene.base) :
    (world.state.scope home.id).closed = false :=
  good.opened _ isAbove.id_mem

/-- What is taken from a cell tells the same as what is made and put there. -/
theorem returns_keepIf {kept : Bool} {cell : CacheKey} {create : Request U (Value U)}
    {yields holds : Outcome U → Prop} (isAbove : home.Above scene.base) (good : scene.Good world)
    (only : Request.Only Event.Making yields create)
    (tells : kept = true → ∀ outcome, home.Tells scene.fails cell outcome ↔ holds outcome)
    (creates : (kept = true → world.state.cell? home.id cell = none) →
      ∀ entered : World U σ, entered.state.contexts.error? scene.context = none →
        (entered.state.scope home.id).closed = false →
          create.Returns behaviour entered fun outcome _ => holds outcome) :
    (keepIf kept home.id cell create).Returns behaviour world fun outcome last =>
      scene.terrain.onward world last ∧ holds outcome := by
  cases kept with
  | false =>
      apply ((creates nofun world good.usable (opened_of_above good isAbove)).along only
        scene.grants).mono
      exact fun outcome last reached => ⟨scene.terrain.alike good reached.2.2, reached.1⟩
  | true =>
      rcases good.cells isAbove cell with empty | ⟨outcome, filled, isTold⟩
      · have enters := creates (fun _ => empty) (world.fill home.id cell .filling) good.usable
          ((World.closed_fill ..).trans (opened_of_above good isAbove))
        apply returns_keep_empty empty
        apply (enters.along only scene.grants).mono
        rintro outcome last ⟨held, _, alike⟩
        exact ⟨good.fill scene.built.sound.distinct isAbove ((tells rfl outcome).mpr held) empty
          alike, held⟩
      · exact returns_keep_filled filled ⟨scene.terrain.refl good, (tells rfl outcome).mp isTold⟩

/-- The instance of a binding is there if and only if it can be made. -/
theorem returns_made (isAbove : home.Above scene.base)
    (bound : home.registry.find? key = some binding)
    (suit : inputs.Suit (scene.Yields home) binding home
      (∃ outcome, world.state.cell? home.id (.made binding.recipe.id) = some (.filled outcome)))
    (good : scene.Good world) :
    (keepIf binding.recipe.lifetime.isKept home.id (.made binding.recipe.id)
      (construct home.id scene.context binding.recipe inputs.arguments inputs.flag
        binding.cast.isSome)).Returns behaviour world fun outcome last =>
          scene.terrain.onward world last ∧
            Outcome.Tells (binding.recipe.Makeable scene.fails home) binding.recipe.produces
              outcome := by
  have built := scene.built.above isAbove
  have makes := only_construct home.id scene.context binding.recipe inputs.arguments inputs.flag
    binding.cast.isSome
  apply returns_keepIf isAbove good makes
  · exact fun kept outcome => ⟨fun tells => tells.made key binding bound kept rfl,
      built.tells_made bound kept⟩
  · intro unmade entered usable opened
    have fits : List.Forall₂ (Fits (scene.Yields home)) binding.recipe.params inputs.arguments := by
      rcases suit.arguments with ⟨kept, outcome, filled⟩ | fits
      · rw [unmade kept] at filled
        cases filled
      · exact fits
    have meets : home.Meets scene.fails binding.recipe.params := fun _ member =>
      Fits.known (fits.imp fun _ _ fit => fit.mono fun _ _ yields => yields.works) member
    apply (returns_construct scene.grants inputs.flag binding.cast.isSome usable opened
      (fits.imp fun _ _ fit => fit.mono fun _ _ yields => yields.type)).mono
    rintro (error | value) last tells
    · exact fun makeable => tells makeable.sound
    · exact ⟨⟨tells.1, meets⟩, tells.2⟩

/-- An instance that was made is finished. -/
theorem returns_shown (isAbove : home.Above scene.base)
    (bound : home.registry.find? key = some binding) {recalled : Prop}
    (suit : inputs.Suit (scene.Yields home) binding home recalled) (good : scene.Good world)
    {made : Value U} (makeable : binding.recipe.Makeable scene.fails home)
    (typed : made.type = binding.recipe.produces) :
    (keepIf binding.recipe.lifetime.isKept home.id
      (.shown binding.recipe.id binding.registered)
      (finish home.id scene.context key binding inputs.stages made)).Returns behaviour world
        fun outcome last => scene.terrain.onward world last ∧
          Outcome.Tells (binding.Able scene.fails home) binding.registered.type outcome := by
  have built := scene.built.above isAbove
  have proper := built.sound.proper bound
  have targets : ∀ stage ∈ inputs.stages, stage.decorator.target.type = binding.registered.type :=
    fun stage member => congrArg Key.type (suit.targets stage member)
  have decorated : ∀ decorator ∈ home.registry.decoratorsOf binding.registered,
      home.Meets scene.fails decorator.params := by
    rw [← suit.decorators]
    intro decorator member needed needs
    obtain ⟨stage, applies, rfl⟩ := List.mem_map.mp member
    exact Fits.known ((suit.stages stage applies).imp fun _ _ fit =>
      fit.mono fun _ _ yields => yields.works) needs
  have finishes := only_finish home.id scene.context key binding inputs.stages made
  apply returns_keepIf isAbove good finishes
  · exact fun kept outcome => ⟨fun tells => tells.shown key binding bound kept rfl,
      built.tells_shown bound kept⟩
  · intro _ entered _ opened
    have succeeds : (finish home.id scene.context key binding inputs.stages made).Succeeds behaviour
        entered fun _ _ => True :=
      succeeds_finish scene.grants key opened typed proper.produces targets fun stage member =>
        (suit.stages stage member).imp fun _ _ fit => fit.mono fun _ _ yields => yields.type
    obtain ⟨value, last, runs, _⟩ := succeeds
    have shows := (Program.Only.alike finishes scene.grants runs).1.type
      ⟨targets, fun uncast => typed.trans (proper.produces uncast)⟩ value rfl
    exact ⟨.ok value, last, runs, ⟨makeable, decorated⟩, shows⟩

/-- What was made and finished is what a list collects, if it is for a list. -/
theorem collects_of_produced (isAbove : lower.Above scene.base)
    (finds : lower.Finds key binding home) {recalled : Prop}
    (suit : inputs.Suit (scene.Yields home) binding home recalled) {value : Value U}
    {last : World U σ}
    (runs : (produceFrom home scene.context key binding inputs).alone behaviour world =
      some (.ok value, last)) : lower.Collects key value := by
  intro other item bound source uncast undecorated
  obtain rfl := Option.some.inj (bound.symm.trans finds.bound)
  have built := scene.built.above isAbove
  have proper := built.sound.proper bound
  have lifetime := (proper.list (by rw [Recipe.isList, source])).1
  have isHome := finds.home
  simp only [Binding.home?, lifetime, Option.some.injEq] at isHome
  subst isHome
  have unstaged : inputs.stages = [] := by
    rw [← List.map_eq_nil_iff, suit.decorators, undecorated]
  have fits : List.Forall₂ (Fits (scene.Yields lower)) other.recipe.params inputs.arguments := by
    rcases suit.arguments with ⟨kept, _⟩ | fits
    · rw [lifetime] at kept
      cases kept
    · exact fits
  refine ⟨_, content_of_list scene.grants proper source uncast unstaged runs, ?_⟩
  exact length_itemsOf (fits.imp fun _ _ fit => fit.mono fun _ _ yields => yields.type)
    (built.listed _ _ item bound source).2

/-- What is made and finished in the home of its value tells whether the key works. -/
theorem goes_produced (isAbove : lower.Above scene.base) (finds : lower.Finds key binding home)
    (suit : inputs.Suit (scene.Yields home) binding home
      (∃ outcome, world.state.cell? home.id (.made binding.recipe.id) = some (.filled outcome)))
    (good : scene.Good world) :
    scene.terrain.Goes behaviour (fun _ => ¬ lower.Works scene.fails key)
      (produceFrom home scene.context key binding inputs) world fun value _ =>
        scene.Yields lower key value := by
  have isHome := finds.leads.above.trans isAbove
  have bound := (finds.leads.atHome (scene.built.above isAbove)).bound
  have proper := (scene.built.above isHome).sound.proper bound
  have works : lower.Works scene.fails key ↔ binding.Able scene.fails home := finds.works_iff
  have produces : scene.terrain.Goes behaviour (fun _ => ¬ lower.Works scene.fails key)
      (produceFrom home scene.context key binding inputs) world fun value _ =>
        value.type = key.type ∧ lower.Works scene.fails key := by
    have makes : scene.terrain.Goes behaviour (fun _ => ¬ lower.Works scene.fails key)
        (keepIf binding.recipe.lifetime.isKept home.id (.made binding.recipe.id)
          (construct home.id scene.context binding.recipe inputs.arguments inputs.flag
            binding.cast.isSome)) world fun made _ =>
              binding.recipe.Makeable scene.fails home ∧ made.type = binding.recipe.produces := by
      apply (returns_made isHome bound suit good).mono
      rintro (error | made) last ⟨onward, tells⟩
      · exact ⟨onward, fun able => tells (works.mp able).makeable⟩
      · exact ⟨onward, tells⟩
    apply makes.bind
    intro made middle onward reached
    apply (returns_shown isHome bound suit onward.1 reached.1 reached.2).mono
    rintro (error | value) last ⟨onward, tells⟩
    · exact ⟨onward, fun able => tells (works.mp able)⟩
    · exact ⟨onward, tells.2.trans proper.type, works.mpr tells.1⟩
  obtain ⟨outcome, last, runs, onward, reached⟩ := produces
  refine ⟨outcome, last, runs, onward, ?_⟩
  cases outcome with
  | ok value =>
      exact ⟨reached.1, reached.2, collects_of_produced isAbove finds suit runs⟩
  | error error => exact reached

/-- Requests for keys in a scene are decided by the registrations.  Each key that is being resolved
needs those that are asked for meanwhile. -/
def trail (scene : Scene behaviour) : Trail behaviour scene.base scene.context where
  toTerrain := scene.terrain
  among := fun lower key active =>
    lower.Above scene.base ∧ ∀ other ∈ active, TransGen scene.base.Relies other key
  yields := scene.Yields
  failed := fun lower key _ _ => ¬ lower.Works scene.fails key
  usable := fun good => good.usable
  opened := opened_of_above
  above := fun among => among.1
  needs := by
    intro lower key active binding home needed among finds _ needs
    have relies := scene.uniform.relies among.1 finds needs
    refine ⟨finds.leads.above.trans among.1, fun other member => ?_⟩
    rcases List.mem_append.mp member with before | last
    · exact (among.2 other before).tail relies
    · exact List.mem_singleton.mp last ▸ .single relies
  missing := fun _ missing _ works => missing works.offers
  cycle := fun among isActive works => works.not_self scene.uniform among.1 (among.2 _ isActive)
  dependency := fun _ finds needs fails works =>
    fails ((Binding.able_iff.mp (finds.works_iff.mp works)).2 _ needs)
  fixed := by
    intro world lower key active binding resolver among bound isValue good
    apply Terrain.goes_alike good
    apply (succeeds_resolve_value scene.built scene.grants among.1 bound isValue good.usable
      (opened_of_above good among.1)).mono
    intro value last reached
    refine ⟨reached.1, reached.2, .fixed bound isValue, fun other item bound' source => ?_⟩
    obtain rfl := Option.some.inj (bound'.symm.trans bound)
    obtain ⟨content, isValue⟩ := isValue
    rw [isValue] at source
    cases source
  recalled := by
    intro world lower key active binding home outcome among finds kept good filled
    have isHome := finds.leads.above.trans among.1
    have bound := (finds.leads.atHome (scene.built.above among.1)).bound
    have proper := (scene.built.above isHome).sound.proper bound
    rcases good.cells isHome (.shown binding.recipe.id binding.registered) with
      empty | ⟨found, holds, tells⟩
    · rw [empty] at filled
      cases filled
    · rw [holds] at filled
      cases filled
      have shown := tells.shown key binding bound kept rfl
      cases outcome with
      | error error => exact fun works => shown (finds.works_iff.mp works)
      | ok value =>
          refine ⟨shown.2.trans proper.type, finds.works_iff.mpr shown.1, ?_⟩
          intro other item bound' source
          obtain rfl := Option.some.inj (bound'.symm.trans finds.bound)
          exact absurd source (proper.not_list kept item)
  produced := fun among finds suit good => goes_produced among.1 finds suit good

/-- A request for a key returns a value if the key works, and otherwise an error, whatever was
requested before. -/
theorem resolve (good : scene.Good world) (key : Key) :
    scene.terrain.Goes behaviour (fun _ => ¬ scene.base.Works scene.fails key)
      (Provision.resolve scene.base scene.context key) world fun value _ =>
        scene.Yields scene.base key value := by
  have among : scene.trail.among scene.base key [] :=
    ⟨.refl _, fun _ member => absurd member List.not_mem_nil⟩
  exact Trail.resolve scene.built scene.grants among good

/-- Asking for the service of a key is decided in the same way: a value has the type of its key. -/
theorem resolveTyped (good : scene.Good world) (key : Key) :
    scene.terrain.Goes behaviour (fun _ => ¬ scene.base.Works scene.fails key)
      (scene.base.resolveTyped scene.context key) world fun value _ =>
        scene.Yields scene.base key value := by
  apply (scene.resolve good key).bind
  intro value last onward yields
  rw [if_pos yields.type]
  exact Terrain.goes_pure onward.1 yields

end Scene

end Provision
