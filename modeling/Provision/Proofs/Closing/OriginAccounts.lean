import Provision.Proofs.Closing.ValueOrigins

/-!
# Accounts of what is made

Whatever requests hand to constructors and decorators, keep, and promise to close comes from parts
that are secured: they belong in the scope or above it, and their closers were handed over before.

Main statement: `kept_sourcing`, that all requests keep to this conduct.
-/

namespace Provision

open Moment

variable {U : Client}

namespace Moment

/-- When arguments may be given for the parameters of a function that makes something in a scope:
each comes from what its key leads to, and from secured parts alone. -/
structure MaySupply (moment : Moment U) (site : Site U) (params : List Param)
    (arguments : List (Argument U)) (home : Scope U) : Prop where
  madeIn : moment.MadeIn site home
  fits : List.Forall₂ (Fits (moment.Provides home)) params arguments

/-- What may be kept in a cell: with an account of where it came from, and unless it is yet to be
shown, with its closer handed over. -/
def Sources (moment : Moment U) (scope : ScopeId) (value : Value U) : CacheKey → Prop
  | .made id => ∃ key binding home, moment.Homes key binding home ∧ home.id = scope ∧
      binding.recipe.id = id ∧
        moment.Stems (moment.Secured home) ⟨⟨home.id, binding.recipe⟩, value.content⟩
          value.content ∧
          (binding.cast ≠ none →
            moment.HandedOver ⟨⟨home.id, binding.recipe⟩, value.content⟩)
  | .shown id _ => ∃ key binding home origin, moment.Homes key binding home ∧ home.id = scope ∧
      binding.recipe.id = id ∧ moment.HandedOver ⟨⟨home.id, binding.recipe⟩, origin⟩ ∧
        moment.Stems (moment.Secured home) ⟨⟨home.id, binding.recipe⟩, origin⟩ value.content

/-- When the closer of an instance may be handed over: for what comes from secured parts alone,
apart from the instance itself. -/
def MayHand (moment : Moment U) (scope : ScopeId) (closer : PendingCloser U) : Prop :=
  ∃ home part, home.id = scope ∧ moment.IsScope home ∧ part.site.scope = scope ∧
    moment.Closes closer part ∧ moment.Stems (moment.Secured home) part closer.subject

end Moment

/-- Requests make, keep and promise to close only what they have an account of. -/
def Conduct.sourcing : Conduct U := fun moment entry =>
  match entry.event with
  | .performed (.settle scope cell outcome) _ =>
      ∀ value, outcome = .ok value → moment.Sources scope value cell
  | .performed (.attach scope closer) _ =>
      closer.recipe.isFactory = true → moment.MayHand scope closer
  | .called (.construct site _ arguments) =>
      ∃ home, moment.MaySupply site site.recipe.params arguments home
  | .called (.decorate site key transform _ arguments) => ∃ home,
      ∃ decorator ∈ home.registry.decoratorsOf key, decorator.transform = transform ∧
        moment.MaySupply site decorator.params arguments home
  | _ => True

/-- Idle events need no account. -/
theorem Conduct.sourcing_of_idle {moment : Moment U} {id : RequestId} {event : Event U}
    (idle : event.Idle) : Conduct.sourcing moment ⟨id, event⟩ := by
  cases event with
  | performed operation answer => cases operation <;> first | exact trivial | exact idle.elim
  | called call => cases call <;> first | exact trivial | exact idle.elim
  | _ => trivial

/-- Events of requests that do not resolve need no account. -/
theorem Conduct.sourcing_of_tending {moment : Moment U} {id : RequestId} {event : Event U}
    (tending : event.Tending) : Conduct.sourcing moment ⟨id, event⟩ := by
  cases event with
  | performed operation answer =>
      cases operation with
      | attach scope closer =>
          obtain ⟨content, isValue⟩ := tending
          intro isFactory
          simp [Recipe.isFactory, isValue] at isFactory
      | settle _ _ _ => exact tending.elim
      | _ => trivial
  | called call => cases call <;> first | exact trivial | exact tending.elim
  | _ => trivial

/-! ## What lasts -/

namespace Moment

variable {moment next : Moment U} {site : Site U} {home : Scope U}

theorem MaySupply.mono {params : List Param} {arguments : List (Argument U)}
    (may : moment.MaySupply site params arguments home)
    (grows : moment.history <:+ next.history) : next.MaySupply site params arguments home where
  madeIn := may.madeIn.mono grows
  fits := may.fits.imp fun _ _ fit => fit.mono fun _ _ provides => provides.mono grows

theorem Sources.mono {scope : ScopeId} {value : Value U} {cell : CacheKey}
    (sources : moment.Sources scope value cell) (grows : moment.history <:+ next.history) :
    next.Sources scope value cell := by
  cases cell with
  | made id =>
      obtain ⟨key, binding, home, homes, named, isRecipe, stems, handed⟩ := sources
      exact ⟨key, binding, home, homes.mono grows, named, isRecipe, stems.later grows,
        fun cast => (handed cast).mono grows⟩
  | shown id wanted =>
      obtain ⟨key, binding, home, origin, homes, named, isRecipe, handed, stems⟩ := sources
      exact ⟨key, binding, home, origin, homes.mono grows, named, isRecipe, handed.mono grows,
        stems.later grows⟩

end Moment

/-! ## Making -/

section Requests

variable {rely : Conduct U} {id : RequestId} {start : Moment U} {home : Scope U}
  {recipe : Recipe U} {part : Part U}

/-- What lasts still holds after a request that makes nothing. -/
theorem keeps_lasting_sourced {α : Type} {own : Event U → Prop} {yields : Except Error α → Prop}
    {request : Request U α} {holds : Moment U → Prop} (only : Request.Only own yields request)
    (harmless : ∀ moment event, own event → Conduct.sourcing moment ⟨id, event⟩)
    (lasts : ∀ {moment next : Moment U}, moment.history <:+ next.history → holds moment →
      holds next) (initially : holds start) :
    Request.Keeps rely Conduct.sourcing id (fun outcome moment => yields outcome ∧ holds moment)
      request start :=
  Program.Only.upholds only (fun passage => lasts passage.suffix)
    (fun moment event _ allowed => harmless moment event allowed) initially

/-- A request whose events need no account keeps to the conduct. -/
theorem keeps_end_sourced {α : Type} {own : Event U → Prop} {request : Request U α}
    {holds : Moment U → Prop} (only : Request.Only own (fun _ => True) request)
    (harmless : ∀ moment event, own event → Conduct.sourcing moment ⟨id, event⟩)
    (lasts : ∀ {moment next : Moment U}, moment.history <:+ next.history → holds moment →
      holds next) (initially : holds start) :
    Request.Keeps rely Conduct.sourcing id (fun _ moment => holds moment) request start :=
  (keeps_lasting_sourced only harmless lasts initially).mono fun _ _ _ reached => reached.2

/-- An instance that is produced stems from what it was supplied with. -/
theorem keeps_produce_sourced {arguments : List (Argument U)}
    (may : start.MaySupply ⟨home.id, recipe⟩ recipe.params arguments home) :
    Request.Keeps rely Conduct.sourcing id
      (Ends (fun value moment =>
          moment.Stems (moment.Secured home) ⟨⟨home.id, recipe⟩, value.content⟩ value.content)
        fun _ _ => True)
      (recipe.produce home.id arguments) start := by
  unfold Recipe.produce
  cases source : recipe.source with
  | value content => exact Request.keeps_pure fun _ _ _ => .fixed source
  | list item =>
      refine Request.keeps_pure fun last passage _ => ?_
      have may := may.mono passage.suffix
      exact .of_list may.madeIn source may.fits
  | factory make =>
      have takes := (only_takeAll recipe.params arguments).mono (fun _ taking => taking.idle)
        fun _ reached => reached
      refine Request.keeps_bind (keeps_lasting_sourced takes (fun _ _ => Conduct.sourcing_of_idle)
        (fun grows may => MaySupply.mono may grows) may) (fun _ _ _ _ => trivial) ?_
      rintro _ taken _ ⟨_, may⟩
      have may : taken.MaySupply ⟨home.id, recipe⟩ recipe.params arguments home := may
      refine Request.keeps_bind_call fun called passage _ => ?_
      refine ⟨⟨home, may.mono passage.suffix⟩, ?_⟩
      intro begun began later passage' _ answer after returned
      refine ⟨trivial, ?_⟩
      have grows := passage.suffix.trans
        (began.suffix.trans (passage'.suffix.trans returned.suffix))
      cases answer with
      | error failure => exact Request.keeps_fail fun _ _ _ => trivial
      | ok content =>
          refine Request.keeps_pure fun last passage _ => ?_
          have may := may.mono (grows.trans passage.suffix)
          have did := passage.suffix.mem returned.did
          exact .of_constructed may.madeIn did may.fits

/-- Handing over the closer of an instance, for what became of it. -/
theorem keeps_attach_sourced {subject : Value U} (context : ContextId)
    (isScope : start.IsScope home) (isSite : part.site = ⟨home.id, recipe⟩)
    (typed : subject.type = recipe.produces)
    (stems : start.Stems (start.Secured home) part subject.content)
    (decorated : start.Decorated part.site part.origin subject.content) :
    Request.Keeps rely Conduct.sourcing id
      (Ends (fun _ moment => moment.HandedOver part) fun _ _ => True)
      (attachCloser home.id context recipe subject) start := by
  unfold attachCloser Recipe.closerFor?
  cases closer : recipe.closer with
  | none =>
      refine Request.keeps_pure fun _ _ _ _ closes => ?_
      rw [isSite] at closes
      simp [closer] at closes
  | some close =>
      simp only [typed, if_true]
      refine Request.keeps_bind_act fun moment attached after passage _ recorded => ?_
      have isPlace : part.site.scope = home.id := by rw [isSite]
      refine ⟨fun _ => ⟨home, part, rfl, isScope.mono passage.suffix, isPlace,
        ⟨by rw [isSite], decorated.mono passage.suffix⟩, stems.later passage.suffix⟩, ?_⟩
      have handed : after.HandedOver part := by
        intro _ _
        have decorated := decorated.mono (passage.suffix.trans recorded.suffix)
        refine ⟨⟨recipe, close, subject.content⟩, ?_, by rw [isSite], decorated⟩
        rw [recorded.handed, isSite]
        simp [Event.hands]
      have disposes : ∀ moment (event : Event U), event.Disposing →
          Conduct.sourcing moment ⟨id, event⟩ := fun _ _ disposing =>
        Conduct.sourcing_of_tending disposing.tending
      refine (keeps_end_sourced ?_ disposes (fun grows handed => HandedOver.mono handed grows)
        handed).mono ?_
      · cases attached with
        | true => exact ⟨trivial, fun _ => ⟨trivial, trivial⟩⟩
        | false =>
            refine Request.only_bind_call trivial fun failure => ⟨trivial, ?_⟩
            cases failure with
            | none => exact trivial
            | some failure => exact ⟨trivial, fun _ => ⟨trivial, trivial⟩⟩
      · rintro (error | _) last _ handed
        · trivial
        · exact handed

/-- What has happened allows to idle. -/
theorem idling_sourcing {holds : Moment U → Prop}
    (lasts : ∀ {moment next : Moment U}, moment.history <:+ next.history → holds moment →
      holds next) : Idling rely Conduct.sourcing id holds :=
  .of_lasting lasts fun _ _ => Conduct.sourcing_of_idle

/-- An instance that is constructed stems from what it was supplied with. -/
theorem keeps_construct_sourced {arguments : List (Argument U)} (context : ContextId)
    (flag : FlagId) (closeMade : Bool)
    (may : start.MaySupply ⟨home.id, recipe⟩ recipe.params arguments home) :
    Request.Keeps rely Conduct.sourcing id
      (Ends (fun value moment =>
          moment.Stems (moment.Secured home) ⟨⟨home.id, recipe⟩, value.content⟩ value.content ∧
            (closeMade = true → moment.HandedOver ⟨⟨home.id, recipe⟩, value.content⟩))
        fun _ _ => True)
      (construct home.id context recipe arguments flag closeMade) start := by
  have ready : Idling rely Conduct.sourcing id
      fun moment => moment.MaySupply ⟨home.id, recipe⟩ recipe.params arguments home :=
    idling_sourcing fun grows may => may.mono grows
  have made : ∀ value : Value U, Idling rely Conduct.sourcing id fun moment =>
      moment.IsScope home ∧
        moment.Stems (moment.Secured home) ⟨⟨home.id, recipe⟩, value.content⟩ value.content :=
    fun _ => idling_sourcing fun grows ⟨isScope, stems⟩ =>
      ⟨isScope.mono grows, stems.later grows⟩
  refine Request.keeps_construct ready ?_ ?_ (Idling.keeps_raise made
    fun _ => idling_sourcing fun _ _ => trivial) ?_ ?_ ?_
  · exact ready.keeps_ends (only_ensureUsable context) (fun _ _ _ => trivial) may
  · intro moment may
    refine (keeps_produce_sourced may).grows.mono ?_
    rintro (error | value) last _ ⟨grows, ends⟩
    · trivial
    · exact ⟨may.madeIn.isScope.mono grows, ends⟩
  · exact fun value _ now =>
      (made value).keeps_ends (only_ensureUsable context) (fun _ _ _ => trivial) now
  · rintro _ value moment typed ⟨isScope, stems⟩
    have attaches : Request.Keeps rely Conduct.sourcing id
        (Ends (fun _ moment => moment.HandedOver ⟨⟨home.id, recipe⟩, value.content⟩)
          fun _ _ => True)
        (attachCloser home.id context recipe value) moment :=
      keeps_attach_sourced context isScope rfl typed stems .same
    refine attaches.grows.mono ?_
    rintro (error | _) last _ ⟨grown, handed⟩
    · trivial
    · exact ⟨stems.later grown, fun _ => handed⟩
  · rintro unclosed value moment ⟨_, stems⟩
    exact ⟨stems, fun closed => by cases unclosed.symm.trans closed⟩

/-! ## Finishing -/

/-- What a request knows of an instance while it decorates what became of it since the conversion:
where all of it came from, and everything that the decorators to come need. -/
structure Moment.Shaping (moment : Moment U) (home : Scope U) (part : Part U) (key : Key)
    (base : Content U) (stages : List (Stage U)) (content : Content U) : Prop where
  madeIn : moment.MadeIn part.site home
  applies : ∀ stage ∈ stages, stage.decorator ∈ home.registry.decoratorsOf key
  fits : ∀ stage ∈ stages,
    List.Forall₂ (Fits (moment.Provides home)) stage.decorator.params stage.arguments
  stems : moment.Stems (moment.Secured home) part content
  decorated : moment.Decorated part.site base content

variable {key : Key} {base : Content U} {stage : Stage U} {stages : List (Stage U)}
  {value : Value U}

theorem Moment.Shaping.mono {moment next : Moment U} {content : Content U}
    (shaping : moment.Shaping home part key base stages content)
    (grows : moment.history <:+ next.history) : next.Shaping home part key base stages content where
  madeIn := shaping.madeIn.mono grows
  applies := shaping.applies
  fits := fun stage member => (shaping.fits stage member).imp fun _ _ fit =>
    fit.mono fun _ _ provides => provides.mono grows
  stems := shaping.stems.later grows
  decorated := shaping.decorated.mono grows

/-- The next decorator may be supplied with what was resolved for it. -/
theorem Moment.Shaping.maySupply {moment : Moment U} {content : Content U}
    (shaping : moment.Shaping home part key base (stage :: stages) content) :
    moment.MaySupply part.site stage.decorator.params stage.arguments home :=
  ⟨shaping.madeIn, shaping.fits stage List.mem_cons_self⟩

/-- Applying a decorator shapes a value further. -/
theorem keeps_apply_sourced
    (shaping : start.Shaping home part key base (stage :: stages) value.content) :
    Request.Keeps rely Conduct.sourcing id
      (Ends (fun result moment => moment.Shaping home part key base stages result.content)
        fun _ _ => True)
      (stage.apply part.site value) start := by
  have applies := shaping.applies stage List.mem_cons_self
  unfold Stage.apply
  by_cases typed : value.type = stage.decorator.target.type
  · simp only [typed, if_true]
    have takes := (only_takeAll stage.decorator.params stage.arguments).mono
      (fun _ taking => taking.idle) fun _ reached => reached
    refine Request.keeps_bind (keeps_lasting_sourced takes (fun _ _ => Conduct.sourcing_of_idle)
      (fun grows shaping => Shaping.mono shaping grows) shaping) (fun _ _ _ _ => trivial) ?_
    rintro _ taken _ ⟨_, shaping⟩
    refine Request.keeps_bind_call fun called passage _ => ?_
    have shaping := Shaping.mono shaping passage.suffix
    refine ⟨⟨home, stage.decorator, ?_, rfl, shaping.maySupply⟩, ?_⟩
    · rwa [target_of_mem_decoratorsOf home.registry applies]
    intro begun began later passage' _ answer after returned
    refine ⟨trivial, ?_⟩
    have shaping := shaping.mono (began.suffix.trans (passage'.suffix.trans returned.suffix))
    cases answer with
    | error failure => exact Request.keeps_fail fun _ _ _ => trivial
    | ok content =>
        have did := returned.did
        rw [target_of_mem_decoratorsOf home.registry applies] at did
        have applied : after.Shaping home part key base stages content :=
          { madeIn := shaping.madeIn
            applies := fun other member => shaping.applies other (List.mem_cons_of_mem _ member)
            fits := fun other member => shaping.fits other (List.mem_cons_of_mem _ member)
            stems := shaping.stems.of_decorated shaping.madeIn applies did shaping.maySupply.fits
            decorated := .decorated shaping.decorated did }
        exact Request.keeps_pure fun last passage _ => applied.mono passage.suffix
  · simp only [typed, if_false]
    exact Request.keeps_fail fun _ _ _ => trivial

/-- Applying all decorators shapes a value to its end. -/
theorem keeps_decorateAll_sourced
    (shaping : start.Shaping home part key base stages value.content) :
    Request.Keeps rely Conduct.sourcing id
      (Ends (fun result moment => moment.Shaping home part key base [] result.content)
        fun _ _ => True)
      (decorateAll part.site stages value) start := by
  refine Request.keeps_decorateAll
    (fun stages value moment => moment.Shaping home part key base stages value.content)
    (fun _ _ => True) (fun _ _ _ _ shaping => keeps_apply_sourced shaping) ?_ ?_ shaping
  · exact fun _ stages => Idling.keeps_raise
      (fun _ => idling_sourcing fun grows shaping => Shaping.mono shaping grows)
      fun _ => idling_sourcing fun _ _ => trivial
  · exact fun value _ _ passage shaping => Shaping.mono shaping passage.suffix

variable {binding : Binding U} {made : Value U}

/-- Converting a value begins to shape it. -/
theorem keeps_convert_sourced (wanted : Key) (shaping : start.Shaping home
      ⟨⟨home.id, binding.recipe⟩, made.content⟩ key made.content stages made.content) :
    Request.Keeps rely Conduct.sourcing id
      (Ends (fun converted moment => ∃ base, (binding.cast = none → base = made.content) ∧
          moment.Shaping home ⟨⟨home.id, binding.recipe⟩, made.content⟩ key base stages
            converted.content)
        fun _ _ => True)
      (binding.convert home.id wanted made) start := by
  unfold Binding.convert
  cases binding.cast with
  | none =>
      exact Request.keeps_pure fun last passage _ =>
        ⟨made.content, fun _ => rfl, shaping.mono passage.suffix⟩
  | some cast =>
      by_cases produced : made.type = binding.recipe.produces
      · simp only [produced, if_true]
        refine Request.keeps_bind_call fun called passage _ => ⟨trivial, ?_⟩
        intro begun began later passage' _ content after returned
        have grows := passage.suffix.trans
          (began.suffix.trans (passage'.suffix.trans returned.suffix))
        have shaping := shaping.mono grows
        have converted : after.Stems (after.Secured home)
            ⟨⟨home.id, binding.recipe⟩, made.content⟩ content :=
          .converted shaping.stems (.inl rfl) returned.did
        refine ⟨trivial, Request.keeps_pure fun last passage _ => ⟨content, nofun, ?_⟩⟩
        exact Shaping.mono { shaping with stems := converted, decorated := .same } passage.suffix
      · simp only [produced, if_false]
        exact Request.keeps_fail fun _ _ _ => trivial

/-- What is shown of an instance comes from it, and unless that is a view of it, its closer is
handed over by now. -/
theorem keeps_finish_sourced (context : ContextId) (wanted : Key)
    (produces : binding.cast = none → binding.recipe.produces = binding.registered.type)
    (typed : made.type = binding.recipe.produces)
    (shaping : start.Shaping home ⟨⟨home.id, binding.recipe⟩, made.content⟩ binding.registered
      made.content stages made.content) :
    Request.Keeps rely Conduct.sourcing id
      (Ends (fun value moment =>
          moment.Stems (moment.Secured home) ⟨⟨home.id, binding.recipe⟩, made.content⟩
            value.content ∧
            (binding.cast = none →
              moment.HandedOver ⟨⟨home.id, binding.recipe⟩, made.content⟩))
        fun _ _ => True)
      (finish home.id context wanted binding stages made) start := by
  have targets : ∀ stage ∈ stages, stage.decorator.target.type = binding.registered.type :=
    fun stage member => by
      rw [target_of_mem_decoratorsOf home.registry (shaping.applies stage member)]
  refine Request.keeps_finish
    (fun value moment => value.type = binding.registered.type ∧
      ∃ base, (binding.cast = none → base = made.content) ∧
        moment.Shaping home ⟨⟨home.id, binding.recipe⟩, made.content⟩ binding.registered base []
          value.content)
    (keeps_convert_sourced wanted shaping) ?_ ?_ ?_
  · rintro converted moment isConverted ⟨base, plain, shaping⟩
    have isTyped := isConverted.type (fun uncast => typed.trans (produces uncast)) converted rfl
    refine ((only_decorateAll _ stages converted binding.registered.type).along
      (keeps_decorateAll_sourced shaping)).mono ?_
    rintro (error | value) last _ ⟨shaping, isDecorated, _⟩
    · trivial
    · exact ⟨isDecorated.type ⟨targets, isTyped⟩ value rfl, base, plain, shaping⟩
  · rintro cast value moment ⟨isTyped, base, plain, shaping⟩
    obtain rfl := plain cast
    have subject := isTyped.trans (produces cast).symm
    rw [Recipe.closeSubject_of_type made subject]
    have attaches : Request.Keeps rely Conduct.sourcing id
        (Ends (fun _ moment =>
          moment.HandedOver ⟨⟨home.id, binding.recipe⟩, made.content⟩) fun _ _ => True)
        (attachCloser home.id context binding.recipe value) moment :=
      keeps_attach_sourced context shaping.madeIn.isScope rfl subject shaping.stems
        shaping.decorated
    refine attaches.grows.mono ?_
    rintro (error | _) last _ ⟨grown, handed⟩
    · trivial
    · exact ⟨shaping.stems.later grown, fun _ => handed⟩
  · rintro cast value moment ⟨_, _, _, shaping⟩
    exact ⟨shaping.stems, fun uncast => absurd uncast cast⟩

end Requests

/-! ## Cells -/

section Cells

variable {rely : Conduct U} {id : RequestId} {start : Moment U}
  (within : ∀ moment entry, rely moment entry →
    (Conduct.orderly.and (Conduct.growing.and (Conduct.keeping.and Conduct.sourcing))) moment entry)

include within

/-- Requests that account for what they make keep what they make. -/
theorem Conduct.keeps_of_sourcing (moment : Moment U) (entry : Entry U)
    (allowed : rely moment entry) :
    (Conduct.orderly.and (Conduct.growing.and Conduct.keeping)) moment entry :=
  have all := within moment entry allowed
  ⟨all.1, all.2.1, all.2.2.1⟩

/-- A value that was kept has its source. -/
theorem Moment.Lawful.sources {moment : Moment U} (lawful : moment.Lawful rely) {scope : ScopeId}
    {cell : CacheKey} {value : Value U} (settled : moment.Settled scope cell (.ok value)) :
    moment.Sources scope value cell := by
  obtain ⟨id, did⟩ := settled
  obtain ⟨before, _, grows, allowed⟩ := lawful.allowed did
  exact Sources.mono ((within _ _ allowed).2.2.2 value rfl) grows

/-- Through a cell a request gets what is kept there with its account, whether it fills the cell or
somebody else did. -/
theorem keeps_keepIf_sourced {kept : Bool} {scope : ScopeId} {cell : CacheKey}
    {create : Request U (Value U)} {good : Value U → Moment U → Prop}
    (lasts : ∀ {value moment next}, moment.history <:+ next.history → good value moment →
      good value next)
    (known : kept = true → ∀ (value : Value U) (moment : Moment U), moment.Lawful rely →
      start.history <:+ moment.history → moment.Settled scope cell (.ok value) → good value moment)
    (holds : ∀ (value : Value U) (moment : Moment U), start.history <:+ moment.history →
      good value moment → moment.Sources scope value cell)
    (creates : (kept = true → ∀ outcome, ¬ start.Settled scope cell outcome) →
      ∀ moment, start.history <:+ moment.history →
        Request.Keeps rely Conduct.sourcing id (Ends good fun _ _ => True) create moment) :
    Request.Keeps rely Conduct.sourcing id (Ends good fun _ _ => True)
      (keepIf kept scope cell create) start := by
  refine keeps_keepIf_lasting (Conduct.keeps_of_sourcing within) (fun _ _ => trivial) lasts known
    creates ?_ fun _ _ ends => ends
  rintro _ moment grows ends value rfl
  exact holds value moment grows ends

section Produce

variable {key : Key} {binding : Binding U} {home : Scope U} {inputs : Inputs U}

/-- What is known of an instance that is ready to be finished. -/
structure Moment.Accounted (moment : Moment U) (binding : Binding U) (home : Scope U)
    (made : Value U) : Prop where
  type : made.type = binding.recipe.produces
  stems : moment.Stems (moment.Secured home) ⟨⟨home.id, binding.recipe⟩, made.content⟩
    made.content
  handed : binding.cast ≠ none →
    moment.HandedOver ⟨⟨home.id, binding.recipe⟩, made.content⟩

omit within in

theorem Moment.Accounted.mono {moment next : Moment U} {made : Value U}
    (accounted : moment.Accounted binding home made) (grows : moment.history <:+ next.history) :
    next.Accounted binding home made :=
  ⟨accounted.type, accounted.stems.later grows, fun cast => (accounted.handed cast).mono grows⟩

/-- Making an instance, by its cell if it is kept, accounts for it. -/
theorem keeps_prepare_sourced (context : ContextId) (lawful : start.Lawful rely)
    (homes : start.Homes key binding home) (finds : home.Finds key binding home)
    (suit : inputs.Suit (start.Provides home) binding home
      (Recalls id home.id binding.recipe start)) :
    Request.Keeps rely Conduct.sourcing id
      (Ends (fun made moment => moment.Accounted binding home made) fun _ _ => True)
      (keepIf binding.recipe.lifetime.isKept home.id (.made binding.recipe.id)
        (construct home.id context binding.recipe inputs.arguments inputs.flag
          binding.cast.isSome)) start := by
  refine keeps_keepIf_sourced within (fun grows accounted => Accounted.mono accounted grows)
    ?_ ?_ ?_
  · intro kept value moment lawful' grows settled
    have homes := homes.mono grows
    have prepared : moment.Prepared binding home inputs.arguments value :=
      lawful'.prepared (Conduct.keeps_of_sourcing within) homes kept settled
    obtain ⟨wanted, other, above, homes', scopes, recipes, stems, handed⟩ :=
      lawful'.sources within settled
    have grow := lawful'.grow (Conduct.keeps_of_sourcing within)
    obtain rfl := homes.isScope.eq_of_id grow homes'.isScope scopes.symm
    have same := (homes.agree grow homes' rfl recipes.symm kept).1
    have alike := (homes'.agree grow homes rfl recipes (same ▸ kept)).2
    rw [← same] at stems handed
    exact ⟨prepared.type, stems, fun cast => handed fun uncast => cast (alike uncast).1⟩
  · exact fun value moment grows accounted =>
      ⟨key, binding, home, homes.mono grows, rfl, rfl, accounted.stems, accounted.handed⟩
  · intro unsettled moment grows
    have fits : List.Forall₂ (Fits (start.Provides home)) binding.recipe.params
        inputs.arguments := by
      rcases suit.arguments with ⟨kept, outcome, peeked⟩ | fits
      · have settles : ∀ moment entry, rely moment entry → Conduct.settling moment entry :=
          fun _ _ allowed =>
            Conduct.settling_of_keeping (Conduct.keeps_of_sourcing within _ _ allowed).2.2
        exact absurd (lawful.peeked settles peeked) (unsettled kept outcome)
      · exact fits
    have may : start.MaySupply ⟨home.id, binding.recipe⟩ binding.recipe.params inputs.arguments
        home := ⟨⟨homes.isScope, key, binding, finds, rfl⟩, fits⟩
    have makes := only_construct home.id context binding.recipe inputs.arguments inputs.flag
      binding.cast.isSome
    refine (makes.along (keeps_construct_sourced context inputs.flag binding.cast.isSome
      (may.mono grows))).mono ?_
    rintro (error | value) last _ ⟨ends, isMade, _⟩
    · trivial
    · refine ⟨isMade.type trivial value rfl, ends.1, fun cast => ends.2 ?_⟩
      exact Option.isSome_iff_ne_none.mpr cast

/-- What is known of the value that is shown for a key. -/
def Moment.Vouched (moment : Moment U) (binding : Binding U) (home : Scope U) (value : Value U) :
    Prop :=
  ∃ origin, moment.HandedOver ⟨⟨home.id, binding.recipe⟩, origin⟩ ∧
    moment.Stems (moment.Secured home) ⟨⟨home.id, binding.recipe⟩, origin⟩ value.content

/-- A value that was shown is vouched for. -/
theorem Moment.Lawful.vouchedShown {moment : Moment U} (lawful : moment.Lawful rely)
    (homes : moment.Homes key binding home) (kept : binding.recipe.lifetime.isKept = true)
    {value : Value U} (settled : moment.Settled home.id
      (.shown binding.recipe.id binding.registered) (.ok value)) :
    moment.Vouched binding home value := by
  obtain ⟨wanted, other, above, origin, homes', scopes, recipes, handed, stems⟩ :=
    lawful.sources within settled
  have grow := lawful.grow (Conduct.keeps_of_sourcing within)
  obtain rfl := homes.isScope.eq_of_id grow homes'.isScope scopes.symm
  rw [← (homes.agree grow homes' rfl recipes.symm kept).1] at stems handed
  exact ⟨origin, handed, stems⟩

omit within in

theorem Moment.Vouched.mono {moment next : Moment U} {value : Value U}
    (vouched : moment.Vouched binding home value) (grows : moment.history <:+ next.history) :
    next.Vouched binding home value := by
  obtain ⟨origin, handed, stems⟩ := vouched
  exact ⟨origin, handed.mono grows, stems.later grows⟩

/-- Showing an instance, by the cell of its key if it is kept, vouches for the value. -/
theorem keeps_show_sourced (context : ContextId) (wanted : Key) {made : Value U}
    (homes : start.Homes key binding home) (finds : home.Finds key binding home)
    (suit : inputs.Suit (start.Provides home) binding home
      (Recalls id home.id binding.recipe start))
    (accounted : start.Accounted binding home made) :
    Request.Keeps rely Conduct.sourcing id
      (Ends (fun value moment => moment.Vouched binding home value) fun _ _ => True)
      (keepIf binding.recipe.lifetime.isKept home.id
        (.shown binding.recipe.id binding.registered)
        (finish home.id context wanted binding inputs.stages made)) start := by
  refine keeps_keepIf_sourced within (fun grows vouched => Vouched.mono vouched grows) ?_ ?_ ?_
  · exact fun kept value moment lawful grows settled =>
      lawful.vouchedShown within (homes.mono grows) kept settled
  · rintro value moment grows ⟨origin, handed, stems⟩
    exact ⟨key, binding, home, origin, homes.mono grows, rfl, rfl, handed, stems⟩
  · intro _ moment grows
    have shaping : start.Shaping home ⟨⟨home.id, binding.recipe⟩, made.content⟩
        binding.registered made.content inputs.stages made.content := by
      refine ⟨⟨homes.isScope, key, binding, finds, rfl⟩, fun stage member => ?_, suit.stages,
        accounted.stems, .same⟩
      rw [← suit.decorators]
      exact List.mem_map_of_mem member
    refine (keeps_finish_sourced context wanted homes.proper.produces accounted.type
      (shaping.mono grows)).grows.mono ?_
    rintro (error | value) last _ ⟨grown, ends⟩
    · trivial
    · refine ⟨made.content, ?_, ends.1⟩
      cases cast : binding.cast with
      | none => exact ends.2 cast
      | some _ =>
          exact (accounted.handed (by rw [cast]; exact nofun)).mono (grows.trans grown)

end Produce

/-! ## Requests -/

section Scopes

variable {moment : Moment U} {scope home : Scope U} {key : Key} {binding : Binding U}
  {value : Value U}

omit within in
/-- What is shown for a key is what the key provides wherever it leads there. -/
theorem Moment.Vouched.provides (vouched : moment.Vouched binding home value)
    (homes : moment.Homes key binding home) (finds : scope.Finds key binding home) :
    moment.Provides scope key value := by
  obtain ⟨origin, handed, stems⟩ := vouched
  have leads : scope.Leads key ⟨home, binding⟩ := ⟨finds.bound, finds.home⟩
  have isAbove : home.Above scope := leads.above
  have secured : moment.Secured home ⟨⟨home.id, binding.recipe⟩, origin⟩ := by
    refine ⟨⟨home, .refl _, homes.houses, fun content isValue => ?_⟩, handed⟩
    exact absurd ⟨content, isValue⟩ finds.made
  have answers : Answers scope key ⟨⟨home.id, binding.recipe⟩, origin⟩ :=
    ⟨binding, finds.bound, rfl, fun keeper finds' => by rw [(finds.unique finds').2]⟩
  exact ⟨_, answers, secured.below isAbove,
    stems.mono (List.suffix_refl _) fun _ secured => secured.below isAbove⟩

omit within in
/-- A fixed value comes from where it was registered. -/
theorem Moment.IsScope.secured_fixed {content : Content U}
    (lawful : moment.Lawful (Conduct.orderly.and Conduct.growing)) (isScope : moment.IsScope scope)
    (bound : scope.registry.find? key = some binding)
    (isValue : binding.recipe.source = .value content) :
    moment.Secured scope ⟨⟨binding.owner, binding.recipe⟩, content⟩ := by
  have sound := (isScope.grown lawful).built.sound
  obtain ⟨owner, finds, owns⟩ := sound.owner bound
  obtain ⟨named, _⟩ := Scope.ancestor?_some finds
  have notList : binding.recipe.isList = false := by simp [Recipe.isList, isValue]
  refine ⟨⟨owner, .ofAncestor finds, ?_, fun _ _ => ?_⟩, fun isFactory => ?_⟩
  · exact ⟨isScope.ancestor lawful finds, named, key, binding, owns, rfl⟩
  · rw [named]
    exact (sound.proper bound).registration notList
  · simp [Recipe.isFactory, isValue] at isFactory

omit within in

/-- Converting a fixed value needs no account but the value. -/
theorem keeps_convert_fixed {content : Content U} (caller : ScopeId) (wanted : Key)
    (isValue : binding.recipe.source = .value content) :
    Request.Keeps rely Conduct.sourcing id
      (Ends (fun converted moment => ∀ known,
          moment.Stems known ⟨⟨binding.owner, binding.recipe⟩, content⟩ converted.content)
        fun _ _ => True)
      (binding.convert caller wanted ⟨binding.recipe.produces, content⟩) start := by
  unfold Binding.convert
  cases binding.cast with
  | none => exact Request.keeps_pure fun _ _ _ _ => .fixed isValue
  | some cast =>
      simp only [if_true]
      refine Request.keeps_bind_call fun called passage _ => ⟨trivial, ?_⟩
      intro begun began later passage' _ converted after returned
      refine ⟨trivial, Request.keeps_pure fun last passage _ known => ?_⟩
      exact .converted (.fixed isValue) (.inr ⟨content, isValue⟩)
        (passage.suffix.mem returned.did)

end Scopes

/-- Requests for keys yield what comes from secured parts alone. -/
def accounting {origin : Moment U}
    (lawful : origin.Lawful (Conduct.orderly.and Conduct.growing)) (id : RequestId) :
    Upkeep rely Conduct.sourcing id where
  holds := (safekeeping (Conduct.keeps_of_sourcing within) lawful id).holds
  among := (safekeeping (Conduct.keeps_of_sourcing within) lawful id).among
  yields := Moment.Provides
  failed := (safekeeping (Conduct.keeps_of_sourcing within) lawful id).failed
  stable := (safekeeping (Conduct.keeps_of_sourcing within) lawful id).stable
  harmless := fun _ _ _ idle => Conduct.sourcing_of_idle idle
  ancestor := (safekeeping (Conduct.keeps_of_sourcing within) lawful id).ancestor
  lasts := fun grows provides => provides.mono grows
  plain := (safekeeping (Conduct.keeps_of_sourcing within) lawful id).plain
  cycle := (safekeeping (Conduct.keeps_of_sourcing within) lawful id).cycle
  dependency := (safekeeping (Conduct.keeps_of_sourcing within) lawful id).dependency
  recalled := by
    intro moment next scope key binding home outcome _ isScope finds kept lawful' grown found
      passage _
    have homes := (isScope.homes lawful finds).mono grown
    have settled := (lawful'.cell (Conduct.keeps_of_sourcing within) _ _).filled
      (State.kept?_eq_some.mp found)
    cases outcome with
    | error error => trivial
    | ok value =>
        have vouched := lawful'.vouchedShown within homes kept settled
        exact (vouched.provides homes finds).mono passage.suffix
  convert := by
    intro start scope key binding content _ isScope bound isValue _ grown
    refine (keeps_convert_fixed scope.id key isValue).grows.mono ?_
    rintro (error | value) moment _ ⟨grown', stems⟩
    · trivial
    · have secured := (isScope.secured_fixed lawful bound isValue).mono (grown.trans grown')
      refine ⟨grown.trans grown', _, ⟨binding, bound, rfl, fun keeper finds => ?_⟩, secured,
        stems _⟩
      exact absurd ⟨content, isValue⟩ finds.made
  produce := by
    intro start scope key binding home inputs context _ isScope finds begun grown suit
    have homes := (isScope.homes lawful finds).mono grown
    have leads : scope.Leads key ⟨home, binding⟩ := ⟨finds.bound, finds.home⟩
    have atHome := leads.atHome (isScope.grown lawful).built
    have finds' : home.Finds key binding home := ⟨atHome.bound, finds.made, atHome.home⟩
    refine Request.keeps_bind (keeps_prepare_sourced within context begun homes finds' suit).grows
      ?_ ?_
    · exact fun _ _ _ _ => trivial
    rintro made moment _ ⟨grown', accounted⟩
    have homes := homes.mono grown'
    have recalls : Recalls id home.id binding.recipe start →
        Recalls id home.id binding.recipe moment :=
      fun ⟨outcome, peeked⟩ => ⟨outcome, grown'.mem peeked⟩
    have suit := suit.mono (fun _ _ provides => Provides.mono provides grown') recalls
    refine (keeps_show_sourced within context key homes finds' suit accounted).grows.mono ?_
    rintro (error | value) last _ ⟨grown'', vouched⟩
    · trivial
    · exact ⟨grown.trans (grown'.trans grown''), vouched.provides (homes.mono grown'') finds⟩

/-- All requests keep to the conduct. -/
theorem kept_sourcing : Conduct.Kept rely Conduct.sourcing := by
  refine .ofResolving (fun _ _ _ => trivial) Conduct.sourcing_of_tending
    (fun _ _ _ _ _ _ => trivial) ?_
  intro moment id demand after lawful orderly recorded resolves
  obtain ⟨origin, named⟩ :=
    (lawful.grow (Conduct.keeps_of_sourcing within)).starts orderly recorded
  exact ((accounting within origin id).asking resolves named (List.suffix_refl _)).mono
    fun _ _ _ _ => trivial

end Cells

end Provision
