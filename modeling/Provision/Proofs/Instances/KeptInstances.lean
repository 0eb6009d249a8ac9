import Provision.Proofs.Instances.KeepingConduct

/-!
# Requests keep what they make

The proof that requests keep to `Conduct.keeping`, along the text of resolution: constructing and
finishing an instance needs only what the request itself did so far, and what the cells hold is
known of all lawful moments.

Main statement: `kept_keeping`.
-/

namespace Provision

open Moment

variable {U : Client}

section Requests

variable {rely : Conduct U} {id : RequestId} {start moment next : Moment U} {site : Site U}
  {home : Scope U} {key : Key}

theorem Event.Idle.keeping {event : Event U} (idle : event.Idle) :
    Conduct.keeping moment ⟨id, event⟩ :=
  Conduct.keeping_of_attending idle.attending

/-- Requests that neither make nor keep anything. -/
theorem keeps_attending {α : Type} {own : Event U → Prop} {yields : Except Error α → Prop}
    {request : Request U α} (only : Request.Only own yields request)
    (attending : ∀ event, own event → event.Attending) :
    Request.Keeps rely Conduct.keeping id
      (fun outcome moment => yields outcome ∧ Passage rely id own start moment) request start :=
  only.keeps fun _ _ _ _ allowed => Conduct.keeping_of_attending (attending _ allowed)

/-- A program that is idle keeps to the conduct, and nothing but idle events pass meanwhile. -/
theorem keeps_idle {α : Type} {yields : Except Error α → Prop} {request : Request U α}
    (only : Request.Only Event.Idle yields request) :
    Request.Keeps rely Conduct.keeping id
      (fun outcome moment => yields outcome ∧ Passage rely id Event.Idle start moment) request
      start :=
  keeps_attending only fun _ => Event.Idle.attending

theorem Moment.MayConstruct.later {arguments : List (Argument U)}
    (may : moment.MayConstruct id site arguments home)
    (passage : Passage rely id Event.Idle moment next) :
    next.MayConstruct id site arguments home where
  houses := may.houses.mono passage.suffix
  fits := may.fits.imp fun _ _ fit => fit.mono fun _ _ => Yields.mono passage.suffix
  entered := fun kept => passage.suffix.mem (may.entered kept)
  first := by
    intro kept recipe make arguments same called
    rcases passage.did called with before | impossible
    · exact may.first kept recipe make arguments same before
    · exact impossible
  unreturned := by
    intro kept recipe make arguments answer same returned
    rcases passage.did returned with before | impossible
    · exact may.unreturned kept recipe make arguments answer same before
    · exact impossible

/-- What is known of a value that was made of its arguments. -/
structure Moment.Made (moment : Moment U) (site : Site U) (arguments : List (Argument U))
    (value : Value U) : Prop where
  constructed : ∀ make, site.recipe.source = .factory make → moment.Instance site value.content
  list : ∀ item, site.recipe.source = .list item →
    value.content = .list (itemsOf item arguments)

theorem Moment.Made.mono {arguments : List (Argument U)} {value : Value U}
    (made : moment.Made site arguments value) (grows : moment.history <:+ next.history) :
    next.Made site arguments value :=
  ⟨fun make isFactory => (made.constructed make isFactory).mono grows, made.list⟩

/-- How making an instance ends. -/
abbrev MadeEnd (site : Site U) (arguments : List (Argument U)) :
    Outcome U → Moment U → Prop :=
  Ends (fun value moment => moment.Made site arguments value) fun _ _ => True

/-- Producing an instance that may be constructed makes it. -/
theorem keeps_produce {recipe : Recipe U} {arguments : List (Argument U)}
    (may : start.MayConstruct id ⟨home.id, recipe⟩ arguments home) :
    Request.Keeps rely Conduct.keeping id (MadeEnd ⟨home.id, recipe⟩ arguments)
      (recipe.produce home.id arguments) start := by
  unfold Recipe.produce
  cases source : recipe.source with
  | value content =>
      refine Request.keeps_pure fun _ _ _ => ⟨?_, ?_⟩
      · exact fun make isFactory => by cases source.symm.trans isFactory
      · exact fun item isList => by cases source.symm.trans isList
  | list item =>
      refine Request.keeps_pure fun _ _ _ => ⟨?_, ?_⟩
      · exact fun make isFactory => by cases source.symm.trans isFactory
      · exact fun other isList => by cases source.symm.trans isList; rfl
  | factory make =>
      have takes := (only_takeAll recipe.params arguments).mono (fun _ taking => taking.idle)
        fun _ reached => reached
      refine Request.keeps_bind (keeps_idle takes) (fun _ _ _ _ => trivial) ?_
      rintro _ taken _ ⟨_, passage⟩
      refine Request.keeps_bind_call fun called passage' _ => ?_
      have may := may.later (passage.trans passage'.ofInterference)
      refine ⟨⟨home, may⟩, fun begun began later passage' _ answer after returned => ?_⟩
      have called : later.Did id (.called (.construct ⟨home.id, recipe⟩ make arguments)) :=
        passage'.suffix.mem began.did
      refine ⟨⟨called, fun kept other make arguments answer same did => ?_⟩, ?_⟩
      · rcases passage'.did did with before | impossible
        · exact may.unreturned kept other make arguments answer same (began.before before nofun)
        · exact impossible
      cases answer with
      | error failure => exact Request.keeps_fail fun _ _ _ => trivial
      | ok content =>
          refine Request.keeps_pure fun last passage _ => ⟨fun _ _ => ?_, ?_⟩
          · exact ⟨id, make, arguments,
              passage.suffix.mem returned.did⟩
          · exact fun item isList => by cases source.symm.trans isList

/-- What has happened allows to idle. -/
theorem idling_keeping {holds : Moment U → Prop}
    (lasts : ∀ {moment next : Moment U}, moment.history <:+ next.history → holds moment →
      holds next) : Idling rely Conduct.keeping id holds :=
  .of_lasting lasts fun _ _ => Event.Idle.keeping

/-- Constructing an instance that may be constructed makes it, and closing it does not change
that. -/
theorem keeps_construct_once {recipe : Recipe U} {arguments : List (Argument U)}
    (context : ContextId) (flag : FlagId) (closeMade : Bool)
    (may : start.MayConstruct id ⟨home.id, recipe⟩ arguments home) :
    Request.Keeps rely Conduct.keeping id (MadeEnd ⟨home.id, recipe⟩ arguments)
      (construct home.id context recipe arguments flag closeMade) start := by
  have ready : Idling rely Conduct.keeping id
      fun moment => moment.MayConstruct id ⟨home.id, recipe⟩ arguments home :=
    ⟨fun passage may => may.later passage, fun _ _ _ => Event.Idle.keeping⟩
  have made : ∀ value, Idling rely Conduct.keeping id
      fun moment => moment.Made ⟨home.id, recipe⟩ arguments value :=
    fun _ => idling_keeping fun grows made => made.mono grows
  refine Request.keeps_construct ready ?_ (fun _ may => keeps_produce may) ?_ ?_ ?_
    fun _ _ _ checked => checked
  · exact ready.keeps_ends (only_ensureUsable context) (fun _ _ _ => trivial) may
  · exact Idling.keeps_raise made fun _ => idling_keeping fun _ _ => trivial
  · exact fun value _ now =>
      (made value).keeps_ends (only_ensureUsable context) (fun _ _ _ => trivial) now
  · intro _ value moment _ made
    refine (keeps_attending (only_attachCloser home.id context recipe value)
      fun _ attending => attending).mono ?_
    rintro (error | _) last _ ⟨_, passage⟩
    · trivial
    · exact made.mono passage.suffix

/-! ## Decorating -/

/-- Idle events decorate nothing. -/
theorem Event.Idle.decorates {event : Event U} (idle : event.Idle) (scope : ScopeId)
    (recipe : RecipeId) : event.decorates scope recipe key = [] := by
  cases event with
  | called call => cases call <;> first | rfl | exact idle.elim
  | performed operation answer => rfl
  | returned call answer => rfl
  | started demand => rfl
  | finished reply => rfl

/-- What others do, and what decorates nothing, is no decoration by a request. -/
theorem Moment.Passage.decorationsBy {own : Event U → Prop}
    (passage : Passage rely id own moment next) {scope : ScopeId} {recipe : RecipeId}
    (plain : ∀ event, own event → event.decorates scope recipe key = []) :
    Provision.decorationsBy next.history id scope recipe key =
      Provision.decorationsBy moment.history id scope recipe key := by
  unfold Provision.decorationsBy
  induction passage with
  | refl => rfl
  | contexts _ _ ih => exact ih
  | foreign _ recorded differs _ ih =>
      rw [recorded.history, List.flatMap_cons, if_neg differs, List.nil_append, ih]
  | own _ recorded allowed ih =>
      rw [recorded.history, List.flatMap_cons, if_pos rfl, plain _ allowed, List.nil_append, ih]

/-- What a request knows while it decorates a value: some decorators were applied, and for the
others it has all that they need. -/
structure Moment.Decorating (moment : Moment U) (id : RequestId) (site : Site U) (home : Scope U)
    (key : Key) (origin : Content U) (before : List (Decorator U)) (stages : List (Stage U))
    (content : Content U) : Prop where
  houses : moment.Houses site home
  decorators : home.registry.decoratorsOf key = before ++ stages.map Stage.decorator
  fits : ∀ stage ∈ stages,
    List.Forall₂ (Fits (moment.Yields home)) stage.decorator.params stage.arguments
  entered : site.recipe.lifetime.isKept = true →
    moment.Entered id site.scope (.shown site.recipe.id key)
  applied : site.recipe.lifetime.isKept = true →
    decorationsBy moment.history id site.scope site.recipe.id key =
      (before.map Decorator.transform).reverse
  stands : moment.StandsFor site key origin content

variable {origin : Content U} {before : List (Decorator U)} {stage : Stage U}
  {stages : List (Stage U)} {value : Value U}

theorem Moment.Decorating.after {content : Content U}
    (decorating : moment.Decorating id site home key origin before stages content)
    (passage : Passage rely id (fun event => event.decorates site.scope site.recipe.id key = [])
      moment next) :
    next.Decorating id site home key origin before stages content where
  houses := decorating.houses.mono passage.suffix
  decorators := decorating.decorators
  fits := fun stage member => (decorating.fits stage member).imp fun _ _ fit =>
    fit.mono fun _ _ => Yields.mono passage.suffix
  entered := fun kept => passage.suffix.mem (decorating.entered kept)
  applied := fun kept =>
    (passage.decorationsBy fun _ plain => plain).trans (decorating.applied kept)
  stands := decorating.stands.mono passage.suffix

theorem Moment.Decorating.later {content : Content U}
    (decorating : moment.Decorating id site home key origin before stages content)
    (passage : Passage rely id Event.Idle moment next) :
    next.Decorating id site home key origin before stages content :=
  decorating.after (passage.mono fun _ idle => idle.decorates _ _)

/-- The decorators of a key decorate that key. -/
theorem target_of_mem_decoratorsOf (registry : Registry U) {decorator : Decorator U}
    (member : decorator ∈ registry.decoratorsOf key) : decorator.target = key :=
  of_decide_eq_true (List.mem_filter.mp member).2

/-- Stages of the decorators of a key decorate that key. -/
theorem targets_of_decorators {registry : Registry U} {stages : List (Stage U)}
    (decorators : stages.map Stage.decorator = registry.decoratorsOf key) :
    ∀ stage ∈ stages, stage.decorator.target = key := by
  intro stage member
  refine target_of_mem_decoratorsOf registry ?_
  rw [← decorators]
  exact List.mem_map_of_mem member

/-- The next stage of decorating may be applied. -/
theorem Moment.Decorating.mayDecorate {content : Content U}
    (decorating : moment.Decorating id site home key origin before (stage :: stages) content) :
    moment.MayDecorate id site key stage.decorator stage.arguments home where
  houses := decorating.houses
  fits := decorating.fits stage List.mem_cons_self
  entered := decorating.entered
  next := ⟨before, stages.map Stage.decorator, decorating.decorators, decorating.applied⟩

/-- A decorator is called and returns. -/
theorem Moment.Decorating.apply {begun later after : Moment U} {content decorated : Content U}
    (decorating : moment.Decorating id site home key origin before (stage :: stages) content)
    (began : moment.Records
      ⟨id, .called (.decorate site key stage.decorator.transform content stage.arguments)⟩ begun)
    (passage : Interference rely id begun later)
    (returned : later.Records
      ⟨id, .returned (.decorate site key stage.decorator.transform content stage.arguments)
        (.ok decorated)⟩ after) :
    after.Decorating id site home key origin (before ++ [stage.decorator]) stages decorated := by
  have since : Passage rely id (fun event => event.decorates site.scope site.recipe.id key = [])
      begun after := .own passage.ofInterference returned rfl
  have grows := began.suffix.trans since.suffix
  refine ⟨decorating.houses.mono grows, ?_, ?_, ?_, ?_, ?_⟩
  · rw [decorating.decorators, List.map_cons, List.append_assoc, List.singleton_append]
  · intro other member
    exact (decorating.fits other (List.mem_cons_of_mem _ member)).imp fun _ _ fit =>
      fit.mono fun _ _ => Yields.mono grows
  · exact fun kept => grows.mem (decorating.entered kept)
  · intro kept
    rw [since.decorationsBy fun _ plain => plain]
    have applied := decorating.applied kept
    unfold decorationsBy at applied ⊢
    rw [began.history, List.flatMap_cons, applied, if_pos rfl]
    simp [Event.decorates]
  · exact .decorated (decorating.stands.mono grows) returned.did

/-- Applying the next stage brings decorating one stage on. -/
theorem keeps_apply
    (decorating : start.Decorating id site home key origin before (stage :: stages) value.content) :
    Request.Keeps rely Conduct.keeping id
      (Ends (fun decorated moment => moment.Decorating id site home key origin
        (before ++ [stage.decorator]) stages decorated.content) fun _ _ => True)
      (stage.apply site value) start := by
  have isTarget : stage.decorator.target = key := by
    refine target_of_mem_decoratorsOf home.registry ?_
    rw [decorating.decorators, List.map_cons]
    exact List.mem_append_right _ List.mem_cons_self
  unfold Stage.apply
  by_cases typed : value.type = stage.decorator.target.type
  · simp only [typed, if_true]
    have takes := (only_takeAll stage.decorator.params stage.arguments).mono
      (fun _ taking => taking.idle) fun _ reached => reached
    refine Request.keeps_bind (keeps_idle takes) (fun _ _ _ _ => trivial) ?_
    rintro _ taken _ ⟨_, passage⟩
    have decorating := decorating.later passage
    rw [isTarget]
    refine Request.keeps_bind_call fun called passage _ => ?_
    have decorating := decorating.later passage.ofInterference
    refine ⟨⟨stage.decorator, home, rfl, decorating.mayDecorate⟩, ?_⟩
    intro begun began later passage' _ answer after returned
    refine ⟨trivial, ?_⟩
    cases answer with
    | error failure => exact Request.keeps_fail fun _ _ _ => trivial
    | ok content =>
        have applied := decorating.apply began passage' returned
        exact Request.keeps_pure fun last passage _ => applied.later passage.ofInterference
  · simp only [typed, if_false]
    exact Request.keeps_fail fun _ _ _ => trivial

/-- A request has applied some decorators to a value, and has all that the others need. -/
def Moment.Halfway (moment : Moment U) (id : RequestId) (site : Site U) (home : Scope U)
    (key : Key) (origin : Content U) (stages : List (Stage U)) (value : Value U) : Prop :=
  ∃ before, moment.Decorating id site home key origin before stages value.content

/-- An idle request stays between two stages. -/
theorem idling_halfway (stages : List (Stage U)) (value : Value U) :
    Idling rely Conduct.keeping id
      fun moment => moment.Halfway id site home key origin stages value where
  stable := fun passage halfway => halfway.imp fun _ decorating => decorating.later passage
  harmless := fun _ _ _ => Event.Idle.keeping

/-- Applying all stages decorates a value with all of them, in order. -/
theorem keeps_decorateAll
    (decorating : start.Decorating id site home key origin before stages value.content) :
    Request.Keeps rely Conduct.keeping id
      (Ends (fun result moment => moment.StandsFor site key origin result.content) fun _ _ => True)
      (decorateAll site stages value) start := by
  refine (Request.keeps_decorateAll
    (fun stages value moment => moment.Halfway id site home key origin stages value)
    (fun _ _ => True) ?_ ?_ ?_ ⟨before, decorating⟩).mono ?_
  · rintro stage stages value moment ⟨before, decorating⟩
    refine (keeps_apply decorating).mono ?_
    rintro (error | decorated) last _ ends
    · trivial
    · exact ⟨_, ends⟩
  · exact fun _ stages => Idling.keeps_raise (idling_halfway stages)
      fun _ => idling_keeping fun _ _ => trivial
  · exact fun value _ _ passage => (idling_halfway [] value).stable passage.ofInterference
  · rintro (error | result) last _ ends
    · trivial
    · obtain ⟨_, decorating⟩ := ends
      exact decorating.stands

/-- Converting a value begins its decorating. -/
theorem keeps_convert {binding : Binding U} (wanted : Key)
    (may : start.MayConvert ⟨home.id, binding.recipe⟩ value.content)
    (decorating : start.Decorating id ⟨home.id, binding.recipe⟩ home binding.registered origin []
      stages value.content) :
    Request.Keeps rely Conduct.keeping id
      (Ends (fun converted moment => moment.Decorating id ⟨home.id, binding.recipe⟩ home
        binding.registered origin [] stages converted.content) fun _ _ => True)
      (binding.convert home.id wanted value) start := by
  unfold Binding.convert
  cases binding.cast with
  | none => exact Request.keeps_pure fun last passage _ => decorating.later passage.ofInterference
  | some cast =>
      by_cases produced : value.type = binding.recipe.produces
      · simp only [produced, if_true]
        refine Request.keeps_bind_call fun called passage _ => ?_
        refine ⟨may.mono passage.suffix, fun begun began later passage' _ content after returned => ?_⟩
        have decorating := decorating.later passage.ofInterference
        have calls : Passage rely id (fun event =>
            event.decorates home.id binding.recipe.id binding.registered = []) called begun :=
          .own (.refl _) began rfl
        have since : Passage rely id (fun event =>
            event.decorates home.id binding.recipe.id binding.registered = []) called after :=
          .own (calls.trans passage'.ofInterference) returned rfl
        refine ⟨trivial, Request.keeps_pure fun last passage _ => ?_⟩
        have converted := returned.did
        have decorating := decorating.after since
        exact Decorating.later { decorating with
          stands := .converted decorating.stands converted } passage.ofInterference
      · simp only [produced, if_false]
        exact Request.keeps_fail fun _ _ _ => trivial

/-- A fixed value is converted whenever it is asked for. -/
theorem keeps_convert_value {binding : Binding U} {content : Content U}
    (source : binding.recipe.source = .value content) (scope : ScopeId) (wanted : Key)
    (value : Value U) :
    Request.Keeps rely Conduct.keeping id
      (Ends (fun converted moment => moment.StandsFor ⟨scope, binding.recipe⟩ binding.registered
        value.content converted.content) fun _ _ => True)
      (binding.convert scope wanted value) start := by
  unfold Binding.convert
  cases binding.cast with
  | none => exact Request.keeps_pure fun _ _ _ => .same
  | some cast =>
      by_cases produced : value.type = binding.recipe.produces
      · simp only [produced, if_true]
        refine Request.keeps_bind_call fun called _ _ => ⟨fun make isFactory => ?_, ?_⟩
        · cases source.symm.trans isFactory
        · intro begun began later _ _ converted after returned
          refine ⟨trivial, Request.keeps_pure fun last passage _ => ?_⟩
          exact .converted .same (passage.suffix.mem returned.did)
      · simp only [produced, if_false]
        exact Request.keeps_fail fun _ _ _ => trivial

/-- Finishing what may be converted ends with a value that stands for it. -/
theorem keeps_finish_standing {binding : Binding U} (context : ContextId) (wanted : Key)
    {made : Value U} (may : start.MayConvert ⟨home.id, binding.recipe⟩ made.content)
    (decorating : start.Decorating id ⟨home.id, binding.recipe⟩ home binding.registered
      made.content [] stages made.content) :
    Request.Keeps rely Conduct.keeping id
      (Ends (fun value moment => moment.StandsFor ⟨home.id, binding.recipe⟩ binding.registered
        made.content value.content) fun _ _ => True)
      (finish home.id context wanted binding stages made) start := by
  refine Request.keeps_finish _ (keeps_convert wanted may decorating)
    (fun _ _ _ decorating => keeps_decorateAll decorating) ?_ fun _ _ _ stands => stands
  intro _ value moment stands
  refine (keeps_attending (only_attachCloser home.id context binding.recipe _)
    fun _ attending => attending).mono ?_
  rintro (error | _) last _ ⟨_, passage⟩
  · trivial
  · exact StandsFor.mono passage.suffix stands

end Requests

/-! ## Cells -/

section Cells

variable {rely : Conduct U} {id : RequestId} {start : Moment U}
  (within : ∀ moment entry, rely moment entry →
    (Conduct.orderly.and (Conduct.growing.and Conduct.keeping)) moment entry)

include within

/-- Lawful moments grow the tree of scopes as they should. -/
theorem Moment.Lawful.grow {moment : Moment U} (lawful : moment.Lawful rely) :
    moment.Lawful (Conduct.orderly.and Conduct.growing) :=
  lawful.mono fun _ _ allowed => ⟨(within _ _ allowed).1, (within _ _ allowed).2.1⟩

/-- Cells of lawful moments are sound. -/
theorem Moment.Lawful.cell {moment : Moment U} (lawful : moment.Lawful rely) (scope : ScopeId)
    (cell : CacheKey) : moment.CellSound scope cell :=
  lawful.cellSound (fun _ _ allowed => Conduct.settling_of_keeping (within _ _ allowed).2.2) ..

/-- What comes out of a cell was settled in it, for requests that do their duties when they enter
the cell and when they settle it. -/
theorem keeps_keepIf_through {duties : Duties U} {kept : Bool} {scope : ScopeId}
    {cell : CacheKey} {create : Request U (Value U)}
    (making : Request.Only Event.Making (fun _ => True) create)
    (enters : kept = true → ∀ (moment : Moment U) found, start.history <:+ moment.history →
      duties.enters moment scope cell found)
    (settles : kept = true → ∀ (moment : Moment U) outcome,
      duties.settles moment id scope cell outcome) :
    Request.Keeps rely duties.conduct id
      (Ends (fun value moment => kept = true → moment.Settled scope cell (.ok value))
        fun _ _ => True)
      (keepIf kept scope cell create) start := by
  have makes : ∀ begin, create.Keeps rely duties.conduct id (fun _ _ => True) begin :=
    fun begin => (making.keeps fun _ _ _ _ making => Duties.conduct_of_aside making.aside).mono
      fun _ _ _ _ => trivial
  refine Request.keeps_keepIf ?_ ?_ ?_ ?_
  · intro unkept
    refine (makes start).mono ?_
    rintro (error | value) _ _ _
    · trivial
    · exact fun isKept => absurd (unkept.symm.trans isKept) Bool.false_ne_true
  · exact fun isKept before found passage _ => enters isKept before found passage.suffix
  · intro _ before outcome after _ lawful recorded last passage _
    have settled := (lawful.cell within scope cell).filled
      (Operation.perform_enter_some recorded.state).1
    cases outcome with
    | error error => trivial
    | ok value => exact fun _ => settled.mono (recorded.suffix.trans passage.suffix)
  · intro isKept before after _ _ _
    refine (makes after).mono fun outcome settling _ _ => ⟨settles isKept settling outcome, ?_⟩
    intro settled recorded last passage _
    cases outcome with
    | error error => trivial
    | ok value => exact fun _ => ⟨id, passage.suffix.mem recorded.did⟩

/-- Through a cell a request gets what is known of the values that are settled there, whether it
fills the cell or somebody else did. -/
theorem keeps_keepIf_settled {kept : Bool} {scope : ScopeId} {cell : CacheKey}
    {create : Request U (Value U)} {good : Value U → Moment U → Prop}
    (plain : kept = false →
      Request.Keeps rely Conduct.keeping id (Ends good fun _ _ => True) create start)
    (known : kept = true → ∀ value moment, moment.Lawful rely → start.history <:+ moment.history →
      moment.Settled scope cell (.ok value) → good value moment)
    (making : Request.Only Event.Making (fun _ => True) create)
    (creates : kept = true → ∀ before after : Moment U, start.history <:+ before.history →
      before.Lawful rely → (∀ other, ¬ before.Entered other scope cell) →
        before.Records ⟨id, .performed (.enter scope cell) none⟩ after →
          Request.Keeps rely Conduct.keeping id
            (Ends (fun value moment => moment.Vouches scope value cell) fun _ _ => True)
            create after) :
    Request.Keeps rely Conduct.keeping id (Ends good fun _ _ => True)
      (keepIf kept scope cell create) start := by
  refine Request.keeps_keepIf plain (fun _ _ _ _ _ => trivial) ?_ ?_
  · intro isKept before outcome after passage lawful recorded last passage' lawful'
    have settled := (lawful.cell within scope cell).filled
      (Operation.perform_enter_some recorded.state).1
    have grown := recorded.suffix.trans passage'.suffix
    cases outcome with
    | error error => trivial
    | ok value =>
        exact known isKept value last lawful' (passage.suffix.trans grown) (settled.mono grown)
  · intro isKept before after passage lawful recorded
    have sound := lawful.cell within scope cell
    have nobody := sound.empty (Operation.perform_enter_none recorded.state).1
    have begins : after.Fills id scope cell := by
      refine ⟨recorded.did, fun outcome settled => ?_⟩
      exact nobody id (sound.settled (recorded.before settled nofun)).1
    refine (making.along (creates isKept before after passage.suffix lawful nobody
      recorded)).mono ?_
    rintro outcome settling _ ⟨ends, _, since⟩
    refine ⟨⟨⟨since.suffix.mem begins.entered, fun other did => ?_⟩, ?_⟩, ?_⟩
    · rcases since.did did with before | impossible
      · exact begins.unsettled other before
      · exact impossible
    · rintro value rfl
      exact ends
    · intro settled recorded' last passage' lawful'
      cases outcome with
      | error error => trivial
      | ok value =>
          have grown := passage.suffix.trans (recorded.suffix.trans
            (since.suffix.trans (recorded'.suffix.trans passage'.suffix)))
          exact known isKept value last lawful' grown ⟨id, passage'.suffix.mem recorded'.did⟩

/-- Through a cell a request gets what lasts: it is known of whatever is settled there, and if
nothing was, of what the request creates. -/
theorem keeps_keepIf_lasting {guar : Conduct U} {kept : Bool} {scope : ScopeId} {cell : CacheKey}
    {create : Request U (Value U)} {good : Value U → Moment U → Prop}
    {middle : Outcome U → Moment U → Prop}
    (enters : ∀ (moment : Moment U) found, guar moment ⟨id, .performed (.enter scope cell) found⟩)
    (lasts : ∀ {value moment next}, moment.history <:+ next.history → good value moment →
      good value next)
    (known : kept = true → ∀ (value : Value U) (moment : Moment U), moment.Lawful rely →
      start.history <:+ moment.history → moment.Settled scope cell (.ok value) → good value moment)
    (creates : (kept = true → ∀ outcome, ¬ start.Settled scope cell outcome) →
      ∀ moment, start.history <:+ moment.history →
        Request.Keeps rely guar id middle create moment)
    (settles : ∀ (outcome : Outcome U) (moment : Moment U), start.history <:+ moment.history →
      middle outcome moment → guar moment ⟨id, .performed (.settle scope cell outcome) ()⟩)
    (results : ∀ value moment, middle (.ok value) moment → good value moment) :
    Request.Keeps rely guar id (Ends good fun _ _ => True) (keepIf kept scope cell create)
      start := by
  refine Request.keeps_keepIf ?_ (fun _ before found _ _ => enters before found) ?_ ?_
  · intro unkept
    have creates := creates (fun isKept => by cases unkept.symm.trans isKept) start
      (List.suffix_refl _)
    refine creates.mono ?_
    rintro (error | value) last _ ends
    · trivial
    · exact results value last ends
  · intro isKept before outcome after passage lawful recorded last passage' lawful'
    have settled := (lawful.cell within scope cell).filled
      (Operation.perform_enter_some recorded.state).1
    have grown := recorded.suffix.trans passage'.suffix
    cases outcome with
    | error error => trivial
    | ok value =>
        exact known isKept value last lawful' (passage.suffix.trans grown) (settled.mono grown)
  · intro isKept before after passage lawful recorded
    have sound := lawful.cell within scope cell
    have nobody := sound.empty (Operation.perform_enter_none recorded.state).1
    have unsettled : ∀ outcome, ¬ start.Settled scope cell outcome := by
      rintro outcome ⟨other, did⟩
      exact nobody other (sound.settled (passage.suffix.mem did)).1
    have grown := passage.suffix.trans recorded.suffix
    refine (creates (fun _ => unsettled) after grown).grows.mono ?_
    rintro outcome settling _ ⟨grown', ends⟩
    refine ⟨settles outcome settling (grown.trans grown') ends, ?_⟩
    intro settled recorded' last passage' _
    cases outcome with
    | error error => trivial
    | ok value =>
        exact lasts (recorded'.suffix.trans passage'.suffix) (results value settling ends)

omit within in

/-- A service that is kept is not a list. -/
theorem Binding.Proper.not_list {key : Key} {binding : Binding U} (proper : binding.Proper key)
    (kept : binding.recipe.lifetime.isKept = true) (item : ServiceType) :
    binding.recipe.source ≠ .list item := by
  intro isList
  have lifetime := (proper.list (by rw [Recipe.isList, isList])).1
  rw [lifetime] at kept
  cases kept

/-- What is known of an instance that is ready to be finished. -/
structure Moment.Prepared (moment : Moment U) (binding : Binding U) (home : Scope U)
    (arguments : List (Argument U)) (made : Value U) : Prop where
  isMade : moment.Made ⟨home.id, binding.recipe⟩ arguments made
  type : made.type = binding.recipe.produces
  kept : binding.recipe.lifetime.isKept = true →
    moment.Settled home.id (.made binding.recipe.id) (.ok made)

section Produce

variable {key : Key} {binding : Binding U} {home : Scope U} {inputs : Inputs U}

/-- An instance that its cell holds is prepared. -/
theorem Moment.Lawful.prepared {moment : Moment U} (lawful : moment.Lawful rely)
    (homes : moment.Homes key binding home) {made : Value U}
    (kept : binding.recipe.lifetime.isKept = true)
    (settled : moment.Settled home.id (.made binding.recipe.id) (.ok made)) :
    moment.Prepared binding home inputs.arguments made := by
  obtain ⟨recipe, other, same, _, houses, type, made⟩ :=
    lawful.vouched (fun _ _ allowed => (within _ _ allowed).2.2) settled
  obtain ⟨_, isRecipe⟩ :=
    homes.houses.unique (lawful.grow within) houses rfl same.symm kept
  have isRecipe : binding.recipe = recipe := isRecipe
  subst isRecipe
  exact ⟨⟨made, fun item isList => absurd isList (homes.proper.not_list kept item)⟩, type,
    fun _ => settled⟩

/-- As long as nobody entered the cell of an instance it was not constructed. -/
theorem Moment.Homes.not_constructed {before : Moment U} (homes : start.Homes key binding home)
    (lawful : before.Lawful rely) (grows : start.history <:+ before.history)
    (nobody : ∀ other, ¬ before.Entered other home.id (.made binding.recipe.id))
    (kept : binding.recipe.lifetime.isKept = true) {other : RequestId} {recipe : Recipe U}
    {make : U.Constructor} {arguments : List (Argument U)} (same : recipe.id = binding.recipe.id) :
    ¬ before.Did other (.called (.construct ⟨home.id, recipe⟩ make arguments)) := by
  intro called
  obtain ⟨⟨_, houses⟩, entered⟩ :=
    lawful.constructed (fun _ _ allowed => (within _ _ allowed).2.2) called
  obtain ⟨_, isRecipe⟩ :=
    (homes.mono grows).houses.unique (lawful.grow within) houses rfl same.symm kept
  have isRecipe : binding.recipe = recipe := isRecipe
  have entered := entered (isRecipe ▸ kept)
  rw [show (Site.recipe ⟨home.id, recipe⟩).id = _ from same] at entered
  exact nobody other entered

/-- Whoever enters the cell of an instance may construct it. -/
theorem Moment.Homes.mayConstruct {before after : Moment U} (homes : start.Homes key binding home)
    (suit : inputs.Suit (start.Yields home) binding home (Recalls id home.id binding.recipe start))
    (grows : start.history <:+ before.history) (lawful : before.Lawful rely)
    (nobody : ∀ other, ¬ before.Entered other home.id (.made binding.recipe.id))
    (recorded : before.Records
      ⟨id, .performed (.enter home.id (.made binding.recipe.id)) none⟩ after)
    (kept : binding.recipe.lifetime.isKept = true) :
    after.MayConstruct id ⟨home.id, binding.recipe⟩ inputs.arguments home := by
  have grown := grows.trans recorded.suffix
  refine ⟨(homes.mono grown).houses, ?_, fun _ => recorded.did, ?_, ?_⟩
  · rcases suit.arguments with ⟨_, outcome, peeked⟩ | fits
    · have settles : ∀ moment entry, rely moment entry → Conduct.settling moment entry :=
        fun _ _ allowed => Conduct.settling_of_keeping (within _ _ allowed).2.2
      obtain ⟨other, settled⟩ := lawful.peeked settles (grows.mem peeked)
      exact absurd ((lawful.cell within _ _).settled settled).1 (nobody other)
    · exact fits.imp fun _ _ fit => fit.mono fun _ _ => Yields.mono grown
  · intro _ recipe make arguments same called
    exact homes.not_constructed within lawful grows nobody kept same (recorded.before called nofun)
  · intro _ recipe make arguments answer same returned
    rcases recorded.did_iff.mp returned with ⟨_, now⟩ | before
    · cases now
    · have called := lawful.returned (fun _ _ allowed => (within _ _ allowed).2.2) before
      exact homes.not_constructed within lawful grows nobody kept same called

/-- Making an instance, by its cell if it is kept, prepares it. -/
theorem keeps_prepare (context : ContextId) (homes : start.Homes key binding home)
    (suit : inputs.Suit (start.Yields home) binding home
      (Recalls id home.id binding.recipe start)) :
    Request.Keeps rely Conduct.keeping id
      (Ends (fun made moment => moment.Prepared binding home inputs.arguments made)
        fun _ _ => True)
      (keepIf binding.recipe.lifetime.isKept home.id (.made binding.recipe.id)
        (construct home.id context binding.recipe inputs.arguments inputs.flag
          binding.cast.isSome)) start := by
  have makes := only_construct home.id context binding.recipe inputs.arguments inputs.flag
    binding.cast.isSome
  refine keeps_keepIf_settled within ?_ ?_ (makes.mono (fun _ making => making) fun _ _ => trivial) ?_
  · intro unkept
    have fits : List.Forall₂ (Fits (start.Yields home)) binding.recipe.params
        inputs.arguments := by
      rcases suit.arguments with ⟨kept, _⟩ | fits
      · rw [unkept] at kept
        cases kept
      · exact fits
    have may : start.MayConstruct id ⟨home.id, binding.recipe⟩ inputs.arguments home := by
      refine ⟨homes.houses, fits, fun kept => ?_, fun kept => ?_, fun kept => ?_⟩
      · cases unkept.symm.trans kept
      · cases unkept.symm.trans kept
      · cases unkept.symm.trans kept
    refine (makes.along (keeps_construct_once context inputs.flag _ may)).mono ?_
    rintro (error | value) moment _ ⟨made, isMade, _⟩
    · trivial
    · exact ⟨made, isMade.type trivial value rfl, fun kept => by cases unkept.symm.trans kept⟩
  · exact fun kept value moment lawful grows settled =>
      lawful.prepared within (homes.mono grows) kept settled
  · intro kept before after grows lawful nobody recorded
    have may := homes.mayConstruct within suit grows lawful nobody recorded kept
    refine (makes.along (keeps_construct_once context inputs.flag _ may)).mono ?_
    rintro (error | value) moment _ ⟨made, isMade, since⟩
    · trivial
    · refine ⟨binding.recipe, home, rfl, kept, ?_, isMade.type trivial value rfl, made.constructed⟩
      exact (homes.mono (grows.trans (recorded.suffix.trans since.suffix))).houses

omit within in

theorem Inputs.Suit.later {moment next : Moment U}
    (suit : inputs.Suit (moment.Yields home) binding home (Recalls id home.id binding.recipe moment))
    (grows : moment.history <:+ next.history) :
    inputs.Suit (next.Yields home) binding home (Recalls id home.id binding.recipe next) :=
  suit.mono (fun _ _ => Yields.mono grows) fun ⟨outcome, peeked⟩ => ⟨outcome, grows.mem peeked⟩

/-- What is known of the value that is shown for a key. -/
structure Moment.Finished (moment : Moment U) (binding : Binding U) (home : Scope U)
    (arguments : List (Argument U)) (value : Value U) : Prop where
  type : value.type = binding.registered.type
  kept : binding.recipe.lifetime.isKept = true →
    moment.Settled home.id (.shown binding.recipe.id binding.registered) (.ok value)
  list : ∀ item, binding.recipe.source = .list item →
    moment.StandsFor ⟨home.id, binding.recipe⟩ binding.registered
      (.list (itemsOf item arguments)) value.content

omit within in
/-- Before an instance is decorated, no decorator was applied to it. -/
theorem Moment.Prepared.decorating {made : Value U} (homes : start.Homes key binding home)
    (suit : inputs.Suit (start.Yields home) binding home
      (Recalls id home.id binding.recipe start))
    (entered : binding.recipe.lifetime.isKept = true →
      start.Entered id home.id (.shown binding.recipe.id binding.registered) ∧
        decorationsBy start.history id home.id binding.recipe.id binding.registered = []) :
    start.Decorating id ⟨home.id, binding.recipe⟩ home binding.registered made.content []
      inputs.stages made.content where
  houses := homes.houses
  decorators := suit.decorators.symm
  fits := suit.stages
  entered := fun kept => (entered kept).1
  applied := fun kept => (entered kept).2
  stands := .same

omit within in

/-- A prepared instance may be converted. -/
theorem Moment.Prepared.mayConvert {made : Value U}
    (prepared : start.Prepared binding home inputs.arguments made) :
    start.MayConvert ⟨home.id, binding.recipe⟩ made.content :=
  fun make isFactory => prepared.isMade.constructed make isFactory

omit within in

theorem Moment.Prepared.mono {moment next : Moment U} {made : Value U}
    (prepared : moment.Prepared binding home inputs.arguments made)
    (grows : moment.history <:+ next.history) : next.Prepared binding home inputs.arguments made :=
  ⟨prepared.isMade.mono grows, prepared.type, fun kept => (prepared.kept kept).mono grows⟩

omit within in

/-- The stages that were resolved decorate the key of the binding. -/
theorem Inputs.Suit.targets {yields : Key → Value U → Prop} {recalled : Prop}
    (suit : inputs.Suit yields binding home recalled) :
    ∀ stage ∈ inputs.stages, stage.decorator.target = binding.registered :=
  targets_of_decorators suit.decorators

/-- Whoever enters the cell of a key applied no decorator for it yet. -/
theorem Moment.Homes.decorationsBy_eq_nil {before after : Moment U}
    (homes : before.Homes key binding home) (lawful : before.Lawful rely)
    (nobody : ∀ other,
      ¬ before.Entered other home.id (.shown binding.recipe.id binding.registered))
    (recorded : before.Records
      ⟨id, .performed (.enter home.id (.shown binding.recipe.id binding.registered)) none⟩ after)
    (kept : binding.recipe.lifetime.isKept = true) :
    decorationsBy after.history id home.id binding.recipe.id binding.registered = [] := by
  rw [List.eq_nil_iff_forall_not_mem]
  intro transform member
  obtain ⟨site, content, arguments, isScope, isRecipe, did⟩ := exists_of_mem_decorationsBy member
  rcases recorded.did_iff.mp did with ⟨_, now⟩ | earlier
  · cases now
  · obtain ⟨⟨other, houses⟩, entered⟩ :=
      lawful.decorated (fun _ _ allowed => (within _ _ allowed).2.2) earlier
    obtain ⟨_, sameRecipe⟩ :=
      homes.houses.unique (lawful.grow within) houses isScope.symm isRecipe.symm kept
    have sameRecipe : binding.recipe = site.recipe := sameRecipe
    have entered := entered (sameRecipe ▸ kept)
    rw [isScope, isRecipe] at entered
    exact nobody id entered

/-- Showing a prepared instance, by the cell of its key if it is kept, finishes it. -/
theorem keeps_show (context : ContextId) (wanted : Key) {made : Value U}
    (homes : start.Homes key binding home)
    (suit : inputs.Suit (start.Yields home) binding home
      (Recalls id home.id binding.recipe start))
    (prepared : start.Prepared binding home inputs.arguments made) :
    Request.Keeps rely Conduct.keeping id
      (Ends (fun value moment => moment.Finished binding home inputs.arguments value)
        fun _ _ => True)
      (keepIf binding.recipe.lifetime.isKept home.id
        (.shown binding.recipe.id binding.registered)
        (finish home.id context wanted binding inputs.stages made)) start := by
  have finishes := only_finish home.id context wanted binding inputs.stages made
  have typed : (∀ stage ∈ inputs.stages, stage.decorator.target.type = binding.registered.type) ∧
      (binding.cast = none → made.type = binding.registered.type) :=
    ⟨fun stage member => by rw [suit.targets stage member],
      fun uncast => prepared.type.trans (homes.proper.produces uncast)⟩
  refine keeps_keepIf_settled within ?_ ?_
    (finishes.mono (fun _ making => making) fun _ _ => trivial) ?_
  · intro unkept
    have decorating : start.Decorating id ⟨home.id, binding.recipe⟩ home binding.registered
        made.content [] inputs.stages made.content := by
      refine Prepared.decorating homes suit fun kept => ?_
      cases unkept.symm.trans kept
    refine (finishes.along (keeps_finish_standing context wanted (prepared.mayConvert)
      decorating)).mono ?_
    rintro (error | value) moment _ ⟨stands, isFinished, _⟩
    · trivial
    · refine ⟨isFinished.type typed value rfl, fun kept => ?_, fun item isList => ?_⟩
      · cases unkept.symm.trans kept
      · rw [← prepared.isMade.list item isList]
        exact stands
  · intro kept value moment lawful _ settled
    obtain ⟨type, _⟩ := lawful.vouched (fun _ _ allowed => (within _ _ allowed).2.2) settled
    exact ⟨type, fun _ => settled, fun item isList =>
      absurd isList (homes.proper.not_list kept item)⟩
  · intro kept before after grows lawful nobody recorded
    have grown := grows.trans recorded.suffix
    have suit := suit.later grown
    have decorating : after.Decorating id ⟨home.id, binding.recipe⟩ home binding.registered
        made.content [] inputs.stages made.content := by
      refine Prepared.decorating (homes.mono grown) suit fun _ => ⟨?_, ?_⟩
      · exact recorded.did
      · exact (homes.mono grows).decorationsBy_eq_nil within lawful nobody recorded kept
    have may := (prepared.mono grown).mayConvert
    refine (finishes.along (keeps_finish_standing context wanted may decorating)).mono ?_
    rintro (error | value) moment _ ⟨stands, isFinished, since⟩
    · trivial
    · have grown := grown.trans since.suffix
      exact ⟨isFinished.type typed value rfl, binding.recipe, home, made, rfl, kept,
        (homes.mono grown).houses, (prepared.kept kept).mono grown, stands⟩

omit within in

/-- A key has one binding and one home. -/
theorem Scope.Finds.unique {scope other : Scope U} {found : Binding U}
    (finds : scope.Finds key binding home) (finds' : scope.Finds key found other) :
    found = binding ∧ other = home := by
  have bindings := Option.some.inj (finds'.bound.symm.trans finds.bound)
  subst bindings
  exact ⟨rfl, Option.some.inj (finds'.home.symm.trans finds.home)⟩

omit within in

/-- A finished value is what its key yields. -/
theorem Moment.Finished.yields {moment : Moment U} {scope : Scope U} {value : Value U}
    (finished : moment.Finished binding home inputs.arguments value)
    (finds : scope.Finds key binding home) (proper : binding.Proper key)
    (suit : inputs.Suit (moment.Yields home) binding home
      (Recalls id home.id binding.recipe moment)) : moment.Yields scope key value where
  type := finished.type.trans proper.type
  shares := by
    intro found other finds' kept
    obtain ⟨rfl, rfl⟩ := finds.unique finds'
    exact finished.kept kept
  collects := by
    intro found other item finds' isList
    obtain ⟨rfl, rfl⟩ := finds.unique finds'
    rcases suit.arguments with ⟨kept, _⟩ | fits
    · exact absurd isList (proper.not_list kept item)
    · exact ⟨inputs.arguments, fits.imp fun _ _ fit => fit.mono fun _ _ yields => yields.shares,
        finished.list item isList⟩

end Produce

omit within in

/-- The home of a service of a scope is a scope. -/
theorem Moment.IsScope.home {moment : Moment U} {scope home : Scope U} {binding : Binding U}
    (lawful : moment.Lawful (Conduct.orderly.and Conduct.growing)) (isScope : moment.IsScope scope)
    (isHome : binding.home? scope = some home) : moment.IsScope home := by
  unfold Binding.home? at isHome
  cases lifetime : binding.recipe.lifetime with
  | singleton =>
      rw [lifetime] at isHome
      exact isScope.ancestor lawful isHome
  | perScope =>
      simp only [lifetime, Option.ite_none_left_eq_some, Option.some.injEq] at isHome
      exact isHome.2 ▸ isScope
  | transient =>
      rw [lifetime] at isHome
      exact Option.some.inj isHome ▸ isScope

omit within in

/-- A key that is found in a scope has its home there. -/
theorem Moment.IsScope.homes {moment : Moment U} {scope home : Scope U} {binding : Binding U}
    {key : Key} (lawful : moment.Lawful (Conduct.orderly.and Conduct.growing))
    (isScope : moment.IsScope scope) (finds : scope.Finds key binding home) :
    moment.Homes key binding home := by
  have built := (isScope.grown lawful).built
  have leads : scope.Leads key ⟨home, binding⟩ := ⟨finds.bound, finds.home⟩
  exact ⟨isScope.home lawful finds.home, (leads.atHome built).bound, built.sound.proper finds.bound⟩

/-- Requests for keys yield what is kept, or keep what they make. -/
def safekeeping {origin : Moment U}
    (lawful : origin.Lawful (Conduct.orderly.and Conduct.growing)) (id : RequestId) :
    Upkeep rely Conduct.keeping id where
  holds := fun moment => origin.history <:+ moment.history
  among := origin.IsScope
  yields := Moment.Yields
  failed := fun _ _ _ _ _ => True
  stable := Moment.stable_suffix rely origin id
  harmless := fun _ _ _ idle => idle.keeping
  ancestor := @IsScope.ancestor _ _ lawful
  lasts := fun grows => Yields.mono grows
  plain := fun _ _ => trivial
  cycle := fun _ _ _ => trivial
  dependency := fun _ _ _ _ => trivial
  recalled := by
    intro moment next scope key binding home outcome _ isScope finds kept lawful' grown found
      passage _
    have settled := (lawful'.cell within _ _).filled (State.kept?_eq_some.mp found)
    have homes := (isScope.homes lawful finds).mono grown
    cases outcome with
    | error error => trivial
    | ok value =>
        obtain ⟨type, _⟩ := lawful'.vouched (fun _ _ allowed => (within _ _ allowed).2.2) settled
        refine ⟨type.trans homes.proper.type, ?_, ?_⟩
        · intro other above finds' _
          obtain ⟨rfl, rfl⟩ := finds.unique finds'
          exact settled.mono passage.suffix
        · intro other above item finds' isList
          obtain ⟨rfl, rfl⟩ := finds.unique finds'
          exact absurd isList (homes.proper.not_list kept item)
  convert := by
    intro start scope key binding content _ isScope bound source _ grown
    have proper := ((isScope.grown lawful).built.sound).proper bound
    have isValue : binding.IsValue := ⟨content, source⟩
    have converts := only_convert binding scope.id key { type := binding.recipe.produces, content }
    refine (converts.along (keeps_convert_value source scope.id key _)).mono ?_
    rintro (error | value) moment _ ⟨_, converted, passage⟩
    · trivial
    · refine ⟨grown.trans passage.suffix, ?_, ?_, ?_⟩
      · exact (converted.type proper.produces value rfl).trans proper.type
      · intro found home finds
        rw [Option.some.inj (finds.bound.symm.trans bound)] at finds
        exact absurd isValue finds.made
      · intro found home item finds
        rw [Option.some.inj (finds.bound.symm.trans bound)] at finds
        exact absurd isValue finds.made
  produce := by
    intro start scope key binding home inputs context _ isScope finds _ grown suit
    have homes := (isScope.homes lawful finds).mono grown
    refine Request.keeps_bind (keeps_prepare within context homes suit).grows ?_ ?_
    · exact fun _ _ _ _ => trivial
    rintro made moment _ ⟨grown', prepared⟩
    have suit := suit.later grown'
    refine (keeps_show within context key (homes.mono grown') suit prepared).grows.mono ?_
    rintro (error | value) last _ ⟨grown'', finished⟩
    · trivial
    · exact ⟨grown.trans (grown'.trans grown''),
        Finished.yields finished finds homes.proper (suit.later grown'')⟩

/-- All requests keep to the conduct. -/
theorem kept_keeping : Conduct.Kept rely Conduct.keeping := by
  refine .ofResolving (fun _ _ _ => trivial) Conduct.keeping_of_tending ?_ ?_
  · rintro moment id demand (error | reply) began other
    · trivial
    cases reply with
    | resolved value =>
        exact ⟨demand, began, fun scope key asks => absurd asks.resolves other⟩
    | built _ => trivial
    | invoked _ => trivial
    | nothing => trivial
  · intro moment id demand after lawful orderly recorded resolves
    have began : after.Did id (.started demand) := recorded.did
    obtain ⟨origin, named⟩ := (lawful.grow within).starts orderly recorded
    refine ((safekeeping within origin id).asking resolves named (List.suffix_refl _)).mono ?_
    rintro (error | reply) last _ ends
    · trivial
    · obtain ⟨grown, ⟨value, rfl, yields⟩ | ⟨_, rfl⟩⟩ := ends
      · have grown : after.history <:+ last.history := grown
        exact ⟨demand, grown.mem began, yields⟩
      · trivial

end Cells

/-- In every reachable activity all requests keep what they make. -/
theorem Activity.Reachable.keeping {activity : Activity U} (reachable : activity.Reachable) :
    activity.moment.Lawful (Conduct.orderly.and (Conduct.growing.and Conduct.keeping)) :=
  reachable.lawful (kept_growing.and (kept_keeping fun _ _ allowed => allowed))

/-- What a request was answered is a value that the scope yields for its key. -/
theorem Moment.Lawful.yielded {moment : Moment U}
    (lawful : moment.Lawful (Conduct.orderly.and (Conduct.growing.and Conduct.keeping)))
    {id : RequestId} {demand : Demand U} {scope : Scope U} {key : Key} {value : Value U}
    (began : moment.Did id (.started demand)) (asks : demand.Asks scope key)
    (ended : moment.Did id (.finished (.ok (.resolved value)))) :
    moment.Yields scope key value := by
  obtain ⟨before, _, grows, _, _, other, began', yields⟩ := lawful.allowed ended
  obtain rfl := (lawful.mono fun _ _ all => all.1).started_once began (grows.mem began')
  exact (yields scope key asks).mono grows

end Provision
