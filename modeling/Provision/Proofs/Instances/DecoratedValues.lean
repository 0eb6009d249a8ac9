import Provision.Proofs.Instances.MadeOnce
import Provision.Proofs.Instances.ValueResidence

/-!
# Decorators that were applied

Before a scope shows a value for a key, each decorator of the key is applied to it, once and in the
order of registration, the first to the instance or what it was converted to and each other one to
what the one before it returned.  Nobody applies any of them a second time.

Main statement: `Lawful.dressed_once`.
-/

namespace Provision

open Moment

variable {U : Client}

/-- What became of an instance for a key by converting it and then applying decorators, in order. -/
inductive Moment.Dressed (moment : Moment U) (site : Site U) (key : Key) (origin : Content U) :
    List U.Transform → Content U → Prop where
  | same : Dressed moment site key origin [] origin
  | converted {id : RequestId} {cast : U.Cast} {content : Content U}
      (did : moment.Did id (.returned (.convert site key cast origin) content)) :
      Dressed moment site key origin [] content
  | decorated {id : RequestId} {transforms : List U.Transform} {transform : U.Transform}
      {content decorated : Content U} {arguments : List (Argument U)}
      (before : Dressed moment site key origin transforms content)
      (did : moment.Did id (.returned (.decorate site key transform content arguments)
        (.ok decorated))) :
      Dressed moment site key origin (transforms ++ [transform]) decorated

theorem Moment.Dressed.mono {moment next : Moment U} {site : Site U} {key : Key}
    {origin content : Content U} {transforms : List U.Transform}
    (dressed : moment.Dressed site key origin transforms content)
    (grows : moment.history <:+ next.history) :
    next.Dressed site key origin transforms content := by
  induction dressed with
  | same => exact .same
  | converted did => exact .converted (grows.mem did)
  | decorated _ did ih => exact .decorated ih (grows.mem did)

/-- A value to show for a key of a recipe: the instance that is kept, converted, and decorated by
all decorators of the key, which are all that a request applied for it. -/
structure Moment.Finery (moment : Moment U) (id : RequestId) (site : Site U) (home : Scope U)
    (key : Key) (value : Value U) : Prop where
  houses : moment.Houses site home
  kept : site.recipe.lifetime.isKept = true
  entered : moment.Entered id site.scope (.shown site.recipe.id key)
  applied : decorationsBy moment.history id site.scope site.recipe.id key =
    ((home.registry.decoratorsOf key).map Decorator.transform).reverse
  dressed : ∃ made, moment.Settled site.scope (.made site.recipe.id) (.ok made) ∧
    moment.Dressed site key made.content
      ((home.registry.decoratorsOf key).map Decorator.transform) value.content

/-- What is filled in for a key was decorated by all decorators of the key. -/
def Conduct.dressing : Conduct U :=
  Duties.conduct {
    settles := fun moment id scope cell outcome =>
      match cell, outcome with
      | .shown recipe key, .ok value => ∃ site home, site.scope = scope ∧
          site.recipe.id = recipe ∧ moment.Finery id site home key value
      | _, _ => True }

/-! ## Applying decorators -/

section Applying

variable {rely : Conduct U} {id : RequestId} {start moment next : Moment U} {site : Site U}
  {key : Key} {origin : Content U} {transforms : List U.Transform}

/-- Events that attend decorate nothing. -/
theorem Event.Attending.decorates {event : Event U} (attending : event.Attending) (scope : ScopeId)
    (recipe : RecipeId) : event.decorates scope recipe key = [] := by
  cases event with
  | called call => cases call <;> first | rfl | exact attending.elim
  | performed operation answer => rfl
  | returned call answer => rfl
  | started demand => rfl
  | finished reply => rfl

/-- What a request knows while it decorates a value: what it applied so far made the value. -/
structure Moment.Wears (moment : Moment U) (id : RequestId) (site : Site U) (key : Key)
    (origin : Content U) (transforms : List U.Transform) (content : Content U) : Prop where
  dressed : moment.Dressed site key origin transforms content
  applied : decorationsBy moment.history id site.scope site.recipe.id key = transforms.reverse

theorem Moment.Wears.after {content : Content U}
    (wears : moment.Wears id site key origin transforms content)
    (passage : Passage rely id (fun event => event.decorates site.scope site.recipe.id key = [])
      moment next) : next.Wears id site key origin transforms content where
  dressed := wears.dressed.mono passage.suffix
  applied := (passage.decorationsBy fun _ plain => plain).trans wears.applied

theorem Moment.Wears.later {content : Content U}
    (wears : moment.Wears id site key origin transforms content)
    (passage : Passage rely id Event.Idle moment next) :
    next.Wears id site key origin transforms content :=
  wears.after (passage.mono fun _ idle => idle.decorates _ _)

/-- Applying a decorator puts it on. -/
theorem keeps_apply_wears {stage : Stage U} {value : Value U}
    (isTarget : stage.decorator.target = key)
    (wears : start.Wears id site key origin transforms value.content) :
    Request.Keeps rely Conduct.dressing id
      (Ends (fun decorated moment => moment.Wears id site key origin
        (transforms ++ [stage.decorator.transform]) decorated.content) fun _ _ => True)
      (stage.apply site value) start := by
  unfold Stage.apply
  by_cases typed : value.type = stage.decorator.target.type
  · simp only [typed, if_true]
    have takes := (only_takeAll stage.decorator.params stage.arguments).mono
      (fun _ taking => taking.idle) fun _ reached => reached
    refine Request.keeps_bind (takes.keeps fun _ _ _ _ idle =>
      Duties.conduct_of_aside idle.making.aside) (fun _ _ _ _ => trivial) ?_
    rintro _ taken _ ⟨_, passage⟩
    have wears := wears.later passage
    rw [isTarget]
    refine Request.keeps_bind_call fun called passage _ => ?_
    have wears := wears.later passage.ofInterference
    refine ⟨trivial, fun begun began later passage' _ answer after returned => ⟨trivial, ?_⟩⟩
    cases answer with
    | error failure => exact Request.keeps_fail fun _ _ _ => trivial
    | ok content =>
        have since : Passage rely id
            (fun event => event.decorates site.scope site.recipe.id key = []) begun after :=
          .own passage'.ofInterference returned rfl
        have worn : after.Wears id site key origin
            (transforms ++ [stage.decorator.transform]) content := by
          refine ⟨?_, ?_⟩
          · exact .decorated (wears.dressed.mono (began.suffix.trans since.suffix))
              returned.did
          · rw [since.decorationsBy fun _ plain => plain]
            have applied := wears.applied
            unfold decorationsBy at applied ⊢
            rw [began.history, List.flatMap_cons, applied, if_pos rfl]
            simp [Event.decorates]
        exact Request.keeps_pure fun last passage _ => worn.later passage.ofInterference
  · simp only [typed, if_false]
    exact Request.keeps_fail fun _ _ _ => trivial

/-- What is known besides while a value is decorated: the decorators to come are those of the key,
and they complete the transforms. -/
def Moment.Donning (moment : Moment U) (id : RequestId) (site : Site U) (key : Key)
    (origin : Content U) (all : List U.Transform) (stages : List (Stage U)) (value : Value U) :
    Prop :=
  (∀ stage ∈ stages, stage.decorator.target = key) ∧
    ∃ transforms, transforms ++ stages.map (fun stage => stage.decorator.transform) = all ∧
      moment.Wears id site key origin transforms value.content

/-- An idle request stays between two decorators. -/
theorem idling_donning {all : List U.Transform} (stages : List (Stage U)) (value : Value U) :
    Idling rely Conduct.dressing id
      fun moment => moment.Donning id site key origin all stages value where
  stable := fun passage ⟨targets, transforms, complete, wears⟩ =>
    ⟨targets, transforms, complete, wears.later passage⟩
  harmless := fun _ _ _ idle => Duties.conduct_of_aside idle.making.aside

/-- Applying all decorators puts them on in order. -/
theorem keeps_decorateAll_wears {stages : List (Stage U)} {value : Value U}
    (targets : ∀ stage ∈ stages, stage.decorator.target = key)
    (wears : start.Wears id site key origin transforms value.content) :
    Request.Keeps rely Conduct.dressing id
      (Ends (fun result moment => moment.Wears id site key origin
        (transforms ++ stages.map fun stage => stage.decorator.transform) result.content)
          fun _ _ => True)
      (decorateAll site stages value) start := by
  refine (Request.keeps_decorateAll
    (fun left value moment => moment.Donning id site key origin
      (transforms ++ stages.map fun stage => stage.decorator.transform) left value)
    (fun _ _ => True) ?_ ?_ ?_ ⟨targets, transforms, rfl, wears⟩).mono ?_
  · rintro stage left value moment ⟨targets, before, complete, wears⟩
    refine (keeps_apply_wears (targets stage List.mem_cons_self) wears).mono ?_
    rintro (error | decorated) last _ worn
    · trivial
    · refine ⟨fun other member => targets other (List.mem_cons_of_mem _ member), _, ?_, worn⟩
      rw [← complete, List.map_cons, List.append_assoc, List.singleton_append]
  · exact fun _ left => Idling.keeps_raise (idling_donning left)
      fun _ => .of_lasting (fun _ _ => trivial) fun _ _ idle =>
        Duties.conduct_of_aside idle.making.aside
  · exact fun value _ _ passage => (idling_donning [] value).stable passage.ofInterference
  · rintro (error | result) last _ ends
    · trivial
    · obtain ⟨_, all, complete, wears⟩ := ends
      rw [List.map_nil, List.append_nil] at complete
      exact complete ▸ wears

/-- A converted value wears nothing yet. -/
theorem keeps_convert_wears {binding : Binding U} {home : ScopeId} (wanted : Key) {made : Value U}
    (none : decorationsBy start.history id home binding.recipe.id binding.registered = []) :
    Request.Keeps rely Conduct.dressing id
      (Ends (fun converted moment => moment.Wears id ⟨home, binding.recipe⟩ binding.registered
        made.content [] converted.content) fun _ _ => True)
      (binding.convert home wanted made) start := by
  have bare : start.Wears id ⟨home, binding.recipe⟩ binding.registered made.content []
      made.content := ⟨.same, none⟩
  unfold Binding.convert
  cases binding.cast with
  | none => exact Request.keeps_pure fun last passage _ => bare.later passage.ofInterference
  | some cast =>
      by_cases produced : made.type = binding.recipe.produces
      · simp only [produced, if_true]
        refine Request.keeps_bind_call fun called passage _ => ⟨trivial, ?_⟩
        intro begun began later passage' _ content after returned
        have bare := bare.later passage.ofInterference
        have calls : Passage rely id (fun event =>
            event.decorates home binding.recipe.id binding.registered = []) called begun :=
          .own (.refl _) began rfl
        have since : Passage rely id (fun event =>
            event.decorates home binding.recipe.id binding.registered = []) called after :=
          .own (calls.trans passage'.ofInterference) returned rfl
        refine ⟨trivial, Request.keeps_pure fun last passage _ => ?_⟩
        have converted : after.Wears id ⟨home, binding.recipe⟩ binding.registered made.content []
            content :=
          ⟨.converted returned.did, (bare.after since).applied⟩
        exact converted.later passage.ofInterference
      · simp only [produced, if_false]
        exact Request.keeps_fail fun _ _ _ => trivial

end Applying

/-! ## Filling in what is shown -/

section Cells

variable {rely : Conduct U} {id : RequestId} {start : Moment U}
  (within : ∀ moment entry, rely moment entry →
    (Conduct.orderly.and (Conduct.growing.and Conduct.keeping)) moment entry)
  {scope home : Scope U} {key : Key} {binding : Binding U} {inputs : Inputs U}

include within

omit within in

/-- Finishing an instance dresses it in all decorators, in order. -/
theorem keeps_finish_wears (context : ContextId) (wanted : Key) {made : Value U}
    (targets : ∀ stage ∈ inputs.stages, stage.decorator.target = binding.registered)
    (none : decorationsBy start.history id home.id binding.recipe.id binding.registered = []) :
    Request.Keeps rely Conduct.dressing id
      (Ends (fun value moment => moment.Wears id ⟨home.id, binding.recipe⟩ binding.registered
        made.content (inputs.stages.map fun stage => stage.decorator.transform) value.content)
          fun _ _ => True)
      (finish home.id context wanted binding inputs.stages made) start := by
  refine Request.keeps_finish _ (keeps_convert_wears wanted none)
    (fun _ _ _ wears => keeps_decorateAll_wears targets wears) ?_ fun _ _ _ wears => wears
  intro _ value moment wears
  refine ((only_attachCloser home.id context binding.recipe _).keeps fun _ _ _ _ attending =>
    Duties.conduct_of_aside attending.making.aside).mono ?_
  rintro (error | _) last _ ⟨_, passage⟩
  · trivial
  · exact wears.after (passage.mono fun _ attending => attending.decorates _ _)

/-- Whoever fills in what is shown applied all decorators to it. -/
theorem keeps_show_wears (context : ContextId) (wanted : Key) {made : Value U}
    (homes : start.Homes key binding home)
    (decorators : inputs.stages.map Stage.decorator = home.registry.decoratorsOf binding.registered)
    (instanced : binding.recipe.lifetime.isKept = true →
      start.Settled home.id (.made binding.recipe.id) (.ok made)) :
    Request.Keeps rely Conduct.dressing id (fun _ _ => True)
      (keepIf binding.recipe.lifetime.isKept home.id
        (.shown binding.recipe.id binding.registered)
        (finish home.id context wanted binding inputs.stages made)) start := by
  have finishes := only_finish home.id context wanted binding inputs.stages made
  have targets := targets_of_decorators decorators
  have transforms : (inputs.stages.map fun stage => stage.decorator.transform) =
      (home.registry.decoratorsOf binding.registered).map Decorator.transform := by
    rw [← decorators, List.map_map]
    rfl
  refine Request.keeps_keepIf ?_ (fun _ _ _ _ _ => trivial) (fun _ _ _ _ _ _ _ _ _ _ => trivial) ?_
  · exact fun _ => (finishes.keeps fun _ _ _ _ making =>
      Duties.conduct_of_aside making.aside).mono fun _ _ _ _ => trivial
  · intro kept before after passage lawful recorded
    have cell := lawful.cell within home.id (.shown binding.recipe.id binding.registered)
    have nobody := cell.empty (Operation.perform_enter_none recorded.state).1
    have bare := (homes.mono passage.suffix).decorationsBy_eq_nil within lawful nobody recorded kept
    have dresses : Request.Keeps rely Conduct.dressing id
        (Ends (fun value moment => moment.Wears id ⟨home.id, binding.recipe⟩ binding.registered
          made.content (inputs.stages.map fun stage => stage.decorator.transform) value.content)
            fun _ _ => True)
        (finish home.id context wanted binding inputs.stages made) after :=
      keeps_finish_wears context wanted targets bare
    refine dresses.grows.mono ?_
    rintro (error | value) settling _ ⟨grows, wears⟩
    · exact ⟨trivial, fun _ _ _ _ _ => trivial⟩
    · refine ⟨?_, fun _ _ _ _ _ => trivial⟩
      have wears : settling.Wears id ⟨home.id, binding.recipe⟩ binding.registered made.content _
        value.content := wears
      rw [transforms] at wears
      have entered : after.Entered id home.id (.shown binding.recipe.id binding.registered) :=
        recorded.did
      have grown := (passage.suffix.trans recorded.suffix).trans grows
      exact ⟨⟨home.id, binding.recipe⟩, home, rfl, rfl,
        (homes.mono grown).houses, kept, grows.mem entered, wears.applied,
          made, (instanced kept).mono grown, wears.dressed⟩

/-- Requests for keys apply all decorators to what they fill in. -/
def dressings {origin : Moment U}
    (lawful : origin.Lawful (Conduct.orderly.and Conduct.growing)) (id : RequestId) :
    Upkeep rely Conduct.dressing id where
  holds := (dwelling lawful id).holds
  among := (dwelling lawful id).among
  yields := (dwelling lawful id).yields
  failed := (dwelling lawful id).failed
  stable := (dwelling lawful id).stable
  harmless := fun _ _ _ idle => Duties.conduct_of_aside idle.making.aside
  ancestor := (dwelling lawful id).ancestor
  lasts := (dwelling lawful id).lasts
  plain := (dwelling lawful id).plain
  cycle := (dwelling lawful id).cycle
  dependency := (dwelling lawful id).dependency
  recalled := (dwelling lawful id).recalled
  convert := by
    intro start scope key binding content _ _ _ _ _ grown
    refine ((only_convert binding scope.id key _).keeps ?_).mono ?_
    · exact fun _ _ _ _ serving => Duties.conduct_of_aside serving.making.aside
    · rintro (error | value) _ _ ⟨_, passage⟩
      · trivial
      · exact ⟨grown.trans passage.suffix, trivial⟩
  produce := by
    intro start scope key binding home inputs context _ isScope finds _ grown suit
    have homes := (isScope.homes lawful finds).mono grown
    have makes := (only_construct home.id context binding.recipe inputs.arguments inputs.flag
      binding.cast.isSome).mono (fun _ making => making) fun _ _ => trivial
    have instances : Request.Keeps rely Conduct.dressing id
        (Ends (fun made moment => binding.recipe.lifetime.isKept = true →
          moment.Settled home.id (.made binding.recipe.id) (.ok made)) fun _ _ => True)
        (keepIf binding.recipe.lifetime.isKept home.id (.made binding.recipe.id)
          (construct home.id context binding.recipe inputs.arguments inputs.flag
            binding.cast.isSome)) start :=
      keeps_keepIf_through within makes (fun _ _ _ _ => trivial) fun _ _ _ => trivial
    refine Request.keeps_bind instances.grows (fun _ _ _ _ => trivial) ?_
    rintro made moment _ ⟨grown', settled⟩
    refine (keeps_show_wears within context key (homes.mono grown') suit.decorators
      settled).grows.mono ?_
    rintro (error | value) last _ ⟨grown'', _⟩
    · trivial
    · exact ⟨grown.trans (grown'.trans grown''), trivial⟩

/-- All requests keep to that. -/
theorem kept_dressing : Conduct.Kept rely Conduct.dressing := by
  refine .ofResolving (fun _ _ _ => trivial) (Duties.conduct_of_aside ·.aside)
    (fun _ _ _ _ _ _ => trivial) ?_
  intro moment id demand after lawful orderly recorded resolves
  obtain ⟨origin, named⟩ := (lawful.grow within).starts orderly recorded
  exact ((dressings within origin id).asking resolves named (List.suffix_refl _)).mono
    fun _ _ _ _ => trivial

end Cells

/-! ## What is shown -/

/-- What was decorated so far is what was decorated last. -/
theorem decorationsBy_suffix {earlier history : List (Entry U)} (grows : earlier <:+ history)
    (id : RequestId) (scope : ScopeId) (recipe : RecipeId) (key : Key) :
    decorationsBy earlier id scope recipe key <:+ decorationsBy history id scope recipe key := by
  obtain ⟨recent, rfl⟩ := grows
  exact ⟨_, List.flatMap_append.symm⟩

/-- To what a scope shows for a key of a recipe, each decorator of the key was applied once, in
order, and this made it of the instance that the scope keeps. -/
theorem Moment.Lawful.dressed_once {moment : Moment U}
    (lawful : moment.Lawful
      (Conduct.orderly.and ((Conduct.growing.and Conduct.keeping).and Conduct.dressing)))
    {site : Site U} {home : Scope U} {key : Key} {value : Value U}
    (houses : moment.Houses site home) (kept : site.recipe.lifetime.isKept = true)
    (settled : moment.Settled site.scope (.shown site.recipe.id key) (.ok value)) :
    decorations moment.history site.scope site.recipe.id key =
        ((home.registry.decoratorsOf key).map Decorator.transform).reverse ∧
      ∃ made, moment.Settled site.scope (.made site.recipe.id) (.ok made) ∧
        moment.Dressed site key made.content
          ((home.registry.decoratorsOf key).map Decorator.transform) value.content := by
  have keeping : moment.Lawful (Conduct.orderly.and (Conduct.growing.and Conduct.keeping)) :=
    lawful.mono fun _ _ all => ⟨all.1, all.2.1⟩
  obtain ⟨id, did⟩ := settled
  obtain ⟨before, _, grows, _, _, site', home', sameScope, sameRecipe, finery⟩ := lawful.allowed did
  obtain ⟨rfl, recipes⟩ := houses.unique (keeping.mono fun _ _ all => ⟨all.1, all.2.1⟩)
    (finery.houses.mono grows) sameScope.symm sameRecipe.symm kept
  have sites : site' = site := by
    cases site
    cases site'
    cases sameScope
    cases recipes
    rfl
  subst sites
  obtain ⟨made, instanced, dressed⟩ := finery.dressed
  refine ⟨?_, made, instanced.mono grows, dressed.mono grows⟩
  have all := keeping.decorations_eq houses kept (grows.mem finery.entered)
  have least := decorationsBy_suffix grows id site'.scope site'.recipe.id key
  rw [finery.applied, ← all] at least
  have most := keeping.madeOnce.decorated site' home key houses kept
  have length : (decorations moment.history site'.scope site'.recipe.id key).length =
      ((home.registry.decoratorsOf key).map Decorator.transform).reverse.length := by
    have atMost := most.length_le
    have atLeast := least.length_le
    simp only [List.length_reverse] at atMost atLeast ⊢
    omega
  exact (least.eq_of_length length.symm).symm

end Provision
