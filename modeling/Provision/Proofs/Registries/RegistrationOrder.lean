import Provision.Proofs.Execution.RequestTraces
import Provision.Proofs.Registries.RegistryContents
import Provision.Proofs.Instances.KeptInstances

/-!
# Registrations in order

A scope is built of the registrations that its client made in it, after those of its ancestors.  A
key is bound to the last of them, and the list of a type has one item for each, in order, which
comes from that registration.

Main statement: `registrations_in_order`.
-/

namespace Provision

open Moment

variable {U : Client}

/-! ## Chains of scopes -/

/-- The registrations that a scope and its ancestors were built of, each with the scope that it was
made in, the root first. -/
inductive Moment.Raised (moment : Moment U) :
    Scope U → List (ScopeId × List (Registration U)) → Prop where
  | root {id : RequestId} {scope : Scope U} {registrations : List (Registration U)} :
      moment.Did id (.started (.build none registrations)) →
        moment.Did id (.finished (.ok (.built scope))) →
          Raised moment scope [(scope.id, registrations)]
  | child {id : RequestId} {scope parent : Scope U} {registrations : List (Registration U)}
      {levels : List (ScopeId × List (Registration U))} : Raised moment parent levels →
        moment.Did id (.started (.build (some parent) registrations)) →
          moment.Did id (.finished (.ok (.built scope))) →
            Raised moment scope (levels ++ [(scope.id, registrations)])

/-- The offers among the registrations of a chain of scopes, in order. -/
def offersOf (levels : List (ScopeId × List (Registration U))) : List (Placement U) :=
  levels.flatMap fun level => placements level.1 0 level.2

/-- What is placed was registered as an offer. -/
theorem offer_of_mem_placements {scope : ScopeId} {count : Nat}
    {registrations : List (Registration U)} {placement : Placement U}
    (member : placement ∈ placements scope count registrations) :
    .service placement.offer ∈ registrations := by
  induction registrations generalizing count with
  | nil => cases member
  | cons registration rest ih =>
      cases registration with
      | service offer =>
          cases List.mem_cons.mp member with
          | inl here => simp [here]
          | inr later => exact List.mem_cons_of_mem _ (ih later)
      | decorator decorator => exact List.mem_cons_of_mem _ (ih member)

/-- What is offered was registered at one of the levels. -/
theorem offer_of_mem_offersOf {levels : List (ScopeId × List (Registration U))}
    {placement : Placement U} (member : placement ∈ offersOf levels) :
    ∃ level ∈ levels, .service placement.offer ∈ level.2 := by
  obtain ⟨level, isLevel, placed⟩ := List.mem_flatMap.mp member
  exact ⟨level, isLevel, offer_of_mem_placements placed⟩

namespace Activity.Reachable

variable {activity : Activity U} (reachable : activity.Reachable)

include reachable

/-- The builder of a scope had no issues in the end. -/
theorem accepted {id : RequestId} {scope : Scope U} {parent : Option (Scope U)}
    {registrations : List (Registration U)}
    (began : activity.moment.Did id (.started (.build parent registrations)))
    (ended : activity.moment.Did id (.finished (.ok (.built scope)))) :
    ((Builder.start scope.id parent).addAll registrations).issues = [] ∧
      scope = ((Builder.start scope.id parent).addAll registrations).scope := by
  obtain ⟨events, _, goes⟩ := reachable.went began ended
  rcases Request.does_bind.mp goes with ⟨_, impossible, _⟩ | ⟨first, built, rest, _, builds, ends⟩
  · cases impossible
  · have same := (Request.does_pure.mp ends).2
    cases same
    exact ((only_buildScope parent registrations).does builds).2 scope rfl

/-- A scope of a chain is what its builder made after the builders of its ancestors. -/
theorem follows {scope : Scope U} {levels : List (ScopeId × List (Registration U))}
    (raised : activity.moment.Raised scope levels) :
    ∃ builder : Builder U, builder.scope = scope ∧ builder.Follows (offersOf levels) := by
  induction raised with
  | @root id scope registrations began ended =>
      obtain ⟨sound, same⟩ := reachable.accepted began ended
      refine ⟨_, same.symm, ?_⟩
      have follows : ((Builder.start scope.id none).addAll registrations).Follows
          ([] ++ placements scope.id 0 registrations) :=
        (Builder.Follows.root scope.id).addAll sound
      simpa [offersOf] using follows
  | @child id scope parent registrations levels _ began ended ih =>
      obtain ⟨above, rfl, follows⟩ := ih
      obtain ⟨sound, same⟩ := reachable.accepted began ended
      refine ⟨_, same.symm, ?_⟩
      have follows : ((Builder.start scope.id (some above.scope)).addAll registrations).Follows
          (offersOf levels ++ placements scope.id 0 registrations) :=
        (follows.child scope.id).addAll sound
      simpa [offersOf] using follows

/-- All ancestors of a scope of a chain are scopes of it, as they were built. -/
theorem raised_above {scope above : Scope U} {levels : List (ScopeId × List (Registration U))}
    (raised : activity.moment.Raised scope levels) (isAbove : above.Above scope) :
    ∃ earlier, earlier <+: levels ∧ activity.moment.Raised above earlier := by
  induction raised with
  | @root id scope registrations began ended =>
      obtain ⟨_, same⟩ := reachable.accepted began ended
      obtain ⟨node, isRoot, _⟩ := Builder.scope_of_none
        (show ((Builder.start scope.id none).addAll registrations).parent = none from
          (Builder.addAll_parent ..).trans (Builder.start_parent ..))
      rw [← same] at isRoot
      subst isRoot
      cases isAbove
      exact ⟨_, List.prefix_refl _, .root began ended⟩
  | @child id scope parent registrations levels raised began ended ih =>
      obtain ⟨_, same⟩ := reachable.accepted began ended
      obtain ⟨node, isChild, _⟩ := Builder.scope_of_parent
        (show ((Builder.start scope.id (some parent)).addAll registrations).parent = some parent
          from (Builder.addAll_parent ..).trans (Builder.start_parent ..))
      rw [← same] at isChild
      subst isChild
      cases isAbove with
      | refl => exact ⟨_, List.prefix_refl _, .child raised began ended⟩
      | child _ upper =>
          obtain ⟨earlier, isPrefix, raised⟩ := ih upper
          exact ⟨earlier, isPrefix.trans (List.prefix_append _ _), raised⟩

end Activity.Reachable

/-! ## What lists collect -/

/-- What a key yields comes from a registration: from its fixed value, or from an instance that its
constructor made in the scope that the instance belongs to. -/
inductive Moment.ComesFrom (moment : Moment U) (scope : Scope U) (binding : Binding U) :
    Content U → Prop where
  | value {fixed content : Content U} : binding.recipe.source = .value fixed →
      moment.StandsFor ⟨scope.id, binding.recipe⟩ binding.registered fixed content →
        ComesFrom moment scope binding content
  | factory {make : U.Constructor} {home : Scope U} {origin content : Content U} :
      binding.recipe.source = .factory make → binding.home? scope = some home →
        moment.Instance ⟨home.id, binding.recipe⟩ origin →
          moment.StandsFor ⟨home.id, binding.recipe⟩ binding.registered origin content →
            ComesFrom moment scope binding content

/-- A value is for a key, is the one that is shown if any is, and comes from the registration that
the key is bound to. -/
structure Moment.Delivers (moment : Moment U) (scope : Scope U) (key : Key) (value : Value U) :
    Prop where
  type : value.type = key.type
  shares : moment.Shares scope key value
  comes : ∀ binding, scope.registry.find? key = some binding → binding.recipe.isList = false →
    moment.ComesFrom scope binding value.content

/-- A value that is delivered for a key; if this is the key of a list that is not decorated, it is
the list of what is delivered for its items. -/
structure Moment.Assembles (moment : Moment U) (scope : Scope U) (key : Key) (value : Value U) :
    Prop where
  yields : moment.Yields scope key value
  delivers : moment.Delivers scope key value
  items : ∀ binding item, scope.registry.find? key = some binding →
    binding.recipe.source = .list item → binding.cast = none →
      scope.registry.decoratorsOf binding.registered = [] →
        ∃ arguments, List.Forall₂ (Fits (moment.Delivers scope)) binding.recipe.params arguments ∧
          value.content = .list (itemsOf item arguments)

section Grows

variable {moment next : Moment U} {scope : Scope U} {key : Key} {value : Value U}
  (grows : moment.history <:+ next.history)

include grows

theorem Moment.ComesFrom.mono {binding : Binding U} {content : Content U}
    (comes : moment.ComesFrom scope binding content) : next.ComesFrom scope binding content := by
  cases comes with
  | value source stands => exact .value source (stands.mono grows)
  | factory source home made stands => exact .factory source home (made.mono grows) (stands.mono grows)

theorem Moment.Delivers.mono (delivers : moment.Delivers scope key value) :
    next.Delivers scope key value where
  type := delivers.type
  shares := delivers.shares.mono grows
  comes := fun binding bound plain => (delivers.comes binding bound plain).mono grows

theorem Moment.Assembles.mono (assembles : moment.Assembles scope key value) :
    next.Assembles scope key value where
  yields := assembles.yields.mono grows
  delivers := assembles.delivers.mono grows
  items := by
    intro binding item bound isList uncast undecorated
    obtain ⟨arguments, fits, collects⟩ := assembles.items binding item bound isList uncast undecorated
    exact ⟨arguments, fits.imp fun _ _ fit => fit.mono fun _ _ => Delivers.mono grows, collects⟩

end Grows

section Registered

variable {moment : Moment U} {scope : Scope U} {key : Key} {value : Value U} {binding : Binding U}

/-- What is yielded for a key that is not bound to a list. -/
theorem Moment.Yields.assembles (yields : moment.Yields scope key value)
    (bound : scope.registry.find? key = some binding)
    (notList : ∀ item, binding.recipe.source ≠ .list item)
    (comes : moment.ComesFrom scope binding value.content) : moment.Assembles scope key value := by
  refine ⟨yields, ⟨yields.type, yields.shares, ?_⟩, ?_⟩
  · intro other bound' _
    obtain rfl := Option.some.inj (bound'.symm.trans bound)
    exact comes
  · intro other item bound' isList
    obtain rfl := Option.some.inj (bound'.symm.trans bound)
    exact absurd isList (notList item)

/-- What is yielded for the key of a list. -/
theorem Moment.Yields.assembles_list (yields : moment.Yields scope key value)
    (bound : scope.registry.find? key = some binding) {item : ServiceType}
    (source : binding.recipe.source = .list item) {arguments : List (Argument U)}
    (delivered : List.Forall₂ (Fits (moment.Delivers scope)) binding.recipe.params arguments)
    (collects : binding.cast = none → scope.registry.decoratorsOf binding.registered = [] →
      value.content = .list (itemsOf item arguments)) : moment.Assembles scope key value := by
  have isList : binding.recipe.isList = true := by rw [Recipe.isList, source]
  refine ⟨yields, ⟨yields.type, yields.shares, ?_⟩, ?_⟩
  · intro other bound' notList
    obtain rfl := Option.some.inj (bound'.symm.trans bound)
    cases isList.symm.trans notList
  · intro other wanted bound' isWanted uncast undecorated
    obtain rfl := Option.some.inj (bound'.symm.trans bound)
    cases source.symm.trans isWanted
    exact ⟨arguments, delivered, collects uncast undecorated⟩

end Registered

/-- What is answered is assembled from what was registered. -/
def Conduct.assembling : Conduct U := fun moment entry =>
  match entry.event with
  | .finished (.ok (.resolved value)) => ∃ demand, moment.Did entry.request (.started demand) ∧
      ∀ scope key, demand.Asks scope key → moment.Assembles scope key value
  | _ => True

section Cells

variable {rely : Conduct U} {id : RequestId} {start : Moment U}
  {scope home : Scope U} {key : Key} {binding : Binding U} {inputs : Inputs U}

/-- A list that is neither converted nor decorated nor closed is handed out as it was made. -/
theorem finish_plain (scope : ScopeId) (context : ContextId) (wanted : Key) (made : Value U)
    (uncast : binding.cast = none) (unclosed : binding.recipe.closer = none) :
    finish scope context wanted binding [] made = pure made := by
  have unattached : ∀ subject, attachCloser scope context binding.recipe subject = pure () := by
    intro subject
    simp [attachCloser, Recipe.closerFor?, unclosed]
  simp [finish, Binding.convert, uncast, decorateAll, unattached]

variable (within : ∀ moment entry, rely moment entry →
    (Conduct.orderly.and (Conduct.growing.and Conduct.keeping)) moment entry)

include within

/-- What a scope shows for a key comes from the registration of the key. -/
theorem Moment.Lawful.comes_of_shared {moment : Moment U} {value : Value U}
    (lawful : moment.Lawful rely) (homes : moment.Homes key binding home)
    (finds : scope.Finds key binding home) (kept : binding.recipe.lifetime.isKept = true)
    (shares : moment.Shares scope key value) : moment.ComesFrom scope binding value.content := by
  have vouched : ∀ {cell value}, moment.Settled home.id cell (.ok value) →
      moment.Vouches home.id value cell :=
    lawful.vouched fun _ _ allowed => (within _ _ allowed).2.2
  obtain ⟨_, recipe, other, made, same, _, houses, isMade, stands⟩ :=
    vouched (shares binding home finds kept)
  obtain ⟨_, isRecipe⟩ := homes.houses.unique (lawful.grow within) houses rfl same.symm kept
  have isRecipe : binding.recipe = recipe := isRecipe
  subst isRecipe
  let none : Inputs U := { arguments := [], flag := ⟨0⟩, stages := [] }
  have prepared : moment.Prepared binding home none.arguments _ :=
    lawful.prepared within homes kept isMade
  cases source : binding.recipe.source with
  | value content => exact absurd ⟨content, source⟩ finds.made
  | list item => exact absurd source (homes.proper.not_list kept item)
  | factory make =>
      exact .factory source finds.home (prepared.isMade.constructed make source) stands

/-- An instance that is not kept is finished by the request that made it. -/
theorem keeps_produceFrom_comes (context : ContextId) (wanted : Key) {make : U.Constructor}
    (homes : start.Homes key binding home)
    (suit : inputs.Suit (start.Yields home) binding home
      (Recalls id home.id binding.recipe start))
    (isHome : binding.home? scope = some home) (source : binding.recipe.source = .factory make)
    (unkept : binding.recipe.lifetime.isKept = false) :
    Request.Keeps rely Conduct.keeping id
      (Ends (fun value moment => moment.ComesFrom scope binding value.content) fun _ _ => True)
      (produceFrom home context wanted binding inputs) start := by
  apply Request.keeps_bind (keeps_prepare within context homes suit).grows (fun _ _ _ _ => trivial)
  intro made moment _ reached
  obtain ⟨grown, prepared⟩ := reached
  have decorating : moment.Decorating id ⟨home.id, binding.recipe⟩ home binding.registered
      made.content [] inputs.stages made.content := by
    apply Prepared.decorating (homes.mono grown) (suit.later grown)
    intro kept
    cases unkept.symm.trans kept
  rw [keepIf, unkept]
  apply (keeps_finish_standing context wanted prepared.mayConvert decorating).grows.mono
  rintro (error | value) last _ ⟨grown', stands⟩
  · trivial
  · have made := (prepared.isMade.constructed make source).mono grown'
    exact .factory source isHome made stands

/-- A list that is not decorated holds its arguments. -/
theorem keeps_produceFrom_list (context : ContextId) (wanted : Key) {item : ServiceType}
    (homes : start.Homes key binding home)
    (suit : inputs.Suit (start.Yields home) binding home
      (Recalls id home.id binding.recipe start))
    (source : binding.recipe.source = .list item) (uncast : binding.cast = none)
    (undecorated : home.registry.decoratorsOf binding.registered = []) :
    Request.Keeps rely Conduct.keeping id
      (Ends (fun value _ => value.content = .list (itemsOf item inputs.arguments)) fun _ _ => True)
      (produceFrom home context wanted binding inputs) start := by
  have isList : binding.recipe.isList = true := by rw [Recipe.isList, source]
  have unkept : binding.recipe.lifetime.isKept = false := by
    rw [(homes.proper.list isList).1]
    rfl
  have unstaged : inputs.stages = [] := by
    rw [← List.map_eq_nil_iff, suit.decorators, undecorated]
  apply Request.keeps_bind (keeps_prepare within context homes suit) (fun _ _ _ _ => trivial)
  intro made moment _ prepared
  rw [keepIf, unkept, unstaged]
  simp only [Bool.false_eq_true, if_false]
  rw [finish_plain home.id context wanted made uncast (homes.proper.unclosed isList)]
  exact Request.keeps_pure fun _ _ _ => prepared.isMade.list item source

omit within in
/-- A request that yields what another statement says more about. -/
theorem keeps_assembling {request : Request U (Value U)} {held : Moment U → Prop}
    {ends good : Value U → Moment U → Prop}
    (yields : Request.Keeps rely Conduct.keeping id (Ends ends fun _ _ => True) request start)
    (more : Request.Keeps rely Conduct.keeping id (Ends good fun _ _ => True) request start)
    (assembles : ∀ value moment, moment.Lawful rely → start.history <:+ moment.history →
      ends value moment → good value moment → held moment ∧ moment.Assembles scope key value) :
    Request.Keeps rely Conduct.keeping id
      (Ends (fun value moment => held moment ∧ moment.Assembles scope key value) fun _ _ => True)
      request start := by
  apply ((yields.and more).grows.mono_guar fun _ _ both => both.1).mono
  rintro (error | value) moment lawful ⟨grown, ends, good⟩
  · trivial
  · exact assembles value moment lawful grown ends good

section Origin

variable {origin : Moment U}

/-- Making a service of a constructor assembles it. -/
theorem keeps_produceFrom_factory (context : ContextId) {make : U.Constructor}
    (homes : start.Homes key binding home) (finds : scope.Finds key binding home)
    (suit : inputs.Suit (start.Yields home) binding home
      (Recalls id home.id binding.recipe start))
    (source : binding.recipe.source = .factory make)
    (yields : Request.Keeps rely Conduct.keeping id
      (Ends (fun value moment => origin.history <:+ moment.history ∧
        moment.Yields scope key value) fun _ _ => True)
      (produceFrom home context key binding inputs) start) :
    Request.Keeps rely Conduct.keeping id
      (Ends (fun value moment => origin.history <:+ moment.history ∧
        moment.Assembles scope key value) fun _ _ => True)
      (produceFrom home context key binding inputs) start := by
  have notList : ∀ item, binding.recipe.source ≠ .list item := by
    intro item isList
    cases source.symm.trans isList
  cases kept : binding.recipe.lifetime.isKept with
  | true =>
      apply keeps_assembling yields yields
      intro value moment lawful grown ends _
      have comes := lawful.comes_of_shared within (homes.mono grown) finds kept ends.2.shares
      exact ⟨ends.1, ends.2.assembles finds.bound notList comes⟩
  | false =>
      apply keeps_assembling yields
        (keeps_produceFrom_comes within context key homes suit finds.home source kept)
      intro value moment _ _ ends comes
      exact ⟨ends.1, ends.2.assembles finds.bound notList comes⟩

/-- Making a list assembles it of what was assembled for its items. -/
theorem keeps_produceFrom_items (context : ContextId) {item : ServiceType}
    (homes : start.Homes key binding home) (finds : scope.Finds key binding home)
    (suit : inputs.Suit (start.Assembles home) binding home
      (Recalls id home.id binding.recipe start))
    (source : binding.recipe.source = .list item)
    (yields : Request.Keeps rely Conduct.keeping id
      (Ends (fun value moment => origin.history <:+ moment.history ∧
        moment.Yields scope key value) fun _ _ => True)
      (produceFrom home context key binding inputs) start) :
    Request.Keeps rely Conduct.keeping id
      (Ends (fun value moment => origin.history <:+ moment.history ∧
        moment.Assembles scope key value) fun _ _ => True)
      (produceFrom home context key binding inputs) start := by
  have isList : binding.recipe.isList = true := by rw [Recipe.isList, source]
  have lifetime := (homes.proper.list isList).1
  have isHome := finds.home
  simp only [Binding.home?, lifetime, Option.some.injEq] at isHome
  subst isHome
  have fits : List.Forall₂ (Fits (start.Assembles scope)) binding.recipe.params
      inputs.arguments := by
    rcases suit.arguments with ⟨kept, _⟩ | fits
    · rw [lifetime] at kept
      cases kept
    · exact fits
  have delivered : ∀ {moment : Moment U}, start.history <:+ moment.history →
      List.Forall₂ (Fits (moment.Delivers scope)) binding.recipe.params inputs.arguments :=
    fun grown => fits.imp fun _ _ fit => fit.mono fun _ _ assembles =>
      assembles.delivers.mono grown
  by_cases plain : binding.cast = none ∧ scope.registry.decoratorsOf binding.registered = []
  · have suited := suit.mono (fun _ _ assembles => assembles.yields) fun recalled => recalled
    apply keeps_assembling yields
      (keeps_produceFrom_list within context key homes suited source plain.1 plain.2)
    intro value moment _ grown ends collects
    exact ⟨ends.1, ends.2.assembles_list finds.bound source (delivered grown) fun _ _ => collects⟩
  · apply keeps_assembling yields yields
    intro value moment _ grown ends _
    refine ⟨ends.1, ends.2.assembles_list finds.bound source (delivered grown) ?_⟩
    exact fun uncast undecorated => absurd ⟨uncast, undecorated⟩ plain

end Origin

/-- Requests for keys assemble what they yield from what was registered. -/
def assembly {origin : Moment U}
    (lawful : origin.Lawful (Conduct.orderly.and Conduct.growing)) (id : RequestId) :
    Upkeep rely Conduct.keeping id where
  holds := (safekeeping within lawful id).holds
  among := (safekeeping within lawful id).among
  yields := Moment.Assembles
  failed := fun _ _ _ _ _ => True
  stable := (safekeeping within lawful id).stable
  harmless := (safekeeping within lawful id).harmless
  ancestor := (safekeeping within lawful id).ancestor
  lasts := fun grows => Assembles.mono grows
  plain := fun _ _ => trivial
  cycle := fun _ _ _ => trivial
  dependency := fun _ _ _ _ => trivial
  recalled := by
    intro moment next scope key binding home outcome active isScope finds kept lawful' grown found
      passage lawful''
    have yields := (safekeeping within lawful id).recalled active isScope finds kept lawful' grown
      found passage lawful''
    cases outcome with
    | error error => trivial
    | ok value =>
        have yields : next.Yields scope key value := yields
        have homes := ((isScope.homes lawful finds).mono grown).mono passage.suffix
        have comes := lawful''.comes_of_shared within homes finds kept yields.shares
        exact yields.assembles finds.bound (homes.proper.not_list kept) comes
  convert := by
    intro start scope key binding content active isScope bound source lawful' grown
    have yields := (safekeeping within lawful id).convert active isScope bound source lawful' grown
    have stands : Request.Keeps rely Conduct.keeping id
        (Ends (fun converted moment => moment.StandsFor ⟨scope.id, binding.recipe⟩
          binding.registered content converted.content) fun _ _ => True)
        (binding.convert scope.id key { type := binding.recipe.produces, content }) start :=
      keeps_convert_value source scope.id key { type := binding.recipe.produces, content }
    have notList : ∀ item, binding.recipe.source ≠ .list item := by
      intro item isList
      cases source.symm.trans isList
    apply keeps_assembling yields stands
    intro value moment _ _ ends stands
    exact ⟨ends.1, ends.2.assembles bound notList (.value source stands)⟩
  produce := by
    intro start scope key binding home inputs context active isScope finds lawful' grown suit
    have homes := (isScope.homes lawful finds).mono grown
    have suited := suit.mono (fun _ _ assembles => assembles.yields) fun recalled => recalled
    have yields := (safekeeping within lawful id).produce context active isScope finds lawful' grown
      suited
    cases source : binding.recipe.source with
    | value content => exact absurd ⟨content, source⟩ finds.made
    | factory make => exact keeps_produceFrom_factory within context homes finds suited source yields
    | list item => exact keeps_produceFrom_items within context homes finds suit source yields

/-- All requests assemble what they answer. -/
theorem kept_assembling : Conduct.Kept rely Conduct.assembling := by
  have free : ∀ (moment : Moment U) (id : RequestId) (event : Event U),
      (∀ reply, event ≠ .finished reply) → Conduct.assembling moment ⟨id, event⟩ := by
    intro moment id event unfinished
    cases event with
    | finished reply => exact absurd rfl (unfinished reply)
    | _ => exact trivial
  refine .ofResolving (fun _ _ _ => trivial) ?_ ?_ ?_
  · intro moment id event tending
    refine free moment id event fun reply isFinish => ?_
    rw [isFinish] at tending
    exact tending
  · rintro moment id demand (error | reply) began other
    · trivial
    cases reply with
    | resolved value =>
        exact ⟨demand, began, fun scope key asks => absurd asks.resolves other⟩
    | built _ => trivial
    | invoked _ => trivial
    | nothing => trivial
  · intro moment id demand after lawful orderly recorded resolves
    have began : after.Did id (.started demand) := recorded.did
    obtain ⟨origin, named⟩ := (lawful.grow within).starts orderly recorded
    have answers := (assembly within origin id).asking resolves named (List.suffix_refl _)
    apply (answers.regardless fun moment event => free moment id event).mono
    rintro (error | reply) last _ ends
    · trivial
    · obtain ⟨grown, ⟨value, rfl, assembles⟩ | ⟨_, rfl⟩⟩ := ends
      · have grown : after.history <:+ last.history := grown
        exact ⟨demand, grown.mem began, assembles⟩
      · trivial

end Cells

/-- What a request was answered was assembled from what was registered. -/
theorem Activity.Reachable.assembled {activity : Activity U} (reachable : activity.Reachable)
    {id : RequestId} {demand : Demand U} {scope : Scope U} {key : Key} {value : Value U}
    (began : activity.moment.Did id (.started demand)) (asks : demand.Asks scope key)
    (ended : activity.moment.Did id (.finished (.ok (.resolved value)))) :
    activity.moment.Assembles scope key value := by
  have kept : Conduct.Kept
      (Conduct.orderly.and ((Conduct.growing.and Conduct.keeping).and Conduct.assembling))
      (((@Conduct.growing U).and Conduct.keeping).and Conduct.assembling) :=
    (kept_growing.and (kept_keeping fun _ _ all => ⟨all.1, all.2.1⟩)).and
      (kept_assembling fun _ _ all => ⟨all.1, all.2.1⟩)
  have lawful := reachable.lawful kept
  obtain ⟨before, _, grows, _, _, other, began', assembles⟩ := lawful.allowed ended
  obtain rfl := (lawful.mono fun _ _ all => all.1).started_once began (grows.mem began')
  exact (assembles scope key asks).mono grows

/-! ## Lists in order -/

/-- Nothing that is exposed is a list. -/
theorem Placement.isList_of_mem_exposures {placed : List (Placement U)} {type : ServiceType}
    {binding : Binding U} (member : binding ∈ exposures placed type) :
    binding.recipe.isList = false := by
  obtain ⟨placement, _, exposed⟩ := List.mem_filterMap.mp member
  obtain ⟨view, _, rfl⟩ := Option.map_eq_some_iff.mp exposed
  exact Offer.isList_recipe ..

/-- The items of a list are what is delivered for its parameters, one by one. -/
theorem Moment.delivered_of_fits {moment : Moment U} {scope : Scope U} {type : ServiceType}
    {keys : List Key} {arguments : List (Argument U)} (typed : ∀ key ∈ keys, key.type = type)
    (fits : List.Forall₂ (Fits (moment.Delivers scope)) (keys.map Param.service) arguments) :
    List.Forall₂ (fun key content => ∃ item, moment.Delivers scope key item ∧
      item.content = content) keys (itemsOf type arguments) := by
  induction keys generalizing arguments with
  | nil =>
      cases fits
      exact .nil
  | cons key keys ih =>
      cases fits with
      | cons fit rest =>
          cases fit with
          | @service _ value delivers =>
              have isItem : value.type = type := delivers.type.trans (typed key List.mem_cons_self)
              simp only [itemsOf, List.filterMap_cons, isItem, if_true]
              exact .cons ⟨value, delivers, rfl⟩
                (ih (fun other member => typed other (List.mem_cons_of_mem _ member)) rest)

/-- The list of a type that is not decorated holds what is delivered for its items, one for each
offer that exposes the type. -/
theorem Moment.Assembles.gathers {moment : Moment U} {scope : Scope U}
    {placed : List (Placement U)} {type : ServiceType} {value : Value U}
    (inOrder : scope.registry.InOrder placed)
    (assembles : moment.Assembles scope (.of (.list type)) value)
    (exposed : exposures placed type ≠ [])
    (undecorated : scope.registry.decoratorsOf (.of (.list type)) = []) :
    ∃ contents, value = { type := .list type, content := .list contents } ∧
      contents.length = (exposures placed type).length ∧
        ∀ index, index < contents.length → ∃ item, moment.Delivers scope (.item type index) item ∧
          contents[index]? = some item.content := by
  have isLast : (exposures placed type).getLast? = some ((exposures placed type).getLast exposed) :=
    List.getLast?_eq_some_getLast exposed
  have listed := inOrder.list type _ isLast
  obtain ⟨arguments, fits, collects⟩ := assembles.items _ type listed rfl rfl undecorated
  have params : itemParams type (exposures placed type).length =
      ((List.range (exposures placed type).length).map (Key.item type)).map Param.service := by
    rw [List.map_map]
    rfl
  have fits : List.Forall₂ (Fits (moment.Delivers scope))
      (itemParams type (exposures placed type).length) arguments := fits
  rw [params] at fits
  have typed : ∀ key ∈ (List.range (exposures placed type).length).map (Key.item type),
      key.type = type := by
    intro key member
    obtain ⟨index, _, rfl⟩ := List.mem_map.mp member
    rfl
  obtain ⟨length, delivered⟩ := List.forall₂_iff_get.mp (delivered_of_fits typed fits)
  have isList : value.type = .list type := assembles.delivers.type
  refine ⟨itemsOf type arguments, by rw [← isList, ← collects], by simpa using length.symm, ?_⟩
  intro index inside
  obtain ⟨item, delivers, content⟩ := delivered index (by rwa [length]) inside
  refine ⟨item, by simpa using delivers, ?_⟩
  rw [List.getElem?_eq_getElem inside, content]
  rfl

/-- Each item of that list comes from its offer. -/
theorem Moment.Assembles.collects {moment : Moment U} {scope : Scope U}
    {placed : List (Placement U)} {type : ServiceType} {value : Value U}
    (inOrder : scope.registry.InOrder placed)
    (assembles : moment.Assembles scope (.of (.list type)) value)
    (exposed : exposures placed type ≠ [])
    (undecorated : scope.registry.decoratorsOf (.of (.list type)) = []) :
    ∃ contents, value = { type := .list type, content := .list contents } ∧
      List.Forall₂ (moment.ComesFrom scope) (exposures placed type) contents := by
  obtain ⟨contents, same, length, delivered⟩ := assembles.gathers inOrder exposed undecorated
  refine ⟨contents, same, List.forall₂_iff_get.mpr ⟨length.symm, fun index inside inside' => ?_⟩⟩
  obtain ⟨item, delivers, content⟩ := delivered index inside'
  rw [List.getElem?_eq_getElem inside'] at content
  rw [List.get_eq_getElem, List.get_eq_getElem, Option.some.inj content]
  refine delivers.comes _ ?_ (Placement.isList_of_mem_exposures (List.getElem_mem inside))
  rw [inOrder.item, List.getElem?_eq_getElem inside]

/-- The registry of a scope holds the registrations that were made along the chain to it in
order. -/
theorem Activity.Reachable.inOrder {activity : Activity U} (reachable : activity.Reachable)
    {scope : Scope U} {levels : List (ScopeId × List (Registration U))}
    (raised : activity.moment.Raised scope levels)
    (described : ∀ level ∈ levels, ∀ registration ∈ level.2, registration.Described)
    (named : ∀ placement ∈ offersOf levels, ∀ index,
      placement.offer.tag ≠ some (.position index)) :
    scope.registry.InOrder (offersOf levels) := by
  obtain ⟨builder, rfl, follows⟩ := reachable.follows raised
  rw [Builder.scope_registry]
  refine follows.reflects.inOrder (fun placement member => ?_) named
  obtain ⟨level, isLevel, registered⟩ := offer_of_mem_offersOf member
  exact described level isLevel _ registered

/-- After registrations were accepted in a chain of scopes, under tags that are names, the registry
of the last scope holds them in order, and so did that of each of its ancestors, as far as there
were any registrations then.  The list of a type that is resolved there, if it is not decorated, has
one item for each registration that exposes the type, in order, which comes from it. -/
theorem registrations_in_order {activity : Activity U} (reachable : activity.Reachable)
    {scope : Scope U} {levels : List (ScopeId × List (Registration U))}
    (raised : activity.moment.Raised scope levels)
    (described : ∀ level ∈ levels, ∀ registration ∈ level.2, registration.Described)
    (named : ∀ placement ∈ offersOf levels, ∀ index,
      placement.offer.tag ≠ some (.position index)) :
    scope.registry.InOrder (offersOf levels) ∧
      (∀ above, above.Above scope → ∃ earlier, earlier <+: levels ∧
        activity.moment.Raised above earlier ∧ above.registry.InOrder (offersOf earlier)) ∧
      ∀ id demand type value, activity.moment.Did id (.started demand) →
        demand.Asks scope (.of (.list type)) →
          activity.moment.Did id (.finished (.ok (.resolved value))) →
            exposures (offersOf levels) type ≠ [] →
              scope.registry.decoratorsOf (.of (.list type)) = [] →
                ∃ contents, value = { type := .list type, content := .list contents } ∧
                  List.Forall₂ (activity.moment.ComesFrom scope) (exposures (offersOf levels) type)
                    contents := by
  have inOrder : ∀ {above : Scope U} {earlier : List (ScopeId × List (Registration U))},
      earlier <+: levels → activity.moment.Raised above earlier →
        above.registry.InOrder (offersOf earlier) := by
    intro above earlier isPrefix raised
    refine reachable.inOrder raised (fun level member => ?_) fun placement member => ?_
    · exact described level (isPrefix.subset member)
    · obtain ⟨level, isLevel, placed⟩ := List.mem_flatMap.mp member
      exact named placement (List.mem_flatMap.mpr ⟨level, isPrefix.subset isLevel, placed⟩)
  have whole := inOrder (List.prefix_refl levels) raised
  refine ⟨whole, ?_, ?_⟩
  · intro above isAbove
    obtain ⟨earlier, isPrefix, raised⟩ := reachable.raised_above raised isAbove
    exact ⟨earlier, isPrefix, raised, inOrder isPrefix raised⟩
  · intro id demand type value began asks ended exposed undecorated
    exact (reachable.assembled began asks ended).collects whole exposed undecorated

namespace Collected

/-- The type under which everything is visible. -/
def visible : ServiceType := .interface "sample" "I"

/-- What the root scope is built of: a constructor under a name, and a fixed value. -/
def upper : List (Registration Client.obliging) :=
  [.service (((Offer.factory (.concrete "sample" "A") () []).withTag (.named "first")).alsoAs
      visible ()),
    .service ((Offer.value (.concrete "sample" "B") (.list [])).alsoAs visible ())]

/-- What the child scope is built of. -/
def lower : List (Registration Client.obliging) :=
  [.service (Offer.factory visible () [])]

/-- The root scope. -/
def root : Scope Client.obliging :=
  ((Builder.root ⟨1⟩).addAll upper).scope

/-- The child scope. -/
def child : Scope Client.obliging :=
  ((Builder.child ⟨2⟩ root).addAll lower).scope

/-- What the list of all is resolved to in the child scope. -/
def all : Value Client.obliging :=
  { type := .list visible, content := .list [.object (), .list [], .object ()] }

/-- The world once the root scope is built. -/
def begun : World Client.obliging Unit :=
  (Demand.build none upper).afterwards Behaviour.obliging { state := {}, memory := () }

/-- The world once the child scope is built. -/
def built : World Client.obliging Unit :=
  (Demand.build (some root) lower).afterwards Behaviour.obliging begun

/-- The list was resolved in the child, below the root. -/
theorem served : ∃ activity : Activity Client.obliging, Activity.Served Behaviour.obliging
    [(.build none upper, .ok (.built root)), (.build (some root) lower, .ok (.built child)),
      (.resolveTyped child ⟨0⟩ (.of (.list visible)), .ok (.resolved all))]
    ((Demand.resolveTyped child ⟨0⟩ (.of (.list visible))).afterwards Behaviour.obliging built)
    activity := by
  have builds : (Demand.build none upper).request.run.run Behaviour.obliging
      { state := {}, memory := () } = some (.ok (.built root), begun) := rfl
  have more : (Demand.build (some root) lower).request.run.run Behaviour.obliging begun =
      some (.ok (.built child), built) := rfl
  have resolves : (Demand.resolveTyped child ⟨0⟩ (.of (.list visible))).request.run.run
      Behaviour.obliging built = some (.ok (.resolved all),
        (Demand.resolveTyped child ⟨0⟩ (.of (.list visible))).afterwards Behaviour.obliging
          built) := rfl
  have detached := Behaviour.obliging_detached
  obtain ⟨_, one, _⟩ := (Activity.Served.initial ()).next detached builds nofun
  obtain ⟨_, two, _⟩ := one.nextOn detached more rfl List.mem_cons_self
  obtain ⟨activity, three, _⟩ := two.nextOn detached resolves rfl
    (List.mem_cons_of_mem _ List.mem_cons_self)
  exact ⟨activity, three⟩

end Collected

/-- Three registrations in two scopes are visible under one type, the first of them also under a
name, and the list of the type is resolved. -/
theorem three_collected : ∃ activity : Activity Client.obliging, activity.Reachable ∧
    activity.moment.Raised Collected.child [(⟨1⟩, Collected.upper), (⟨2⟩, Collected.lower)] ∧
      Collected.child.registry.InOrder
        (offersOf [(⟨1⟩, Collected.upper), (⟨2⟩, Collected.lower)]) ∧
        List.Forall₂ (activity.moment.ComesFrom Collected.child)
          (exposures (offersOf [(⟨1⟩, Collected.upper), (⟨2⟩, Collected.lower)]) Collected.visible)
          [.object (), .list [], .object ()] := by
  obtain ⟨activity, served⟩ := Collected.served
  have raised : activity.moment.Raised Collected.child
      [(⟨1⟩, Collected.upper), (⟨2⟩, Collected.lower)] := by
    have upper : activity.moment.Raised Collected.root [(⟨1⟩, Collected.upper)] :=
      .root (served.did 0 rfl).1 (served.did 0 rfl).2
    exact .child upper (served.did 1 rfl).1 (served.did 1 rfl).2
  have described : ∀ level ∈ [(⟨1⟩, Collected.upper), (⟨2⟩, Collected.lower)],
      ∀ registration ∈ (level : ScopeId × List (Registration Client.obliging)).2,
        registration.Described := by
    intro level isLevel registration member
    simp only [List.mem_cons, List.not_mem_nil, or_false] at isLevel
    rcases isLevel with rfl | rfl
    · simp only [Collected.upper, List.mem_cons, List.not_mem_nil, or_false] at member
      rcases member with rfl | rfl
      · exact .alsoAs _ _ (.withTag _ (.factory _ _ _))
      · exact .alsoAs _ _ (.value _ _)
    · rw [List.mem_singleton.mp member]
      exact .factory _ _ _
  have named : ∀ placement ∈ offersOf [(⟨1⟩, Collected.upper), (⟨2⟩, Collected.lower)], ∀ index,
      placement.offer.tag ≠ some (.position index) := by
    intro placement member index
    simp only [offersOf, Collected.upper, Collected.lower, placements, List.flatMap_cons,
      List.flatMap_nil, List.mem_append, List.mem_cons, List.not_mem_nil, or_false] at member
    rcases member with (rfl | rfl) | rfl <;> (intro positioned; cases positioned)
  obtain ⟨inOrder, _, lists⟩ := registrations_in_order served.reachable raised described named
  obtain ⟨contents, same, comes⟩ := lists ⟨2⟩ _ Collected.visible Collected.all
    (served.did 2 rfl).1 (.resolveTyped ..) (served.did 2 rfl).2 (List.cons_ne_nil _ _) rfl
  cases same
  exact ⟨activity, served.reachable, raised, inOrder, comes⟩

end Provision
