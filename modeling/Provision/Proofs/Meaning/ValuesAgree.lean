import Provision.Proofs.Meaning.ComputedValues
import Provision.Proofs.Instances.KeptInstances

/-!
# Values agree with what their keys mean

Scopes keep instances and finished values, and requests take from there what others made.  As long
as the functions of the client do what is said of them, what is kept is what the registrations
mean, and so is what requests for keys end with, in whatever order everything happens.

Main statement: `resolved_means`.
-/

namespace Provision

open Moment

variable {U : Client} {functions : Functions U}

/-! ## What bindings come to -/

namespace Functions

/-- What a recipe makes in a scope of what its parameters mean there. -/
def Makes (functions : Functions U) (home : Scope U) (recipe : Recipe U) (content : Content U) :
    Prop :=
  ∃ depth, functions.made (functions.meaning depth home) ⟨home.id, recipe⟩ = some content

/-- What a binding comes to in the scope that keeps it. -/
def Finishes (functions : Functions U) (home : Scope U) (binding : Binding U)
    (content : Content U) : Prop :=
  ∃ depth, functions.finished (functions.meaning depth home) home binding = some content

variable {scope home : Scope U} {key : Key} {binding : Binding U} {content : Content U}

/-- A content that finishes a binding is what its keys mean. -/
theorem Finishes.means (finishes : functions.Finishes home binding content)
    (finds : scope.Finds key binding home) : functions.Means scope key content := by
  obtain ⟨depth, found⟩ := finishes
  exact ⟨depth + 1, meaning_succ.mpr ⟨binding, finds.bound, .inr ⟨home, finds, found⟩⟩⟩

/-- Only the recipe, the conversion and the decorators of a binding matter. -/
theorem Finishes.congr {other : Binding U} (finishes : functions.Finishes home other content)
    (recipes : binding.recipe = other.recipe) (keys : binding.registered = other.registered)
    (casts : binding.cast = other.cast) : functions.Finishes home binding content := by
  obtain ⟨depth, found⟩ := finishes
  refine ⟨depth, ?_⟩
  unfold finished viewed at found ⊢
  rw [recipes, keys, casts]
  exact found

/-- A service is of the type of a key and what the key means. -/
abbrev Provides (functions : Functions U) (scope : Scope U) (key : Key) (value : Value U) : Prop :=
  value.type = key.type ∧ functions.Means scope key value.content

/-- If the services among arguments are what their keys mean, they are what the parameters ask
for. -/
theorem exists_values_of_fits {params : List Param} {arguments : List (Argument U)}
    (fits : List.Forall₂ (Fits (functions.Provides home)) params arguments) :
    ∃ depth, values (functions.meaning depth home) params = some (servicesOf arguments) := by
  induction fits with
  | nil => exact ⟨0, rfl⟩
  | @cons param argument params arguments fit _ ih =>
      obtain ⟨depth, rest⟩ := ih
      cases fit with
      | context context => exact ⟨depth, rest⟩
      | scope handle => exact ⟨depth, rest⟩
      | @service key value provides =>
          obtain ⟨type, more, means⟩ := provides
          refine ⟨max depth more, values_cons_service.mpr ⟨value.content, servicesOf arguments,
            meaning_mono (Nat.le_max_right ..) home key _ means,
            values_mono (meaning_mono (Nat.le_max_left ..) home) rest, ?_⟩⟩
          rw [← type]
          rfl

/-- What is made of arguments that are provided is what the recipe makes. -/
theorem makes_created {recipe : Recipe U} {arguments : List (Argument U)}
    (fits : List.Forall₂ (Fits (functions.Provides home)) recipe.params arguments) :
    functions.Makes home recipe
      (functions.created ⟨home.id, recipe⟩ (servicesOf arguments)) := by
  obtain ⟨depth, found⟩ := exists_values_of_fits fits
  exact ⟨depth, Option.map_eq_some_iff.mpr ⟨_, found, rfl⟩⟩

/-- Stages whose arguments are provided decorate as their decorators do. -/
theorem exists_decorated_applied (site : Site U) {stages : List (Stage U)}
    (fits : ∀ stage ∈ stages, List.Forall₂ (Fits (functions.Provides home))
      stage.decorator.params stage.arguments) (content : Content U) :
    ∃ depth, functions.decorated (functions.meaning depth home) site
      (stages.map Stage.decorator) content = some (functions.applied site stages content) := by
  induction stages generalizing content with
  | nil => exact ⟨0, rfl⟩
  | cons stage stages ih =>
      obtain ⟨depth, found⟩ := exists_values_of_fits (fits stage List.mem_cons_self)
      obtain ⟨more, rest⟩ := ih (fun other member => fits other (List.mem_cons_of_mem _ member))
        (functions.applied site [stage] content)
      refine ⟨max depth more, Option.bind_eq_some_iff.mpr ⟨servicesOf stage.arguments, ?_, ?_⟩⟩
      · exact values_mono (meaning_mono (Nat.le_max_left ..) home) found
      · exact decorated_mono (meaning_mono (Nat.le_max_right ..) home) rest

/-- What is made of what the keys of parameters mean, and decorated with what the keys of
decorators mean, is what the binding comes to. -/
theorem Makes.finishes (makes : functions.Makes home binding.recipe content)
    {stages : List (Stage U)}
    (decorators : stages.map Stage.decorator = home.registry.decoratorsOf binding.registered)
    (fits : ∀ stage ∈ stages, List.Forall₂ (Fits (functions.Provides home))
      stage.decorator.params stage.arguments) :
    functions.Finishes home binding
      (functions.applied ⟨home.id, binding.recipe⟩ stages
        (functions.viewed ⟨home.id, binding.recipe⟩ binding content)) := by
  obtain ⟨depth, made⟩ := makes
  obtain ⟨more, decorated⟩ := exists_decorated_applied ⟨home.id, binding.recipe⟩ fits
    (functions.viewed ⟨home.id, binding.recipe⟩ binding content)
  rw [decorators] at decorated
  refine ⟨max depth more, Option.bind_eq_some_iff.mpr ⟨content, ?_, ?_⟩⟩
  · exact made_mono (meaning_mono (Nat.le_max_left ..) home) made
  · exact decorated_mono (meaning_mono (Nat.le_max_right ..) home) decorated

end Functions

/-- Where all parameters ask for items of a list, the services among the arguments are the
items. -/
theorem itemsOf_eq_of_fits {item : ServiceType} {params : List Param}
    {arguments : List (Argument U)}
    (fits : List.Forall₂ (Fits Typed) params arguments)
    (listed : ∀ param ∈ params, ∃ index, param = .service (.item item index)) :
    itemsOf item arguments = (servicesOf arguments).map Value.content := by
  obtain ⟨values, rfl, _, typed⟩ := services_of_fits fits listed
  rw [itemsOf_services typed, servicesOf_services]

/-! ## The conduct -/

namespace Moment

variable {moment next : Moment U}

/-- What may be kept in a cell: in that of a recipe what it makes, and in that of a key what its
binding comes to. -/
def Holds (moment : Moment U) (functions : Functions U) (scope : ScopeId) (value : Value U) :
    CacheKey → Prop
  | .made id => ∃ key binding home, moment.Homes key binding home ∧ home.id = scope ∧
      binding.recipe.id = id ∧ functions.Makes home binding.recipe value.content
  | .shown id registered => ∃ key binding home, moment.Homes key binding home ∧ home.id = scope ∧
      binding.recipe.id = id ∧ binding.registered = registered ∧
        functions.Finishes home binding value.content

theorem Holds.mono {scope : ScopeId} {value : Value U} {cell : CacheKey}
    (holds : moment.Holds functions scope value cell) (grows : moment.history <:+ next.history) :
    next.Holds functions scope value cell := by
  cases cell with
  | made id =>
      obtain ⟨key, binding, home, homes, rest⟩ := holds
      exact ⟨key, binding, home, homes.mono grows, rest⟩
  | shown id registered =>
      obtain ⟨key, binding, home, homes, rest⟩ := holds
      exact ⟨key, binding, home, homes.mono grows, rest⟩

/-- What a request for a key of a scope yields. -/
structure Agrees (moment : Moment U) (functions : Functions U) (scope : Scope U) (key : Key)
    (value : Value U) : Prop where
  type : value.type = key.type
  means : moment.Honest functions → functions.Means scope key value.content

theorem Agrees.mono {scope : Scope U} {key : Key} {value : Value U}
    (agrees : moment.Agrees functions scope key value) (grows : moment.history <:+ next.history) :
    next.Agrees functions scope key value :=
  ⟨agrees.type, fun honest => agrees.means (honest.mono grows)⟩

/-- Arguments that agree are provided, if functions are honest. -/
theorem Agrees.provides {scope : Scope U} {params : List Param} {arguments : List (Argument U)}
    (fits : List.Forall₂ (Fits (moment.Agrees functions scope)) params arguments)
    (honest : moment.Honest functions) :
    List.Forall₂ (Fits (functions.Provides scope)) params arguments :=
  fits.imp fun _ _ fit => fit.mono fun _ _ agrees => ⟨agrees.type, agrees.means honest⟩

/-- Arguments that agree have the types of their parameters. -/
theorem Agrees.typed {scope : Scope U} {params : List Param} {arguments : List (Argument U)}
    (fits : List.Forall₂ (Fits (moment.Agrees functions scope)) params arguments) :
    List.Forall₂ (Fits Typed) params arguments :=
  fits.imp fun _ _ fit => fit.mono fun _ _ agrees => agrees.type

end Moment

/-- As long as the functions of the client do what is said of them, requests leave in cells what
belongs there, or an error for which they have an excuse, and end with what was asked for. -/
def Conduct.agreeing (functions : Functions U) : Conduct U :=
  Duties.conduct {
    settles := fun moment id scope cell outcome => moment.Honest functions →
      Ends (fun value moment => moment.Holds functions scope value cell)
        (fun _ moment => moment.Excused id scope) outcome moment
    ends := fun moment id reply =>
      match reply with
      | .ok (.resolved value) => moment.Honest functions →
          ∃ demand, moment.Did id (.started demand) ∧
            ∀ scope key, demand.Asks scope key → functions.Means scope key value.content
      | _ => True }

section Kept

variable {rely : Conduct U} {id : RequestId} {start : Moment U}
  (within : ∀ moment entry, rely moment entry →
    (Conduct.orderly.and (Conduct.growing.and
      (Conduct.keeping.and (Conduct.agreeing functions)))) moment entry)

include within

/-- Requests that agree keep what they make. -/
theorem within_keeping (moment : Moment U) (entry : Entry U) (allowed : rely moment entry) :
    (Conduct.orderly.and (Conduct.growing.and Conduct.keeping)) moment entry :=
  have all := within moment entry allowed
  ⟨all.1, all.2.1, all.2.2.1⟩

/-! ## What cells hold -/

section Cells

variable {moment : Moment U} (lawful : moment.Lawful rely) {key : Key} {binding : Binding U}
  {home : Scope U}

include lawful

/-- Whoever settled a cell ended with what it should. -/
theorem Moment.Lawful.left {scope : ScopeId} {cell : CacheKey} {outcome : Outcome U}
    (settled : moment.Settled scope cell outcome) (honest : moment.Honest functions) :
    ∃ id, Ends (fun value moment => moment.Holds functions scope value cell)
      (fun _ moment => moment.Excused id scope) outcome moment := by
  obtain ⟨id, did⟩ := settled
  obtain ⟨before, _, grows, allowed⟩ := lawful.allowed did
  have ends := (within _ _ allowed).2.2.2 (honest.mono grows)
  refine ⟨id, ?_⟩
  cases outcome with
  | error error => exact Excused.mono ends grows
  | ok value => exact Holds.mono ends grows

/-- A kept instance is what its recipe makes. -/
theorem Moment.Lawful.makes (homes : moment.Homes key binding home)
    (kept : binding.recipe.lifetime.isKept = true) {value : Value U}
    (settled : moment.Settled home.id (.made binding.recipe.id) (.ok value))
    (honest : moment.Honest functions) : functions.Makes home binding.recipe value.content := by
  obtain ⟨_, wanted, other, above, homes', scopes, recipes, makes⟩ :=
    lawful.left within settled honest
  have grow := lawful.grow (within_keeping within)
  obtain rfl := homes.isScope.eq_of_id grow homes'.isScope scopes.symm
  rwa [(homes.agree grow homes' rfl recipes.symm kept).1]

/-- A kept value for a key is what its binding comes to. -/
theorem Moment.Lawful.finishes (homes : moment.Homes key binding home)
    (kept : binding.recipe.lifetime.isKept = true) {value : Value U}
    (settled : moment.Settled home.id (.shown binding.recipe.id binding.registered) (.ok value))
    (honest : moment.Honest functions) : functions.Finishes home binding value.content := by
  obtain ⟨_, wanted, other, above, homes', scopes, recipes, keys, finishes⟩ :=
    lawful.left within settled honest
  have grow := lawful.grow (within_keeping within)
  obtain rfl := homes.isScope.eq_of_id grow homes'.isScope scopes.symm
  have same := (homes.agree grow homes' rfl recipes.symm kept).1
  have casts := homes.isScope.faithful grow honest.registers _ _ _ _ homes.bound homes'.bound
    (homes.proper.unlisted kept) (homes'.proper.unlisted (same ▸ kept)) recipes.symm keys.symm
  exact finishes.congr same keys.symm casts

end Cells

/-! ## Through cells -/

/-- Through a cell a request gets what belongs there, whether it fills the cell or somebody else
did. -/
theorem keeps_keepIf_agreeing {kept : Bool} {scope : ScopeId} {cell : CacheKey}
    {create : Request U (Value U)} {type : ServiceType} {good : Value U → Prop}
    (known : kept = true → ∀ (value : Value U) (moment : Moment U), moment.Lawful rely →
      start.history <:+ moment.history → moment.Settled scope cell (.ok value) →
        value.type = type ∧ (moment.Honest functions → good value))
    (holds : ∀ (value : Value U) (moment : Moment U), start.history <:+ moment.history →
      good value → moment.Holds functions scope value cell)
    (creates : (kept = true → ∀ outcome, ¬ start.Settled scope cell outcome) →
      ∀ moment, start.history <:+ moment.history →
        Request.Keeps rely (Conduct.agreeing functions) id
          (fun outcome last => (∀ value, outcome = .ok value → value.type = type) ∧
            functions.Ends id scope good outcome last) create moment) :
    Request.Keeps rely (Conduct.agreeing functions) id
      (Ends (fun value moment => value.type = type ∧ (moment.Honest functions → good value))
        fun _ _ => True)
      (keepIf kept scope cell create) start := by
  refine keeps_keepIf_lasting (within_keeping within) (fun _ _ => trivial) ?_ known creates ?_ ?_
  · exact fun grows ⟨type, means⟩ => ⟨type, fun honest => means (honest.mono grows)⟩
  · rintro (error | value) moment grows ⟨_, ends⟩ honest
    · exact ends honest
    · exact holds value moment grows (ends honest)
  · exact fun value _ ⟨types, ends⟩ => ⟨types value rfl, ends⟩

section Produce

variable {key : Key} {binding : Binding U} {home : Scope U} {inputs : Inputs U}

/-- What is known of an instance that is ready to be finished. -/
theorem keeps_make (context : ContextId) (lawful : start.Lawful rely)
    (homes : start.Homes key binding home)
    (suit : inputs.Suit (start.Agrees functions home) binding home
      (Recalls id home.id binding.recipe start)) :
    Request.Keeps rely (Conduct.agreeing functions) id
      (Ends (fun made moment => made.type = binding.recipe.produces ∧
          (moment.Honest functions → functions.Makes home binding.recipe made.content))
        fun _ _ => True)
      (keepIf binding.recipe.lifetime.isKept home.id (.made binding.recipe.id)
        (construct home.id context binding.recipe inputs.arguments inputs.flag
          binding.cast.isSome)) start := by
  refine keeps_keepIf_agreeing within ?_ ?_ ?_
  · intro kept value moment lawful' grows settled
    have homes := homes.mono grows
    have prepared : moment.Prepared binding home inputs.arguments value :=
      lawful'.prepared (within_keeping within) homes kept settled
    exact ⟨prepared.type, lawful'.makes within homes kept settled⟩
  · exact fun value moment grows makes =>
      ⟨key, binding, home, homes.mono grows, rfl, rfl, makes⟩
  · intro unsettled moment grows
    have fits : List.Forall₂ (Fits (start.Agrees functions home)) binding.recipe.params
        inputs.arguments := by
      rcases suit.arguments with ⟨kept, outcome, peeked⟩ | fits
      · have settles : ∀ moment entry, rely moment entry → Conduct.settling moment entry :=
          fun _ _ allowed =>
            Conduct.settling_of_keeping (within_keeping within _ _ allowed).2.2
        exact absurd (lawful.peeked settles peeked) (unsettled kept outcome)
      · exact fits
    have listed : ∀ item, binding.recipe.source = .list item →
        itemsOf item inputs.arguments = (servicesOf inputs.arguments).map Value.content := by
      intro item isList
      have built := (homes.isScope.grown (lawful.grow (within_keeping within))).built
      exact itemsOf_eq_of_fits (Agrees.typed fits)
        (built.listed _ _ item homes.bound isList).2
    have constructs : Request.Keeps rely (Conduct.agreeing functions) id
        (functions.Ends id home.id fun value : Value U => value.content =
          functions.created ⟨home.id, binding.recipe⟩ (servicesOf inputs.arguments))
        (construct home.id context binding.recipe inputs.arguments inputs.flag
          binding.cast.isSome) moment :=
      functions.keeps_construct (Duties.conduct_of_aside ·.aside) context inputs.flag
        binding.cast.isSome
        (Agrees.typed fits) listed
    have types := only_construct home.id context binding.recipe inputs.arguments inputs.flag
      binding.cast.isSome
    refine (types.along constructs.grows).mono ?_
    rintro outcome last _ ⟨⟨grown, ends⟩, makes, _⟩
    refine ⟨makes.type trivial, ?_⟩
    cases outcome with
    | error error => exact ends
    | ok value =>
        intro honest
        rw [ends honest]
        exact Functions.makes_created (Agrees.provides fits (honest.mono (grows.trans grown)))

/-- What is known of the value that is shown for a key. -/
theorem keeps_present (context : ContextId) (wanted : Key) {made : Value U}
    (homes : start.Homes key binding home)
    (suit : inputs.Suit (start.Agrees functions home) binding home
      (Recalls id home.id binding.recipe start))
    (typed : made.type = binding.recipe.produces)
    (makes : start.Honest functions → functions.Makes home binding.recipe made.content) :
    Request.Keeps rely (Conduct.agreeing functions) id
      (Ends (fun value moment => value.type = binding.registered.type ∧
          (moment.Honest functions → functions.Finishes home binding value.content))
        fun _ _ => True)
      (keepIf binding.recipe.lifetime.isKept home.id
        (.shown binding.recipe.id binding.registered)
        (finish home.id context wanted binding inputs.stages made)) start := by
  refine keeps_keepIf_agreeing within ?_ ?_ ?_
  · intro kept value moment lawful' grows settled
    obtain ⟨type, _⟩ :=
      lawful'.vouched (fun _ _ allowed => (within_keeping within _ _ allowed).2.2) settled
    exact ⟨type, lawful'.finishes within (homes.mono grows) kept settled⟩
  · exact fun value moment grows finishes =>
      ⟨key, binding, home, homes.mono grows, rfl, rfl, rfl, finishes⟩
  · intro _ moment grows
    have targets : ∀ stage ∈ inputs.stages,
        stage.decorator.target.type = binding.registered.type :=
      fun stage member => congrArg Key.type (suit.targets stage member)
    have finishes : Request.Keeps rely (Conduct.agreeing functions) id
        (functions.Ends id home.id fun value : Value U => value.content =
          functions.applied ⟨home.id, binding.recipe⟩ inputs.stages
            (functions.viewed ⟨home.id, binding.recipe⟩ binding made.content))
        (finish home.id context wanted binding inputs.stages made) moment :=
      functions.keeps_finish (Duties.conduct_of_aside ·.aside) context wanted typed
        homes.proper.produces
        targets fun stage member => Agrees.typed (suit.stages stage member)
    have types := only_finish home.id context wanted binding inputs.stages made
    refine (types.along finishes.grows).mono ?_
    rintro outcome last _ ⟨⟨grown, ends⟩, isFinished, _⟩
    refine ⟨isFinished.type ⟨targets, fun uncast => typed.trans (homes.proper.produces uncast)⟩,
      ?_⟩
    cases outcome with
    | error error => exact ends
    | ok value =>
        intro honest
        have before := honest.mono (grows.trans grown)
        rw [ends honest]
        exact (makes before).finishes suit.decorators fun stage member =>
          Agrees.provides (suit.stages stage member) before

end Produce

/-! ## Requests -/

/-- Requests for keys yield what the keys mean. -/
def agreement {origin : Moment U}
    (lawful : origin.Lawful (Conduct.orderly.and Conduct.growing)) (id : RequestId) :
    Upkeep rely (Conduct.agreeing functions) id where
  holds := (safekeeping (within_keeping within) lawful id).holds
  among := (safekeeping (within_keeping within) lawful id).among
  yields := fun moment => moment.Agrees functions
  failed := (safekeeping (within_keeping within) lawful id).failed
  stable := (safekeeping (within_keeping within) lawful id).stable
  harmless := fun _ _ _ idle => Duties.conduct_of_aside idle.making.aside
  ancestor := (safekeeping (within_keeping within) lawful id).ancestor
  lasts := fun grows agrees => agrees.mono grows
  plain := (safekeeping (within_keeping within) lawful id).plain
  cycle := (safekeeping (within_keeping within) lawful id).cycle
  dependency := (safekeeping (within_keeping within) lawful id).dependency
  recalled := by
    intro moment next scope key binding home outcome _ isScope finds kept lawful' grown found
      passage _
    have homes := (isScope.homes lawful finds).mono grown
    have settled := (lawful'.cell (within_keeping within) _ _).filled
      (State.kept?_eq_some.mp found)
    cases outcome with
    | error error => trivial
    | ok value =>
        obtain ⟨type, _⟩ :=
          lawful'.vouched (fun _ _ allowed => (within_keeping within _ _ allowed).2.2) settled
        refine ⟨type.trans homes.proper.type, fun honest => ?_⟩
        have finishes := lawful'.finishes within homes kept settled (honest.mono passage.suffix)
        exact finishes.means finds
  convert := by
    intro start scope key binding content _ isScope bound source _ grown
    have proper := ((isScope.grown lawful).built.sound).proper bound
    have typed : (⟨binding.recipe.produces, content⟩ : Value U).type =
        binding.recipe.produces := rfl
    have converts : Request.Keeps rely (Conduct.agreeing functions) id
        (functions.Ends id scope.id fun value : Value U => value.content =
          functions.viewed ⟨scope.id, binding.recipe⟩ binding content)
        (binding.convert scope.id key ⟨binding.recipe.produces, content⟩) start :=
      functions.keeps_convert (Duties.conduct_of_aside ·.aside) key typed
    refine ((only_convert binding scope.id key _).along converts).mono ?_
    rintro (error | value) moment _ ⟨ends, converted, passage⟩
    · trivial
    · refine ⟨grown.trans passage.suffix, ?_, fun honest => ⟨1, ?_⟩⟩
      · exact (converted.type proper.produces value rfl).trans proper.type
      · rw [ends honest]
        exact Functions.meaning_succ.mpr ⟨binding, bound, .inl ⟨content, source, rfl⟩⟩
  produce := by
    intro start scope key binding home inputs context _ isScope finds begun grown suit
    have homes := (isScope.homes lawful finds).mono grown
    refine Request.keeps_bind (keeps_make within context begun homes suit).grows ?_ ?_
    · exact fun _ _ _ _ => trivial
    rintro made moment _ ⟨grown', typed, makes⟩
    have recalls : Recalls id home.id binding.recipe start →
        Recalls id home.id binding.recipe moment :=
      fun ⟨outcome, peeked⟩ => ⟨outcome, grown'.mem peeked⟩
    have suit := suit.mono (fun _ _ agrees => Agrees.mono agrees grown') recalls
    refine (keeps_present within context key (homes.mono grown') suit typed makes).grows.mono ?_
    rintro (error | value) last _ ⟨grown'', type, finishes⟩
    · trivial
    · exact ⟨grown.trans (grown'.trans grown''), type.trans homes.proper.type,
        fun honest => (finishes honest).means finds⟩

/-- All requests keep to the conduct. -/
theorem kept_agreeing : Conduct.Kept rely (Conduct.agreeing functions) := by
  refine .ofResolving (fun _ _ _ => trivial) (Duties.conduct_of_aside ·.aside) ?_ ?_
  · rintro moment id demand (error | reply) began other
    · trivial
    cases reply with
    | resolved value =>
        exact fun _ => ⟨demand, began, fun scope key asks => absurd asks.resolves other⟩
    | built _ => trivial
    | invoked _ => trivial
    | nothing => trivial
  · intro moment id demand after lawful orderly recorded resolves
    have began : after.Did id (.started demand) := recorded.did
    obtain ⟨origin, named⟩ := (lawful.grow (within_keeping within)).starts orderly recorded
    refine ((agreement within origin id).asking resolves named (List.suffix_refl _)).mono ?_
    rintro (error | reply) last _ ends
    · trivial
    · obtain ⟨grown, ⟨value, rfl, agrees⟩ | ⟨_, rfl⟩⟩ := ends
      · have grown : after.history <:+ last.history := grown
        exact fun honest =>
          ⟨demand, grown.mem began, fun scope key asks => (agrees scope key asks).means honest⟩
      · trivial

end Kept

/-- As long as the functions of the client do what is said of them, whatever a request for a key
ends with is what the key means, in whatever order requests act. -/
theorem resolved_means {activity : Activity U} (reachable : activity.Reachable)
    (honest : activity.moment.Honest functions) {id : RequestId} {demand : Demand U}
    {value : Value U} (began : activity.moment.Did id (.started demand))
    (ended : activity.moment.Did id (.finished (.ok (.resolved value)))) {scope : Scope U}
    {key : Key} (asks : demand.Asks scope key) : functions.Means scope key value.content := by
  have conduct : Conduct.Kept
      (Conduct.orderly.and (Conduct.growing.and
        (Conduct.keeping.and (Conduct.agreeing functions))))
      ((@Conduct.growing U).and (Conduct.keeping.and (Conduct.agreeing functions))) :=
    kept_growing.and ((kept_keeping fun _ _ all => ⟨all.1, all.2.1, all.2.2.1⟩).and
      (kept_agreeing fun _ _ all => all))
  have lawful := reachable.lawful conduct
  obtain ⟨before, _, grows, _, _, _, agrees⟩ := lawful.allowed ended
  obtain ⟨other, began', means⟩ := agrees (honest.mono grows)
  have same := (lawful.mono fun _ _ all => all.1).started_once began (grows.mem began')
  exact means scope key (same ▸ asks)

end Provision
