import Provision.Proofs.Registries.ScopeTree

/-!
# Tagging parameters

An offer may say under which tags its constructor's parameters are registered, one call for each
tag.  A call tags the first parameter of its type that has no tag yet, so the calls that name one
type serve the parameters of this type from left to right, whatever is said of other types in
between; a call that finds none left is an issue.

Main statement: `parameters_tagged_in_order`.
-/

namespace Provision

variable {U : Client}

/-- The parameter without its tag; the ambient parameters have none. -/
def Param.untagged : Param → Param
  | .service key => .service key.untagged
  | param => param

/-- The tags that calls give to a type, in the order of the calls. -/
def tagsFor (type : ServiceType) (calls : List (ServiceType × Tag)) : List Tag :=
  calls.filterMap fun call => if call.1 = type then some call.2 else none

/-- The calls for which no parameter is left: those before which as many calls have named their
type as there are parameters of it without a tag. -/
def leftOver (params : List Param) (calls : List (ServiceType × Tag)) :
    List (ServiceType × Tag) :=
  (calls.zipIdx.filter fun (call, earlier) =>
    decide (params.count (.service (.of call.1)) ≤
      (tagsFor call.1 (calls.take earlier)).length)).map Prod.fst

/-! ## One call -/

namespace Offer

variable {type other : ServiceType} {tag : Tag} {params tagged : List Param}

/-- Tagging needs a parameter of the type without a tag, and nothing else. -/
theorem retag_eq_none_iff :
    retag type tag params = none ↔ params.count (.service (.of type)) = 0 := by
  induction params with
  | nil => simp [retag]
  | cons param rest ih =>
      by_cases here : param = .service (.of type)
      · simp [retag, here]
      · simp [retag, here, ih]

/-- The first parameter of the type without a tag gets the tag; all others stay. -/
theorem retag_getElem? (found : retag type tag params = some tagged) (index : Nat) :
    tagged[index]? =
      if params[index]? = some (.service (.of type)) ∧
          (params.take index).count (.service (.of type)) = 0 then
        some (.service ((Key.of type).withTag tag))
      else params[index]? := by
  induction params generalizing tagged index with
  | nil => simp [retag] at found
  | cons param rest ih =>
      by_cases here : param = .service (.of type)
      · simp only [retag, here, if_true, Option.some.injEq] at found
        subst found
        cases index <;> simp [here]
      · simp only [retag, here, if_false, Option.map_eq_some_iff] at found
        obtain ⟨tagged, found, rfl⟩ := found
        cases index with
        | zero => simp [here]
        | succ index => simp [ih found index, here]

/-- One parameter fewer is left for the type, from the first of them on. -/
theorem retag_count_take (found : retag type tag params = some tagged) (other : ServiceType)
    (index : Nat) :
    (tagged.take index).count (.service (.of other)) =
      (params.take index).count (.service (.of other)) - if other = type then 1 else 0 := by
  induction params generalizing tagged index with
  | nil => simp [retag] at found
  | cons param rest ih =>
      cases index with
      | zero => simp
      | succ index =>
          by_cases here : param = .service (.of type)
          · simp only [retag, here, if_true, Option.some.injEq] at found
            subst found
            by_cases same : other = type
            · simp [here, same, Key.of, Key.withTag]
            · simp [here, same, Ne.symm same, Key.of, Key.withTag]
          · simp only [retag, here, if_false, Option.map_eq_some_iff] at found
            obtain ⟨tagged, found, rfl⟩ := found
            rw [List.take_succ_cons, List.take_succ_cons, List.count_cons, List.count_cons,
              ih found index]
            by_cases same : other = type
            · simp [same, here]
            · simp [same]

/-- What is asked for stays, but for the tags. -/
theorem retag_untagged (found : retag type tag params = some tagged) :
    tagged.map Param.untagged = params.map Param.untagged := by
  induction params generalizing tagged with
  | nil => simp [retag] at found
  | cons param rest ih =>
      by_cases here : param = .service (.of type)
      · simp only [retag, here, if_true, Option.some.injEq] at found
        subst found
        rw [here]
        rfl
      · simp only [retag, here, if_false, Option.map_eq_some_iff] at found
        obtain ⟨tagged, found, rfl⟩ := found
        rw [List.map_cons, List.map_cons, ih found]

/-- One parameter fewer is left for the type. -/
theorem retag_count (found : retag type tag params = some tagged) :
    tagged.count (.service (.of other)) =
      params.count (.service (.of other)) - if other = type then 1 else 0 := by
  have length : tagged.length = params.length := by
    simpa using congrArg List.length (retag_untagged found)
  have counted := retag_count_take found other params.length
  rwa [List.take_length, ← length, List.take_length] at counted

end Offer

/-! ## What is left over -/

section LeftOver

variable {params tagged : List Param} {type : ServiceType} {tag : Tag}

theorem tagsFor_cons_self (type : ServiceType) (tag : Tag) (calls : List (ServiceType × Tag)) :
    tagsFor type ((type, tag) :: calls) = tag :: tagsFor type calls := by
  simp [tagsFor]

theorem tagsFor_cons_of_ne {other : ServiceType} (differs : other ≠ type) (tag : Tag)
    (calls : List (ServiceType × Tag)) :
    tagsFor other ((type, tag) :: calls) = tagsFor other calls := by
  simp [tagsFor, Ne.symm differs]

/-- Whether the first call is left over, and what the others find after it. -/
theorem leftOver_cons (params : List Param) (call : ServiceType × Tag)
    (calls : List (ServiceType × Tag)) :
    leftOver params (call :: calls) =
      (if params.count (.service (.of call.1)) = 0 then [call] else []) ++
        (calls.zipIdx.filter fun (other, earlier) =>
          decide (params.count (.service (.of other.1)) ≤
            (tagsFor other.1 (call :: calls.take earlier)).length)).map Prod.fst := by
  unfold leftOver
  rw [List.zipIdx_cons', List.filter_cons, List.filter_map, apply_ite (List.map Prod.fst),
    List.map_cons, List.map_map]
  by_cases none : params.count (.service (.of call.1)) = 0
  · rw [if_pos none, if_pos (by simp [none])]
    rfl
  · rw [if_neg none, if_neg (by simpa [tagsFor] using none)]
    rfl

/-- A call for which there is no parameter is left over and makes no difference to the others. -/
theorem leftOver_cons_of_none (none : Offer.retag type tag params = none)
    (calls : List (ServiceType × Tag)) :
    leftOver params ((type, tag) :: calls) = (type, tag) :: leftOver params calls := by
  have empty := Offer.retag_eq_none_iff.mp none
  rw [leftOver_cons, if_pos empty, List.singleton_append, leftOver]
  congr 2
  refine List.filter_congr fun ⟨other, earlier⟩ _ => ?_
  by_cases same : other.1 = type
  · simp [same, empty]
  · simp only [tagsFor_cons_of_ne same]

/-- A call for which there is a parameter takes it from the others. -/
theorem leftOver_cons_of_some (found : Offer.retag type tag params = some tagged)
    (calls : List (ServiceType × Tag)) :
    leftOver params ((type, tag) :: calls) = leftOver tagged calls := by
  have positive : params.count (.service (.of type)) ≠ 0 := by
    intro empty
    rw [Offer.retag_eq_none_iff.mpr empty] at found
    cases found
  rw [leftOver_cons, if_neg positive, List.nil_append, leftOver]
  congr 1
  refine List.filter_congr fun ⟨other, earlier⟩ _ => ?_
  by_cases same : other.1 = type
  · simp only [same, tagsFor_cons_self, List.length_cons, Offer.retag_count found, if_true]
    exact decide_eq_decide.mpr (by omega)
  · simp only [tagsFor_cons_of_ne same, Offer.retag_count found, same, if_false, Nat.sub_zero]

/-- Nothing is left over if no type is named more often than there are parameters for it. -/
theorem leftOver_eq_nil_iff {calls : List (ServiceType × Tag)} :
    leftOver params calls = [] ↔
      ∀ type, (tagsFor type calls).length ≤ params.count (.service (.of type)) := by
  induction calls generalizing params with
  | nil => simp [leftOver, tagsFor]
  | cons call calls ih =>
      obtain ⟨type, tag⟩ := call
      cases step : Offer.retag type tag params with
      | none =>
          have empty := Offer.retag_eq_none_iff.mp step
          rw [leftOver_cons_of_none step]
          refine iff_of_false (List.cons_ne_nil _ _) fun enough => ?_
          have one := enough type
          rw [empty, tagsFor_cons_self] at one
          simp at one
      | some tagged =>
          have positive : params.count (.service (.of type)) ≠ 0 := by
            intro empty
            rw [Offer.retag_eq_none_iff.mpr empty] at step
            cases step
          rw [leftOver_cons_of_some step, ih]
          refine forall_congr' fun other => ?_
          rw [Offer.retag_count step]
          by_cases same : other = type
          · rw [same, tagsFor_cons_self, List.length_cons, if_pos rfl]
            omega
          · rw [tagsFor_cons_of_ne same, if_neg same, Nat.sub_zero]

end LeftOver

/-! ## All calls -/

namespace Offer

/-- Carry out calls one after another. -/
def dependencyTags (offer : Offer U) (calls : List (ServiceType × Tag)) : Offer U :=
  calls.foldl (fun offer call => offer.dependencyTag call.1 call.2) offer

/-- What is wrong with a call for which no parameter is left. -/
def unknownParameter (offer : Offer U) (call : ServiceType × Tag) : Issue :=
  .unknownParameter offer.produces.text call.1.text call.2.text

/-- What calls make of an offer. -/
structure TaggedBy (calls : List (ServiceType × Tag)) (offer tagged : Offer U) : Prop where
  /-- Nothing changes but the parameters and the issues. -/
  others : tagged = { offer with origin := tagged.origin, issues := tagged.issues }
  /-- The fixed value or the constructor is the same. -/
  source : tagged.source = offer.source
  /-- There are as many parameters as before, and each is what it was but for its tag. -/
  asked : tagged.params.map Param.untagged = offer.params.map Param.untagged
  /-- A parameter without a tag is given the tag of the call that comes at its turn among those
  that name its type, or none if there is no such call. -/
  given : ∀ {index : Nat} {type : ServiceType},
    offer.params[index]? = some (.service (.of type)) →
      tagged.params[index]? = some (.service
        ⟨type, (tagsFor type calls)[(offer.params.take index).count (.service (.of type))]?⟩)
  /-- Ambient parameters, and those that have a tag already, stay. -/
  kept : ∀ {index : Nat} {param : Param}, offer.params[index]? = some param →
    (∀ type, param ≠ .service (.of type)) → tagged.params[index]? = some param
  /-- Each call for which no parameter is left is an issue, and nothing else is. -/
  issues : tagged.issues =
    offer.issues ++ (leftOver offer.params calls).map offer.unknownParameter

variable {offer : Offer U}

/-- A call tags a parameter of the constructor, or it is an issue. -/
theorem dependencyTag_cases (offer : Offer U) (type : ServiceType) (tag : Tag) :
    (retag type tag offer.params = none ∧
      offer.dependencyTag type tag = offer.reject (offer.unknownParameter (type, tag))) ∨
    ∃ make params tagged, offer.origin = .factory make params ∧
      retag type tag params = some tagged ∧
      offer.dependencyTag type tag = { offer with origin := .factory make tagged } := by
  cases origin : offer.origin with
  | value content => exact .inl (by simp [params, dependencyTag, origin, retag, unknownParameter])
  | factory make params =>
      cases step : retag type tag params with
      | none =>
          refine .inl ⟨by simp [Offer.params, origin, step], ?_⟩
          simp [dependencyTag, origin, step, unknownParameter]
      | some tagged =>
          exact .inr ⟨make, params, tagged, rfl, step, by simp [dependencyTag, origin, step]⟩

theorem TaggedBy.nil (offer : Offer U) : TaggedBy [] offer offer where
  others := rfl
  source := rfl
  asked := rfl
  given found := by simpa [tagsFor, Key.of] using found
  kept found _ := found
  issues := by simp [leftOver]

/-- A call without a parameter leaves everything to the calls that follow. -/
theorem TaggedBy.of_none {type : ServiceType} {tag : Tag} {calls : List (ServiceType × Tag)}
    {tagged : Offer U} (none : retag type tag offer.params = none)
    (rest : TaggedBy calls (offer.reject (offer.unknownParameter (type, tag))) tagged) :
    TaggedBy ((type, tag) :: calls) offer tagged where
  others := rest.others
  source := rest.source
  asked := rest.asked
  given := by
    intro index other found
    have differs : other ≠ type := by
      rintro rfl
      exact List.count_eq_zero.mp (retag_eq_none_iff.mp none) (List.mem_of_getElem? found)
    rw [tagsFor_cons_of_ne differs]
    exact rest.given found
  kept := rest.kept
  issues := by
    rw [leftOver_cons_of_none none, List.map_cons, List.append_cons]
    exact rest.issues

/-- A call takes the first parameter of its type, and those that follow share the others. -/
theorem TaggedBy.of_some {type : ServiceType} {tag : Tag} {calls : List (ServiceType × Tag)}
    {make : U.Constructor} {params after : List Param} {tagged : Offer U}
    (origin : offer.origin = .factory make params) (step : retag type tag params = some after)
    (rest : TaggedBy calls { offer with origin := .factory make after } tagged) :
    TaggedBy ((type, tag) :: calls) offer tagged := by
  have before : offer.params = params := by simp [Offer.params, origin]
  refine ⟨rest.others, ?_, ?_, ?_, ?_, ?_⟩
  · rw [rest.source]
    simp [Offer.source, origin]
  · rw [rest.asked, before]
    exact retag_untagged step
  · intro index other found
    rw [before] at found ⊢
    have now := retag_getElem? step index
    by_cases first : params[index]? = some (.service (.of type)) ∧
        (params.take index).count (.service (.of type)) = 0
    · -- the parameter that this call takes has a tag from now on
      rw [if_pos first] at now
      obtain ⟨here, turn⟩ := first
      obtain rfl : other = type := by
        rw [found] at here
        simpa [Key.of] using here
      rw [turn, tagsFor_cons_self, List.getElem?_cons_zero]
      exact rest.kept now (by simp [Key.of])
    · rw [if_neg first, found] at now
      have given := rest.given now
      have turn := retag_count_take step other index
      by_cases same : other = type
      · subst same
        rw [tagsFor_cons_self]
        have later : (params.take index).count (.service (.of other)) =
            (after.take index).count (.service (.of other)) + 1 := by
          have positive : (params.take index).count (.service (.of other)) ≠ 0 :=
            fun none => first ⟨found, none⟩
          rw [if_pos rfl] at turn
          omega
        rw [later, List.getElem?_cons_succ]
        exact given
      · rw [if_neg same, Nat.sub_zero] at turn
        rw [tagsFor_cons_of_ne same, ← turn]
        exact given
  · intro index param found tagless
    rw [before] at found
    have now := retag_getElem? step index
    rw [if_neg fun first => tagless type (Option.some.inj (found.symm.trans first.1)), found] at now
    exact rest.kept now tagless
  · rw [before, leftOver_cons_of_some step]
    exact rest.issues

/-- Calls are carried out in order. -/
theorem taggedBy_dependencyTags (offer : Offer U) (calls : List (ServiceType × Tag)) :
    TaggedBy calls offer (offer.dependencyTags calls) := by
  induction calls generalizing offer with
  | nil => exact .nil offer
  | cons call calls ih =>
      obtain ⟨type, tag⟩ := call
      have rest := ih (offer.dependencyTag type tag)
      rcases offer.dependencyTag_cases type tag with ⟨none, same⟩ | ⟨_, _, _, origin, step, same⟩
      · rw [same] at rest
        exact .of_none none (same ▸ rest)
      · rw [same] at rest
        exact .of_some origin step (same ▸ rest)

end Offer

/-- A builder accepts an offer exactly if nothing is wrong with it. -/
theorem Builder.accepted_add_iff (builder : Builder U) (offer : Offer U) :
    (builder.add (.service offer)).accepted = builder.accepted + 1 ↔ offer.issues = [] := by
  cases wrong : offer.issues with
  | nil => simp [add, Registration.issues, wrong, accept_accepted]
  | cons issue issues => simp [add, Registration.issues, wrong]

/-- A builder notes what is wrong with an offer. -/
theorem Builder.issues_add_of_wrong (builder : Builder U) {offer : Offer U}
    (wrong : offer.issues ≠ []) :
    (builder.add (.service offer)).issues = builder.issues ++ offer.issues := by
  cases found : offer.issues with
  | nil => exact absurd found wrong
  | cons issue issues => simp [add, Registration.issues, found]

/-- Calls that tag parameters serve them by position: the parameters that ask for a type without a
tag are given, from left to right, the tags of the calls that name this type, in the order of the
calls, until either run out.  Nothing else changes, and each call for which no parameter is left is
an issue.  As far as tags are concerned the offer is accepted exactly if no call is left over, which
means that no type is named more often than there are parameters for it; otherwise the builder
notes the calls that are left over, in their order. -/
theorem parameters_tagged_in_order (offer : Offer U) (calls : List (ServiceType × Tag)) :
    Offer.TaggedBy calls offer (offer.dependencyTags calls) ∧
    (leftOver offer.params calls = [] ↔
      ∀ type, (tagsFor type calls).length ≤ offer.params.count (.service (.of type))) ∧
    ∀ builder : Builder U,
      ((builder.add (.service (offer.dependencyTags calls))).accepted = builder.accepted + 1 ↔
        offer.issues = [] ∧ leftOver offer.params calls = []) ∧
      (leftOver offer.params calls ≠ [] →
        (builder.add (.service (offer.dependencyTags calls))).issues = builder.issues ++
          (offer.issues ++ (leftOver offer.params calls).map offer.unknownParameter)) := by
  have tagged := offer.taggedBy_dependencyTags calls
  refine ⟨tagged, leftOver_eq_nil_iff, fun builder => ⟨?_, fun some => ?_⟩⟩
  · rw [builder.accepted_add_iff, tagged.issues, List.append_eq_nil_iff, List.map_eq_nil_iff]
  · rw [builder.issues_add_of_wrong, tagged.issues]
    rw [tagged.issues]
    exact List.append_ne_nil_of_right_ne_nil _ (mt List.map_eq_nil_iff.mp some)

/-- Two stores and a clock beside the context: the third tag for a store finds none. -/
example (make : U.Constructor) :
    let store : ServiceType := .interface "app" "Store"
    let clock : ServiceType := .concrete "app" "Clock"
    let offer : Offer U := .factory (.concrete "app" "Report") make
      [.service (.of store), .context, .service (.of clock), .service (.of store)]
    let calls := [(store, .named "main"), (clock, .named "utc"), (store, .named "old"),
      (store, .named "spare")]
    (offer.dependencyTags calls).params =
      [.service ⟨store, some (.named "main")⟩, .context, .service ⟨clock, some (.named "utc")⟩,
        .service ⟨store, some (.named "old")⟩] ∧
    leftOver offer.params calls = [(store, .named "spare")] := by
  exact ⟨rfl, rfl⟩

end Provision
