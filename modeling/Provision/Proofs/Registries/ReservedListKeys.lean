import Provision.Proofs.Registries.RegistryContents

/-!
# Keys that are reserved for lists

Once something is registered for a type, the key of the list of the type belongs to that list.  So
two keys exclude each other if one is that of the list of the other's type, and a builder refuses
whichever comes later, as long as it bound the one that came before.

Main statements: `Registry.Reflects.addAll`, which tells what a builder binds and reports, and
`Reports.reported_eq_nil_iff`, that it reports nothing exactly if nothing is wrong with any
registration by itself and no two keys exclude each other.
-/

namespace Provision

variable {U : Client}

/-! ## Keys that exclude each other -/

/-- No key is that of the list of another's type. -/
def Unreserved (keys : List Key) : Prop :=
  ∀ key ∈ keys, key.listKey ∉ keys

/-- Why a key cannot be bound beside some others: it is that of the list of one of them, or the key
of its own list is one of them.  Either way a key of a list is named that is reserved. -/
inductive Key.Refused (others : List Key) (key : Key) : Key → Prop where
  | list {item : Key} : item ∈ others → item.listKey = key → Refused others key key
  | item : key.listKey ∈ others → Refused others key key.listKey

/-- The key that is named if another one is refused after some were bound. -/
def refusal? (bound : List Key) (key : Key) : Option Key :=
  if ∃ other ∈ bound, other.listKey = key then some key
  else if key.listKey ∈ bound then some key.listKey
  else none

/-- What becomes of keys that are to be bound one after another beside those that are: some are
bound, and for the others reserved keys are named. -/
structure Settles (before keys after refused : List Key) : Prop where
  kept : before ⊆ after
  known : after ⊆ before ++ keys
  unreserved : Unreserved after
  settled : ∀ key ∈ keys, key ∈ after ∨ ∃ reserved ∈ refused, key.Refused (before ++ keys) reserved
  reasons : ∀ reserved ∈ refused, ∃ key ∈ keys, key.Refused (before ++ keys) reserved

section Keys

variable {keys others before middle after refused more : List Key} {key reserved : Key}

theorem Unreserved.mono (unreserved : Unreserved others) (subset : keys ⊆ others) :
    Unreserved keys :=
  fun key member reserved => unreserved key (subset member) (subset reserved)

theorem Key.Refused.mono (isRefused : key.Refused keys reserved) (subset : keys ⊆ others) :
    key.Refused others reserved := by
  cases isRefused with
  | list member isList => exact .list (subset member) isList
  | item member => exact .item (subset member)

/-- None of the keys that are unreserved is refused by the others. -/
theorem Unreserved.not_refused (unreserved : Unreserved keys) (member : key ∈ keys) :
    ¬ key.Refused keys reserved := by
  intro isRefused
  cases isRefused with
  | list isItem isList => exact unreserved _ isItem (isList ▸ member)
  | item isList => exact unreserved key member isList

/-- A key that a bind refuses is refused by what was bound. -/
theorem refused_of_refusal? (isRefused : refusal? keys key = some reserved) :
    key.Refused keys reserved := by
  unfold refusal? at isRefused
  split at isRefused
  · next isList =>
    cases isRefused
    obtain ⟨item, member, isKey⟩ := isList
    exact .list member isKey
  · split at isRefused
    · next isItem =>
      cases isRefused
      exact .item isItem
    · cases isRefused

/-- A key that no bind refuses may be added to those that are unreserved. -/
theorem Unreserved.concat (unreserved : Unreserved keys) (free : refusal? keys key = none) :
    Unreserved (keys ++ [key]) := by
  unfold refusal? at free
  split at free
  · cases free
  next notList =>
  split at free
  · cases free
  next notItem =>
  intro item member isList
  rcases List.mem_append.mp member with before | last
  · rcases List.mem_append.mp isList with isBound | isKey
    · exact unreserved item before isBound
    · exact notList ⟨item, before, List.mem_singleton.mp isKey⟩
  · obtain rfl := List.mem_singleton.mp last
    rcases List.mem_append.mp isList with isBound | isKey
    · exact notItem isBound
    · exact ServiceType.list_ne item.type (congrArg Key.type (List.mem_singleton.mp isKey))

namespace Settles

/-- No keys are settled without a report. -/
theorem nil (unreserved : Unreserved before) : Settles before [] before [] where
  kept := List.Subset.refl _
  known := List.subset_append_left _ _
  unreserved := unreserved
  settled := nofun
  reasons := nofun

/-- A key that is free is bound and nothing is reported of it. -/
theorem bound (unreserved : Unreserved before) (free : refusal? before key = none) :
    Settles before [key] (before ++ [key]) [] where
  kept := List.subset_append_left _ _
  known := List.Subset.refl _
  unreserved := unreserved.concat free
  settled := fun _ member => .inl (List.mem_append_right _ member)
  reasons := nofun

/-- A key that is refused is reported and not bound. -/
theorem refuses (unreserved : Unreserved before) (isRefused : refusal? before key = some reserved) :
    Settles before [key] before [reserved] where
  kept := List.Subset.refl _
  known := List.subset_append_left _ _
  unreserved := unreserved
  settled := by
    intro other member
    rw [List.mem_singleton.mp member]
    have reason := refused_of_refusal? isRefused
    exact .inr ⟨reserved, List.mem_singleton_self _, reason.mono (List.subset_append_left _ _)⟩
  reasons := by
    intro other member
    rw [List.mem_singleton.mp member]
    have reason := refused_of_refusal? isRefused
    exact ⟨key, List.mem_singleton_self _, reason.mono (List.subset_append_left _ _)⟩

/-- Some keys, and then more. -/
theorem trans {refused' : List Key} (first : Settles before keys middle refused)
    (second : Settles middle more after refused') :
    Settles before (keys ++ more) after (refused ++ refused') := by
  have earlier : before ++ keys ⊆ before ++ (keys ++ more) := by
    rw [← List.append_assoc]
    exact List.subset_append_left _ _
  have later : middle ++ more ⊆ before ++ (keys ++ more) := by
    rw [← List.append_assoc]
    apply List.append_subset.mpr ⟨List.Subset.trans first.known (List.subset_append_left _ _), ?_⟩
    exact List.subset_append_right _ _
  refine ⟨List.Subset.trans first.kept second.kept, List.Subset.trans second.known later,
    second.unreserved, ?_, ?_⟩
  · intro key member
    rcases List.mem_append.mp member with here | there
    · rcases first.settled key here with isBound | ⟨reserved, named, reason⟩
      · exact .inl (second.kept isBound)
      · exact .inr ⟨reserved, List.mem_append_left _ named, reason.mono earlier⟩
    · rcases second.settled key there with isBound | ⟨reserved, named, reason⟩
      · exact .inl isBound
      · exact .inr ⟨reserved, List.mem_append_right _ named, reason.mono later⟩
  · intro reserved named
    rcases List.mem_append.mp named with here | there
    · obtain ⟨key, member, reason⟩ := first.reasons reserved here
      exact ⟨key, List.mem_append_left _ member, reason.mono earlier⟩
    · obtain ⟨key, member, reason⟩ := second.reasons reserved there
      exact ⟨key, List.mem_append_right _ member, reason.mono later⟩

/-- If nothing is refused, all keys are bound. -/
theorem mem_after_iff (settles : Settles before keys after refused) (none : refused = []) :
    key ∈ after ↔ key ∈ before ++ keys := by
  subst none
  refine ⟨fun member => settles.known member, fun member => ?_⟩
  rcases List.mem_append.mp member with isBefore | isNew
  · exact settles.kept isBefore
  · rcases settles.settled key isNew with isBound | ⟨_, impossible, _⟩
    · exact isBound
    · cases impossible

/-- Nothing is refused exactly if no two of all keys exclude each other. -/
theorem refused_eq_nil_iff (settles : Settles before keys after refused) :
    refused = [] ↔ Unreserved (before ++ keys) := by
  constructor
  · intro none
    exact settles.unreserved.mono fun _ => (settles.mem_after_iff none).mpr
  · intro unreserved
    rw [List.eq_nil_iff_forall_not_mem]
    intro reserved named
    obtain ⟨key, member, reason⟩ := settles.reasons reserved named
    exact unreserved.not_refused (List.mem_append_right _ member) reason

/-- Of two keys that exclude each other one is refused: for the sake of the list's key, or in favour
of yet another key. -/
theorem excludes (settles : Settles before keys after refused) (isItem : key ∈ before ++ keys)
    (isList : key.listKey ∈ before ++ keys) :
    key.listKey ∈ refused ∨ (key ∈ refused ∧ ∃ item ∈ before ++ keys, item.listKey = key) ∨
      (key.listKey.listKey ∈ refused ∧ key.listKey.listKey ∈ before ++ keys) := by
  have settled : ∀ {other}, other ∈ before ++ keys →
      other ∈ after ∨ ∃ reserved ∈ refused, other.Refused (before ++ keys) reserved := by
    intro other member
    rcases List.mem_append.mp member with isBefore | isNew
    · exact .inl (settles.kept isBefore)
    · exact settles.settled other isNew
  rcases settled isItem with itemBound | ⟨reserved, named, reason⟩
  · rcases settled isList with listBound | ⟨reserved, named, reason⟩
    · exact absurd listBound (settles.unreserved key itemBound)
    · cases reason with
      | list _ _ => exact .inl named
      | item isKnown => exact .inr (.inr ⟨named, isKnown⟩)
  · cases reason with
    | list isKnown isKey => exact .inr (.inl ⟨named, _, isKnown, isKey⟩)
    | item _ => exact .inl named

end Settles

end Keys

/-! ## Binding keys -/

/-- The keys of what was bound, in order. -/
def registeredKeys (bound : List (Binding U)) : List Key :=
  bound.map Binding.registered

namespace Registry.Reflects

variable {registry : Registry U} {bound : List (Binding U)} (reflects : registry.Reflects bound)

/-- Something is exposed as a type if a key was bound of which its list consists. -/
theorem exposed_ne_nil_iff {item : ServiceType} :
    exposed bound item ≠ [] ↔ ∃ other ∈ registeredKeys bound, other.listKey = .of (.list item) := by
  constructor
  · intro some
    obtain ⟨binding, member⟩ := List.exists_mem_of_ne_nil _ some
    obtain ⟨isBound, typed⟩ := List.mem_filter.mp member
    refine ⟨binding.registered, List.mem_map_of_mem isBound, ?_⟩
    rw [Key.listKey, of_decide_eq_true typed]
  · rintro ⟨_, member, isList⟩
    obtain ⟨binding, isBound, rfl⟩ := List.mem_map.mp member
    have typed : binding.registered.type = item := by
      simpa [Key.listKey, Key.of] using isList
    exact List.ne_nil_of_mem (List.mem_filter.mpr ⟨isBound, decide_eq_true typed⟩)

/-- A list is bound under its own key only if it was registered so. -/
theorem latest?_list_eq_none_iff {item : ServiceType} :
    latest? bound (.of (.list item)) = none ↔ Key.of (.list item) ∉ registeredKeys bound := by
  rw [latest?_registered rfl, List.getLast?_eq_none_iff, List.filter_eq_nil_iff]
  constructor
  · intro none member
    obtain ⟨binding, isBound, isKey⟩ := List.mem_map.mp member
    refine none binding (List.mem_filter.mpr ⟨isBound, ?_⟩) (decide_eq_true isKey)
    rw [isKey, decide_eq_true_eq]
  · intro unbound binding member isKey
    apply unbound
    rw [← of_decide_eq_true isKey]
    exact List.mem_map_of_mem (List.mem_filter.mp member).1

include reflects

/-- No two keys that were bound exclude each other. -/
theorem unreserved : Unreserved (registeredKeys bound) := by
  intro key member isBound
  rcases reflects.apart key.type with unbound | none
  · exact latest?_list_eq_none_iff.mp unbound isBound
  · exact exposed_ne_nil_iff.mpr ⟨key, member, rfl⟩ none

/-- The keys of lists are those of the lists that have items. -/
theorem isList_iff (key : Key) :
    registry.isList key = true ↔ ∃ other ∈ registeredKeys bound, other.listKey = key := by
  by_cases listed : ∃ item, key = .of (.list item)
  · obtain ⟨item, rfl⟩ := listed
    rw [← exposed_ne_nil_iff, Registry.isList, reflects.find, listing?_list]
    rcases reflects.apart item with unbound | none
    · rw [unbound, Option.none_or]
      cases last : (exposed bound item).getLast? with
      | none => simp [List.getLast?_eq_none_iff.mp last]
      | some binding =>
          have some : exposed bound item ≠ [] := by
            intro none
            rw [none] at last
            cases last
          simp [some, Recipe.ofItems, Recipe.isList]
    · rw [none, List.getLast?_nil, Option.map_none, Option.or_none]
      cases latest : latest? bound (.of (.list item)) with
      | none => simp
      | some binding =>
          have plain := reflects.plain binding (List.mem_filter.mp (mem_of_latest? latest)).1
          simp [plain]
  · have differs : ∀ item, key ≠ .of (.list item) := fun item same => listed ⟨item, same⟩
    have none : ¬ ∃ other ∈ registeredKeys bound, other.listKey = key := by
      rintro ⟨other, _, rfl⟩
      exact differs other.type rfl
    rw [Registry.isList, reflects.find, listing?_of_ne_list differs, Option.or_none]
    cases latest : latest? bound key with
    | none => simp [none]
    | some binding =>
        have plain := reflects.plain binding (List.mem_filter.mp (mem_of_latest? latest)).1
        simp [plain, none]

/-- Items are collected for a key as long as nothing was bound under the key of its list. -/
theorem collects_or_reserved (key : Key) :
    (key.listKey ∉ registeredKeys bound ∧ ∃ items, registry.items key = .ok items) ∨
      (key.listKey ∈ registeredKeys bound ∧
        registry.items key = .error (.reserved key.listKey)) := by
  have unbound : latest? bound key.listKey = none ↔ key.listKey ∉ registeredKeys bound :=
    latest?_list_eq_none_iff
  have listing := listing?_list bound key.type
  rw [show Key.of (.list key.type) = key.listKey from rfl] at listing
  cases latest : latest? bound key.listKey with
  | none =>
      refine .inl ⟨unbound.mp latest, ?_⟩
      simp only [Registry.items, reflects.find, latest, listing, Option.none_or]
      cases (exposed bound key.type).getLast? with
      | none => exact ⟨[], rfl⟩
      | some last => exact ⟨_, rfl⟩
  | some binding =>
      have plain := reflects.plain binding (List.mem_filter.mp (mem_of_latest? latest)).1
      have isBound : key.listKey ∈ registeredKeys bound := by
        by_contra free
        cases (unbound.mpr free).symm.trans latest
      refine .inr ⟨isBound, ?_⟩
      simp only [Registry.items, reflects.find, latest, Option.some_or, plain, Bool.false_eq_true,
        if_false]

/-- A key is bound exactly if it is not refused. -/
theorem bind_cases (binding : Binding U) :
    (refusal? (registeredKeys bound) binding.registered = none ∧
        ∃ after, registry.bind binding.registered binding = .ok after) ∨
      ∃ reserved, refusal? (registeredKeys bound) binding.registered = some reserved ∧
        registry.bind binding.registered binding = .error (.reserved reserved) := by
  unfold refusal? Registry.bind
  by_cases listed : registry.isList binding.registered = true
  · have isList := (reflects.isList_iff binding.registered).mp listed
    exact .inr ⟨binding.registered, by rw [if_pos isList], by rw [if_pos listed]⟩
  · have notList : ¬ ∃ other ∈ registeredKeys bound, other.listKey = binding.registered :=
      fun isList => listed ((reflects.isList_iff binding.registered).mpr isList)
    rw [if_neg notList, if_neg listed]
    rcases reflects.collects_or_reserved binding.registered with ⟨free, items, collects⟩ |
      ⟨isBound, reserves⟩
    · exact .inl ⟨by rw [if_neg free], _, by rw [collects]⟩
    · exact .inr ⟨_, by rw [if_pos isBound], by rw [reserves]⟩

end Registry.Reflects

/-! ## Registrations -/

/-- The keys under which a registration makes its service visible. -/
def Registration.keys : Registration U → List Key
  | .service offer => offer.views.map fun view => { type := view.1, tag := offer.tag }
  | .decorator _ => []

/-- The keys that a builder tries to bind for a registration: none if it has an issue of its own. -/
def Registration.wanted (registration : Registration U) : List Key :=
  if registration.issues = [] then registration.keys else []

/-- A registration without an issue wants all of its keys bound. -/
theorem Registration.wanted_of_sound {registration : Registration U}
    (sound : registration.issues = []) : registration.wanted = registration.keys :=
  if_pos sound

/-- A registration with an issue is not tried. -/
theorem Registration.wanted_of_unsound {registration : Registration U}
    (unsound : registration.issues ≠ []) : registration.wanted = [] :=
  if_neg unsound

/-- A builder tries to bind all keys of registrations with which nothing is wrong. -/
theorem flatMap_wanted {registrations : List (Registration U)}
    (sound : ∀ registration ∈ registrations, registration.issues = []) :
    registrations.flatMap Registration.wanted = registrations.flatMap Registration.keys :=
  List.flatMap_congr fun registration member =>
    Registration.wanted_of_sound (sound registration member)

/-! ## Builders -/

/-- What is reported of registrations that are added one after another beside some keys: of each its
own issues, and a reserved key for each of its keys that is refused. -/
structure Reports (before : List Key) (registrations : List (Registration U)) (after : List Key)
    (report : List (Registration U × List Key)) : Prop where
  each : report.map Prod.fst = registrations
  settles : Settles before (registrations.flatMap Registration.wanted) after
    (report.flatMap Prod.snd)
  reasons : ∀ entry ∈ report, ∀ reserved ∈ entry.2, ∃ key ∈ entry.1.wanted,
    key.Refused (before ++ registrations.flatMap Registration.wanted) reserved

/-- The issues of a report. -/
def reported (report : List (Registration U × List Key)) : List Issue :=
  report.flatMap fun entry => entry.1.issues ++ entry.2.map Issue.reserved

namespace Reports

variable {before after : List Key} {registrations : List (Registration U)}
  {report : List (Registration U × List Key)}

/-- One registration, and then more. -/
theorem cons {middle refused : List Key} {registration : Registration U}
    (first : Settles before registration.wanted middle refused)
    (rest : Reports middle registrations after report) :
    Reports before (registration :: registrations) after ((registration, refused) :: report) where
  each := by rw [List.map_cons, rest.each]
  settles := first.trans rest.settles
  reasons := by
    rintro entry (_ | ⟨_, later⟩) reserved named
    · obtain ⟨key, member, reason⟩ := first.reasons reserved named
      refine ⟨key, member, reason.mono (List.append_subset.mpr ⟨?_, ?_⟩)⟩
      · exact List.subset_append_left _ _
      · exact List.Subset.trans (List.subset_append_left _ _) (List.subset_append_right _ _)
    · obtain ⟨key, member, reason⟩ := rest.reasons entry later reserved named
      refine ⟨key, member, reason.mono (List.append_subset.mpr ⟨?_, ?_⟩)⟩
      · refine List.Subset.trans first.known
          (List.append_subset.mpr ⟨List.subset_append_left _ _, ?_⟩)
        exact List.Subset.trans (List.subset_append_left _ _) (List.subset_append_right _ _)
      · exact List.Subset.trans (List.subset_append_right _ _) (List.subset_append_right _ _)

/-- If nothing is reported, nothing is wrong with any registration and no key is refused. -/
theorem clear (reports : Reports before registrations after report) (none : reported report = []) :
    (∀ registration ∈ registrations, registration.issues = []) ∧ report.flatMap Prod.snd = [] := by
  have nothing : ∀ entry ∈ report, entry.1.issues = [] ∧ entry.2 = [] := by
    simpa [reported, List.flatMap_eq_nil_iff] using none
  refine ⟨fun registration member => ?_, List.flatMap_eq_nil_iff.mpr fun entry member =>
    (nothing entry member).2⟩
  rw [← reports.each] at member
  obtain ⟨entry, isEntry, rfl⟩ := List.mem_map.mp member
  exact (nothing entry isEntry).1

/-- If nothing is reported, the keys of all registrations are bound. -/
theorem mem_after_iff (reports : Reports before registrations after report)
    (none : reported report = []) {key : Key} :
    key ∈ after ↔ key ∈ before ++ registrations.flatMap Registration.keys := by
  obtain ⟨sound, unrefused⟩ := reports.clear none
  rw [reports.settles.mem_after_iff unrefused, flatMap_wanted sound]

/-- Nothing is reported exactly if nothing is wrong with any registration by itself and no two keys
exclude each other. -/
theorem reported_eq_nil_iff (reports : Reports before registrations after report) :
    reported report = [] ↔ (∀ registration ∈ registrations, registration.issues = []) ∧
      Unreserved (before ++ registrations.flatMap Registration.keys) := by
  constructor
  · intro none
    obtain ⟨sound, unrefused⟩ := reports.clear none
    rw [← flatMap_wanted sound]
    exact ⟨sound, reports.settles.refused_eq_nil_iff.mp unrefused⟩
  · rintro ⟨sound, unreserved⟩
    rw [← flatMap_wanted sound, ← reports.settles.refused_eq_nil_iff, List.flatMap_eq_nil_iff]
      at unreserved
    rw [reported, List.flatMap_eq_nil_iff]
    intro entry member
    have isSound : entry.1.issues = [] := by
      apply sound
      rw [← reports.each]
      exact List.mem_map_of_mem member
    rw [isSound, unreserved entry member]
    rfl

end Reports

namespace Registry.Reflects

variable {builder : Builder U} {bound : List (Binding U)}
  (reflects : builder.registry.Reflects bound)

include reflects

/-- A builder binds a key or reports why it does not. -/
theorem bindView {recipe : Recipe U} (plain : recipe.isList = false) (tag : Option Tag)
    (view : ServiceType × Option U.Cast) : ∃ after refused,
      (Builder.bindView recipe tag builder view).registry.Reflects after ∧
        Settles (registeredKeys bound) [⟨view.1, tag⟩] (registeredKeys after) refused ∧
          (Builder.bindView recipe tag builder view).issues =
            builder.issues ++ refused.map Issue.reserved := by
  let binding : Binding U := ⟨recipe, ⟨view.1, tag⟩, builder.id, view.2⟩
  rcases reflects.bind_cases binding with ⟨free, registry, binds⟩ | ⟨reserved, isRefused, refuses⟩
  · have next : Builder.bindView recipe tag builder view =
        { builder with registry, ownsRegistry := true } := by
      simp only [Builder.bindView, binding] at binds ⊢
      rw [binds]
    have both : registeredKeys (bound ++ [binding]) = registeredKeys bound ++ [⟨view.1, tag⟩] :=
      List.map_append
    refine ⟨bound ++ [binding], [], ?_, ?_, ?_⟩
    · rw [next]
      exact reflects.bind plain binds
    · rw [both]
      exact .bound reflects.unreserved free
    · rw [next, List.map_nil, List.append_nil]
  · have next : Builder.bindView recipe tag builder view =
        { builder with ownsRegistry := true }.reject (.reserved reserved) := by
      simp only [Builder.bindView, binding] at refuses ⊢
      rw [refuses]
    refine ⟨bound, [reserved], ?_, .refuses reflects.unreserved isRefused, ?_⟩
    · rw [next]
      exact reflects
    · rw [next]
      rfl

/-- A builder binds the keys of an offer one after another. -/
theorem bindViews {recipe : Recipe U} (plain : recipe.isList = false) (tag : Option Tag)
    (views : List (ServiceType × Option U.Cast)) : ∃ after refused,
      (views.foldl (Builder.bindView recipe tag) builder).registry.Reflects after ∧
        Settles (registeredKeys bound) (views.map fun view => ⟨view.1, tag⟩)
            (registeredKeys after) refused ∧
          (views.foldl (Builder.bindView recipe tag) builder).issues =
            builder.issues ++ refused.map Issue.reserved := by
  induction views generalizing builder bound with
  | nil => exact ⟨bound, [], reflects, .nil reflects.unreserved, by simp⟩
  | cons view views ih =>
      obtain ⟨middle, first, reflected, settled, issues⟩ := reflects.bindView plain tag view
      obtain ⟨after, others, reflected', settled', issues'⟩ := ih reflected
      refine ⟨after, first ++ others, reflected', settled.trans settled', ?_⟩
      rw [List.foldl_cons, issues', issues, List.map_append, List.append_assoc]

/-- A builder adds a registration: it binds its keys, unless the registration has issues of its
own. -/
theorem add (registration : Registration U) : ∃ after refused,
    (builder.add registration).registry.Reflects after ∧
      Settles (registeredKeys bound) registration.wanted (registeredKeys after) refused ∧
        (builder.add registration).issues =
          builder.issues ++ (registration.issues ++ refused.map Issue.reserved) := by
  by_cases sound : registration.issues = []
  · simp only [Registration.wanted_of_sound sound, sound, List.nil_append]
    cases registration with
    | service offer =>
        have accepts : builder.add (.service offer) = builder.accept offer := by
          unfold Builder.add
          rw [sound]
        rw [accepts]
        exact reflects.bindViews (Offer.isList_recipe ..) offer.tag offer.views
    | decorator decorator =>
        have decorates : builder.add (.decorator decorator) =
            { builder with registry := builder.registry.decorate decorator
                           ownsRegistry := true } := by
          unfold Builder.add
          rw [sound]
        rw [decorates]
        refine ⟨bound, [], ⟨reflects.plain, reflects.find, reflects.apart⟩, ?_, by simp⟩
        exact .nil reflects.unreserved
  · have rejects : builder.add registration =
        { builder with issues := builder.issues ++ registration.issues } := by
      unfold Builder.add
      split
      · next none => exact absurd none sound
      · rfl
    rw [rejects, Registration.wanted_of_unsound sound]
    exact ⟨bound, [], reflects, .nil reflects.unreserved, by simp⟩

/-- What a builder binds of registrations, and what it reports of them. -/
theorem addAll (registrations : List (Registration U)) : ∃ after report,
    (builder.addAll registrations).registry.Reflects after ∧
      Reports (registeredKeys bound) registrations (registeredKeys after) report ∧
        (builder.addAll registrations).issues = builder.issues ++ reported report := by
  induction registrations generalizing builder bound with
  | nil =>
      refine ⟨bound, [], reflects, ⟨rfl, .nil reflects.unreserved, nofun⟩, ?_⟩
      simp [Builder.addAll, reported]
  | cons registration rest ih =>
      obtain ⟨middle, refused, reflected, settled, issues⟩ := reflects.add registration
      obtain ⟨after, report, reflected', reports, issues'⟩ := ih reflected
      refine ⟨after, (registration, refused) :: report, reflected', .cons settled reports, ?_⟩
      rw [show builder.addAll (registration :: rest) = (builder.add registration).addAll rest
        from rfl, issues', issues, List.append_assoc]
      rfl

end Registry.Reflects

end Provision
