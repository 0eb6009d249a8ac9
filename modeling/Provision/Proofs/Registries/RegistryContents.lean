import Provision.Proofs.Registries.BuiltRegistries
import Mathlib.Data.List.Induction

/-!
# What registries hold

A registry is determined by the bindings that were made, in their order.  Each binding stands under
the key that it was registered under and, as an item, under its position among all bindings for its
type; what stands under a key is the latest of these.  The list of a type collects its items in
order.

Main statements: `Registry.Reflects.bind`, which holds under any tags, and `Follows.reflects` that a
builder reflects what it accepted after its ancestors did.
-/

namespace Provision

variable {U : Client}

/-! ## Bindings in order -/

/-- The bindings for a type, in order. -/
def exposed (bound : List (Binding U)) (type : ServiceType) : List (Binding U) :=
  bound.filter fun binding => decide (binding.registered.type = type)

/-- The parameters for the first items of the list of a type. -/
def itemParams (type : ServiceType) (count : Nat) : List Param :=
  (List.range count).map fun index => .service (.item type index)

/-- The latest of the bindings that stand under a key: those registered under it, and the one whose
position it names. -/
def latest? (bound : List (Binding U)) (key : Key) : Option (Binding U) :=
  (((exposed bound key.type).zipIdx.filter fun entry =>
    decide (entry.1.registered = key ∨ key = .item key.type entry.2)).map Prod.fst).getLast?

/-- The list of a type, if a key is that of a list and anything is bound for the type.  The scope
that made the last binding owns it. -/
def listing? (bound : List (Binding U)) (key : Key) : Option (Binding U) :=
  match key with
  | ⟨.list item, none⟩ => (exposed bound item).getLast?.map fun last =>
      { recipe := .ofItems item (itemParams item (exposed bound item).length)
        registered := .of (.list item)
        owner := last.owner
        cast := none }
  | _ => none

section Bound

variable {bound : List (Binding U)} {binding : Binding U} {key : Key} {type : ServiceType}

/-- One binding more is exposed last. -/
theorem exposed_concat (bound : List (Binding U)) (binding : Binding U) (type : ServiceType) :
    exposed (bound ++ [binding]) type =
      exposed bound type ++ if binding.registered.type = type then [binding] else [] := by
  simp only [exposed, List.filter_append, List.filter_cons, List.filter_nil, decide_eq_true_eq]

/-- A list of one item more needs that item last. -/
theorem itemParams_succ (type : ServiceType) (count : Nat) :
    itemParams type (count + 1) = itemParams type count ++ [.service (.item type count)] := by
  simp [itemParams, List.range_succ]

/-- Nothing is bound in an empty registry. -/
theorem latest?_nil (key : Key) : latest? ([] : List (Binding U)) key = none := rfl

/-- Nothing is listed in an empty registry. -/
theorem listing?_nil (key : Key) : listing? ([] : List (Binding U)) key = none := by
  unfold listing?
  split <;> rfl

/-- A new binding is the latest under its own key and as the next item of its type. -/
theorem latest?_concat (bound : List (Binding U)) (binding : Binding U) (key : Key) :
    latest? (bound ++ [binding]) key =
      if key = binding.registered ∨
          key = .item binding.registered.type (exposed bound binding.registered.type).length then
        some binding
      else latest? bound key := by
  by_cases typed : binding.registered.type = key.type
  · simp only [latest?, exposed_concat, typed, if_true, List.zipIdx_append, List.filter_append,
      List.map_append, List.getLast?_append]
    by_cases here : binding.registered = key ∨
        key = .item key.type (exposed bound key.type).length
    · have there : key = binding.registered ∨
          key = .item key.type (exposed bound key.type).length := by
        simpa [eq_comm] using here
      simp [here, there]
    · have there : ¬ (key = binding.registered ∨
          key = .item key.type (exposed bound key.type).length) := by
        simpa [eq_comm] using here
      simp [here, there]
  · have elsewhere : ¬ (key = binding.registered ∨
        key = .item binding.registered.type (exposed bound binding.registered.type).length) := by
      rintro (rfl | same)
      · exact typed rfl
      · rw [same] at typed
        exact typed rfl
    rw [if_neg elsewhere]
    simp only [latest?, exposed_concat, typed, if_false, List.append_nil]

/-- The latest binding of a key is exposed as its type. -/
theorem mem_of_latest? (latest : latest? bound key = some binding) :
    binding ∈ exposed bound key.type := by
  have member := List.mem_of_getLast? latest
  obtain ⟨entry, found, rfl⟩ := List.mem_map.mp member
  exact List.fst_mem_of_mem_zipIdx (List.mem_filter.mp found).1

/-- Only lists are listed. -/
theorem listing?_of_ne_list (differs : ∀ item, key ≠ .of (.list item)) :
    listing? bound key = none := by
  unfold listing?
  split
  · next item => exact absurd rfl (differs item)
  · rfl

/-- The list of a type, as far as anything is bound for the type. -/
theorem listing?_list (bound : List (Binding U)) (item : ServiceType) :
    listing? bound (.of (.list item)) = (exposed bound item).getLast?.map fun last =>
      { recipe := .ofItems item (itemParams item (exposed bound item).length)
        registered := .of (.list item)
        owner := last.owner
        cast := none } := rfl

/-- Only the list of its type is different after a new binding. -/
theorem listing?_concat (bound : List (Binding U)) (binding : Binding U) (key : Key) :
    listing? (bound ++ [binding]) key =
      if binding.registered.listKey = key then
        some
          { recipe := .ofItems binding.registered.type
              (itemParams binding.registered.type (exposed bound binding.registered.type).length ++
                [.service (.item binding.registered.type
                  (exposed bound binding.registered.type).length)])
            registered := binding.registered.listKey
            owner := binding.owner
            cast := none }
      else listing? bound key := by
  by_cases isList : binding.registered.listKey = key
  · subst isList
    rw [if_pos rfl]
    simp only [Key.listKey, listing?_list, exposed_concat, if_true, List.getLast?_append,
      List.getLast?_singleton, Option.some_or, Option.map_some, List.length_append,
      List.length_singleton, itemParams_succ]
  · rw [if_neg isList]
    unfold listing?
    split
    · next item =>
      have differs : binding.registered.type ≠ item := by
        rintro rfl
        exact isList rfl
      simp only [exposed_concat, differs, if_false, List.append_nil]
    · rfl

/-- What is listed is the list of a type that something is exposed as. -/
theorem of_listing? (listed : listing? bound key = some binding) :
    ∃ item, key = .of (.list item) ∧ exposed bound item ≠ [] := by
  unfold listing? at listed
  split at listed
  · next item =>
    refine ⟨item, rfl, ?_⟩
    intro none
    rw [none] at listed
    cases listed
  · cases listed

end Bound

/-! ## Registries that reflect what was bound -/

/-- A registry holds what was bound, in the order in which it was bound.  No key is both one that
something was registered under and that of a list. -/
structure Registry.Reflects (registry : Registry U) (bound : List (Binding U)) : Prop where
  plain : ∀ binding ∈ bound, binding.recipe.isList = false
  find : ∀ key, registry.find? key = (latest? bound key).or (listing? bound key)
  apart : ∀ item, latest? bound (.of (.list item)) = none ∨ exposed bound item = []

namespace Registry.Reflects

variable {registry after : Registry U} {bound : List (Binding U)} {binding : Binding U}

/-- An empty registry reflects that nothing was bound. -/
theorem empty : ({} : Registry U).Reflects [] where
  plain := by simp
  find := by
    intro key
    rw [latest?_nil, listing?_nil]
    rfl
  apart := fun _ => .inl rfl

/-- The items of a list are numbered from nought up. -/
theorem items (reflects : registry.Reflects bound) {key : Key} {params : List Param}
    (collects : registry.items key = .ok params) :
    latest? bound key.listKey = none ∧
      params = itemParams key.type (exposed bound key.type).length := by
  have find := reflects.find key.listKey
  unfold Registry.items at collects
  rw [find] at collects
  cases latest : latest? bound key.listKey with
  | some binding =>
      have plain := reflects.plain binding (List.mem_filter.mp (mem_of_latest? latest)).1
      simp [latest, plain] at collects
  | none =>
      refine ⟨rfl, ?_⟩
      have listing := listing?_list bound key.type
      rw [show Key.of (.list key.type) = key.listKey from rfl] at listing
      simp only [latest, listing, Option.none_or] at collects
      cases last : (exposed bound key.type).getLast? with
      | none =>
          simp only [last, Option.map_none, Except.ok.injEq] at collects
          rw [List.getLast?_eq_none_iff.mp last]
          exact collects.symm
      | some last' =>
          simp only [last, Option.map_some] at collects
          exact (Except.ok.inj collects).symm

/-- A list is extended only if its key is no other binding's. -/
theorem apart_concat (reflects : registry.Reflects bound)
    (notList : registry.isList binding.registered = false)
    (unnamed : latest? bound binding.registered.listKey = none) (item : ServiceType) :
    latest? (bound ++ [binding]) (.of (.list item)) = none ∨
      exposed (bound ++ [binding]) item = [] := by
  rw [latest?_concat, exposed_concat]
  by_cases named : Key.of (.list item) = binding.registered ∨
      Key.of (.list item) = .item binding.registered.type
        (exposed bound binding.registered.type).length
  · right
    have isKey : Key.of (.list item) = binding.registered := by
      rcases named with isKey | isItem
      · exact isKey
      · cases congrArg Key.tag isItem
    have differs : binding.registered.type ≠ item := by
      rw [← isKey]
      exact ServiceType.list_ne item
    rw [if_neg differs, List.append_nil]
    -- Otherwise the key would have been that of a list, which cannot be bound.
    cases reflects.apart item with
    | inr none => exact none
    | inl unnamed =>
        rw [← List.getLast?_eq_none_iff]
        by_contra some
        obtain ⟨last, isLast⟩ := Option.ne_none_iff_exists'.mp some
        have isList : registry.isList binding.registered = true := by
          rw [Registry.isList, reflects.find, ← isKey, unnamed, listing?_list, isLast]
          rfl
        cases notList.symm.trans isList
  · rw [if_neg named]
    cases reflects.apart item with
    | inl unnamed => exact .inl unnamed
    | inr none =>
        by_cases typed : binding.registered.type = item
        · subst typed
          exact .inl unnamed
        · right
          rw [none, if_neg typed, List.append_nil]

/-- Binding a key, under any tag, adds the binding to those that were made. -/
theorem bind (reflects : registry.Reflects bound) (plain : binding.recipe.isList = false)
    (binds : registry.bind binding.registered binding = .ok after) :
    after.Reflects (bound ++ [binding]) := by
  obtain ⟨notList, params, collects, rfl⟩ := bind_eq_ok_iff.mp binds
  obtain ⟨unnamed, rfl⟩ := reflects.items collects
  have count : (itemParams binding.registered.type
      (exposed bound binding.registered.type).length).length =
        (exposed bound binding.registered.type).length := by
    simp [itemParams]
  refine ⟨?_, ?_, reflects.apart_concat notList unnamed⟩
  · intro other member
    cases List.mem_append.mp member with
    | inl before => exact reflects.plain other before
    | inr now => rw [List.mem_singleton.mp now, plain]
  · intro key
    rw [find?_extended, count, latest?_concat, listing?_concat]
    by_cases isList : binding.registered.listKey = key
    · subst isList
      have elsewhere : ¬ (binding.registered.listKey = binding.registered ∨
          binding.registered.listKey = .item binding.registered.type
            (exposed bound binding.registered.type).length) := by
        rintro (same | same)
        · exact ServiceType.list_ne _ (congrArg Key.type same)
        · cases congrArg Key.tag same
      rw [if_pos rfl, if_neg elsewhere, unnamed, Option.none_or, if_pos rfl]
    · rw [if_neg isList, if_neg isList]
      by_cases isKey : binding.registered = key
      · rw [if_pos isKey, if_pos (.inl isKey.symm), Option.some_or]
      · rw [if_neg isKey]
        by_cases isItem : Key.item binding.registered.type
            (exposed bound binding.registered.type).length = key
        · rw [if_pos isItem, if_pos (.inr isItem.symm), Option.some_or]
        · have elsewhere : ¬ (key = binding.registered ∨ key = .item binding.registered.type
              (exposed bound binding.registered.type).length) := by
            rintro (same | same)
            · exact isKey same.symm
            · exact isItem same.symm
          rw [if_neg isItem, if_neg elsewhere]
          exact reflects.find key

end Registry.Reflects

/-! ## Placements -/

/-- An offer that was accepted: the scope that registered it, and its number there. -/
structure Placement (U : Client) where
  scope : ScopeId
  index : Nat
  offer : Offer U

namespace Placement

/-- What an offer is bound as under one of its types. -/
def binding (placement : Placement U) (view : ServiceType × Option U.Cast) : Binding U where
  recipe := placement.offer.recipe (.registration placement.scope placement.index)
  registered := { type := view.1, tag := placement.offer.tag }
  owner := placement.scope
  cast := view.2

/-- What an offer is bound as, in the order of its types. -/
def bindings (placement : Placement U) : List (Binding U) :=
  placement.offer.views.map placement.binding

/-- What an offer is bound as for a type, directly or by an alias, if it exposes the type. -/
def exposure? (placement : Placement U) (type : ServiceType) : Option (Binding U) :=
  (placement.offer.views.find? fun view => decide (view.1 = type)).map placement.binding

end Placement

/-- The accepted offers that expose a type, in order, as what they are bound as for it. -/
def exposures (placed : List (Placement U)) (type : ServiceType) : List (Binding U) :=
  placed.filterMap fun placement => placement.exposure? type

/-- The offers among registrations, numbered from `next` on. -/
def placements (scope : ScopeId) : (next : Nat) → List (Registration U) → List (Placement U)
  | _, [] => []
  | next, .service offer :: rest => ⟨scope, next, offer⟩ :: placements scope (next + 1) rest
  | next, .decorator _ :: rest => placements scope next rest

/-- The views of an offer have different types. -/
theorem Offer.Described.views_nodup {offer : Offer U} (described : offer.Described) :
    (offer.views.map Prod.fst).Nodup := by
  unfold views
  split
  · simp
  · simpa [Function.comp_def] using described.nodup

/-- At most one entry of a table has a given key. -/
theorem filter_eq_toList_find? {α β : Type} [DecidableEq α] {entries : List (α × β)} (key : α)
    (distinct : (entries.map Prod.fst).Nodup) :
    entries.filter (fun entry => decide (entry.1 = key)) =
      (entries.find? fun entry => decide (entry.1 = key)).toList := by
  induction entries with
  | nil => rfl
  | cons entry rest ih =>
      rw [List.map_cons, List.nodup_cons] at distinct
      by_cases here : entry.1 = key
      · have others : rest.filter (fun entry => decide (entry.1 = key)) = [] := by
          rw [List.filter_eq_nil_iff]
          intro other member same
          apply distinct.1
          rw [here, ← of_decide_eq_true same]
          exact List.mem_map_of_mem member
        simp [here, others]
      · simp [here, ih distinct.2]

/-- A placed offer is exposed as a type once or not at all. -/
theorem Placement.filter_bindings {placement : Placement U} (described : placement.offer.Described)
    (type : ServiceType) :
    exposed placement.bindings type = (placement.exposure? type).toList := by
  have single := filter_eq_toList_find? type described.views_nodup
  unfold exposed bindings exposure?
  rw [List.filter_map, show (fun binding : Binding U => decide (binding.registered.type = type)) ∘
    placement.binding = fun view => decide (view.1 = type) from rfl, single]
  cases placement.offer.views.find? fun view => decide (view.1 = type) <;> rfl

/-- An offer exposes a type once, as it has no alias twice. -/
theorem exposed_bindings {placed : List (Placement U)}
    (described : ∀ placement ∈ placed, placement.offer.Described) (type : ServiceType) :
    exposed (placed.flatMap Placement.bindings) type = exposures placed type := by
  induction placed with
  | nil => rfl
  | cons placement rest ih =>
      have first := Placement.filter_bindings (described placement List.mem_cons_self) type
      have others := ih fun other member => described other (List.mem_cons_of_mem _ member)
      unfold exposed exposures at *
      rw [List.flatMap_cons, List.filter_append, first, others, List.filterMap_cons]
      cases placement.exposure? type <;> rfl

/-! ## Builders -/

namespace Builder

/-- A builder accepted some offers, after the ancestors of its scope accepted those before. -/
inductive Follows : Builder U → List (Placement U) → Prop where
  | root (id : ScopeId) : Follows (.root id) []
  | child (id : ScopeId) {above : Builder U} {placed : List (Placement U)} :
      Follows above placed → Follows (.child id above.scope) placed
  | service {builder : Builder U} {placed : List (Placement U)} {offer : Offer U} :
      Follows builder placed → offer.issues = [] → (builder.accept offer).issues = [] →
        Follows (builder.accept offer) (placed ++ [⟨builder.id, builder.accepted, offer⟩])
  | decorator {builder : Builder U} {placed : List (Placement U)} {decorator : Decorator U} :
      Follows builder placed → decorator.selfDependency? = none →
        Follows (builder.add (.decorator decorator)) placed

variable {builder : Builder U} {placed : List (Placement U)}

theorem issues_bindView (recipe : Recipe U) (tag : Option Tag) (builder : Builder U)
    (view : ServiceType × Option U.Cast) :
    builder.issues <+: (bindView recipe tag builder view).issues := by
  rcases bindView_cases recipe tag builder view with ⟨_, _, next⟩ | ⟨issue, next⟩
  · simp [next]
  · simp [next, reject]

theorem issues_foldl_bindView (recipe : Recipe U) (tag : Option Tag)
    (views : List (ServiceType × Option U.Cast)) (builder : Builder U) :
    builder.issues <+: (views.foldl (bindView recipe tag) builder).issues := by
  induction views generalizing builder with
  | nil => exact List.prefix_refl _
  | cons view views ih => exact (issues_bindView recipe tag builder view).trans (ih _)

theorem issues_add (builder : Builder U) (registration : Registration U) :
    builder.issues <+: (builder.add registration).issues := by
  unfold add
  split
  · split
    · exact issues_foldl_bindView ..
    · exact List.prefix_refl _
  · exact List.prefix_append _ _

/-- Adding registrations keeps the issues noted before. -/
theorem issues_addAll (registrations : List (Registration U)) (builder : Builder U) :
    builder.issues <+: (builder.addAll registrations).issues := by
  unfold addAll
  induction registrations generalizing builder with
  | nil => exact List.prefix_refl _
  | cons registration rest ih => exact (issues_add builder registration).trans (ih _)

/-- A builder without issues in the end accepted all registrations. -/
theorem Follows.addAll {registrations : List (Registration U)} (follows : Follows builder placed)
    (accepted : (builder.addAll registrations).issues = []) :
    Follows (builder.addAll registrations)
      (placed ++ placements builder.id builder.accepted registrations) := by
  induction registrations generalizing builder placed with
  | nil => simpa [placements, Builder.addAll] using follows
  | cons registration rest ih =>
      have next : (builder.add registration).issues = [] := by
        have grows := issues_addAll rest (builder.add registration)
        rw [show (builder.add registration).addAll rest = builder.addAll (registration :: rest)
          from rfl, accepted] at grows
        exact List.prefix_nil.mp grows
      have sound : registration.issues = [] := by
        by_contra issues
        unfold add at next
        split at next
        · next none => exact issues none
        · exact issues (List.append_eq_nil_iff.mp next).2
      cases registration with
      | service offer =>
          have accepts : builder.add (.service offer) = builder.accept offer := by
            unfold add
            rw [sound]
          rw [accepts] at next
          have rest : ((builder.accept offer).addAll rest).issues = [] := by
            rw [← accepts]
            exact accepted
          have more := ih (follows.service sound next) rest
          rw [accept_id, accept_accepted, List.append_assoc, ← accepts] at more
          exact more
      | decorator decorator =>
          have none : decorator.selfDependency? = none := by
            simpa [Registration.issues] using sound
          have accepts : builder.add (.decorator decorator) =
              { builder with registry := builder.registry.decorate decorator
                             ownsRegistry := true } := by
            unfold add
            rw [sound]
          have more := ih (follows.decorator none) accepted
          rw [accepts] at more
          rw [show builder.addAll (.decorator decorator :: rest) =
            (builder.add (.decorator decorator)).addAll rest from rfl, accepts]
          exact more

end Builder

/-- Binding the views of an offer leaves a registry that reflects them too. -/
theorem Registry.Reflects.views {builder : Builder U} {bound : List (Binding U)}
    {recipe : Recipe U} {tag : Option Tag} {views : List (ServiceType × Option U.Cast)}
    (reflects : builder.registry.Reflects bound) (plain : recipe.isList = false)
    (accepted : (views.foldl (Builder.bindView recipe tag) builder).issues = []) :
    (views.foldl (Builder.bindView recipe tag) builder).registry.Reflects
      (bound ++ views.map fun view => ⟨recipe, ⟨view.1, tag⟩, builder.id, view.2⟩) := by
  induction views generalizing builder bound with
  | nil => simpa using reflects
  | cons view views ih =>
      rw [List.foldl_cons] at accepted ⊢
      rcases Builder.bindView_cases recipe tag builder view with ⟨after, binds, next⟩ | ⟨issue, next⟩
      · rw [next] at accepted ⊢
        have first : after.Reflects (bound ++ [⟨recipe, ⟨view.1, tag⟩, builder.id, view.2⟩]) :=
          reflects.bind plain binds
        let next : Builder U := { builder with registry := after, ownsRegistry := true }
        have others := @ih next _ first accepted
        simpa using others
      · have grows := Builder.issues_foldl_bindView recipe tag views
          (Builder.bindView recipe tag builder view)
        rw [accepted, next] at grows
        simpa [Builder.reject] using List.prefix_nil.mp grows

/-- A builder reflects what it and the ancestors of its scope accepted. -/
theorem Builder.Follows.reflects {builder : Builder U} {placed : List (Placement U)}
    (follows : builder.Follows placed) :
    builder.registry.Reflects (placed.flatMap Placement.bindings) := by
  induction follows with
  | root id => exact .empty
  | child id _ ih =>
      rw [← Builder.scope_registry] at ih
      exact ih
  | @service builder placed offer _ _ accepted ih =>
      rw [List.flatMap_append, List.flatMap_singleton]
      exact ih.views (Offer.isList_recipe ..) accepted
  | decorator _ none ih =>
      unfold Builder.add
      split
      · exact ⟨ih.plain, ih.find, ih.apart⟩
      · exact ih

/-! ## Tags that are names -/

section Named

variable {bound : List (Binding U)}

/-- If no tag is a position, the items of a type are what was bound for it, in order. -/
theorem latest?_item
    (named : ∀ binding ∈ bound, ∀ index, binding.registered.tag ≠ some (.position index))
    (type : ServiceType) (index : Nat) :
    latest? bound (.item type index) = (exposed bound type)[index]? := by
  induction bound using List.reverseRecOn with
  | nil => rfl
  | append_singleton bound binding ih =>
      have before := ih fun other member => named other (List.mem_append_left _ member)
      have unnamed : Key.item type index ≠ binding.registered := by
        intro same
        apply named binding (by simp) index
        rw [← same]
        rfl
      rw [latest?_concat, exposed_concat, before]
      by_cases typed : binding.registered.type = type
      · subst typed
        by_cases next : index = (exposed bound binding.registered.type).length
        · subst next
          simp
        · have elsewhere : ¬ (Key.item binding.registered.type index = binding.registered ∨
              Key.item binding.registered.type index = .item binding.registered.type
                (exposed bound binding.registered.type).length) := by
            rintro (same | same)
            · exact unnamed same
            · cases same
              exact next rfl
          rw [if_neg elsewhere, if_pos rfl]
          by_cases inside : index < (exposed bound binding.registered.type).length
          · rw [List.getElem?_append_left inside]
          · rw [List.getElem?_eq_none (by omega), List.getElem?_eq_none (by simp; omega)]
      · have elsewhere : ¬ (Key.item type index = binding.registered ∨
            Key.item type index = .item binding.registered.type
              (exposed bound binding.registered.type).length) := by
          rintro (same | same)
          · exact unnamed same
          · exact typed (congrArg Key.type same).symm
        rw [if_neg elsewhere, if_neg typed, List.append_nil]

/-- A key without a position for its tag is no position. -/
theorem Key.isPosition_of_tag {key : Key} (untagged : ∀ index, key.tag ≠ some (.position index)) :
    key.isPosition = false := by
  unfold Key.isPosition
  cases tag : key.tag with
  | none => rfl
  | some tag' =>
      cases tag' with
      | named name => rfl
      | position index => exact absurd tag (untagged index)

/-- A key that is a position is an item of its type. -/
theorem Key.eq_item_of_isPosition {key : Key} (isItem : key.isPosition = true) :
    ∃ index, key = .item key.type index := by
  obtain ⟨type, tag⟩ := key
  cases tag with
  | none => cases isItem
  | some tag =>
      cases tag with
      | named name => cases isItem
      | position index => exact ⟨index, rfl⟩

/-- Under a key whose tag is no position stands the last that was registered under it. -/
theorem latest?_registered {key : Key} (notItem : key.isPosition = false) :
    latest? bound key = ((exposed bound key.type).filter fun binding =>
      decide (binding.registered = key)).getLast? := by
  induction bound using List.reverseRecOn with
  | nil => rfl
  | append_singleton bound binding ih =>
      rw [latest?_concat, exposed_concat, List.filter_append, List.getLast?_append, ih]
      by_cases same : key = binding.registered
      · subst same
        simp
      · have elsewhere : ¬ (key = binding.registered ∨
            key = .item binding.registered.type (exposed bound binding.registered.type).length) := by
          rintro (isKey | isItem)
          · exact same isKey
          · rw [isItem] at notItem
            cases notItem
        have none : (if binding.registered.type = key.type then [binding] else []).filter
            (fun binding => decide (binding.registered = key)) = [] := by
          split <;> simp [Ne.symm same]
        rw [if_neg elsewhere, none, List.getLast?_nil, Option.none_or]

end Named

/-- What a registry is like after offers were accepted in some order, under tags that are names. -/
structure Registry.InOrder (registry : Registry U) (placed : List (Placement U)) : Prop where
  /-- A key that offers were registered under is bound to the last of them. -/
  registered : ∀ key binding, ((exposures placed key.type).filter fun other =>
    decide (other.registered = key)).getLast? = some binding → registry.find? key = some binding
  /-- The list of a type that offers expose has one item for each of them. -/
  list : ∀ type last, (exposures placed type).getLast? = some last →
    registry.find? (.of (.list type)) = some
      { recipe := .ofItems type (itemParams type (exposures placed type).length)
        registered := .of (.list type)
        owner := last.owner
        cast := none }
  /-- The items are these offers, each under the key that it was registered under. -/
  item : ∀ type index, registry.find? (.item type index) = (exposures placed type)[index]?
  /-- Nothing else is bound. -/
  only : ∀ key, registry.contains key = true →
    (∃ binding ∈ exposures placed key.type, binding.registered = key) ∨
      (∃ type, key = .of (.list type) ∧ exposures placed type ≠ []) ∨
        ∃ type index, key = .item type index ∧ index < (exposures placed type).length

/-- A registry that reflects what was placed holds it in order. -/
theorem Registry.Reflects.inOrder {registry : Registry U} {placed : List (Placement U)}
    (reflects : registry.Reflects (placed.flatMap Placement.bindings))
    (described : ∀ placement ∈ placed, placement.offer.Described)
    (named : ∀ placement ∈ placed, ∀ index, placement.offer.tag ≠ some (.position index)) :
    registry.InOrder placed := by
  have tagged : ∀ binding ∈ placed.flatMap Placement.bindings, ∀ index,
      binding.registered.tag ≠ some (.position index) := by
    intro binding member
    obtain ⟨placement, isPlaced, bound⟩ := List.mem_flatMap.mp member
    obtain ⟨view, _, rfl⟩ := List.mem_map.mp bound
    exact named placement isPlaced
  have exposes := exposed_bindings described
  have item : ∀ type index, registry.find? (.item type index) =
      (exposures placed type)[index]? := by
    intro type index
    rw [reflects.find, latest?_item tagged, exposes, listing?_of_ne_list, Option.or_none]
    intro other same
    cases congrArg Key.tag same
  refine ⟨?_, ?_, item, ?_⟩
  · intro key binding last
    have member := List.mem_filter.mp (List.mem_of_getLast? last)
    have isKey : binding.registered = key := of_decide_eq_true member.2
    have notItem : key.isPosition = false := by
      have isExposed := member.1
      rw [← exposes] at isExposed
      have untagged := tagged binding (List.mem_filter.mp isExposed).1
      rw [isKey] at untagged
      exact Key.isPosition_of_tag untagged
    rw [reflects.find, latest?_registered notItem, exposes, last, Option.some_or]
  · intro type last isLast
    rw [reflects.find, listing?_list, exposes, isLast]
    cases reflects.apart type with
    | inl unnamed => rw [unnamed, Option.none_or, Option.map_some]
    | inr none =>
        rw [exposes] at none
        rw [none] at isLast
        cases isLast
  · intro key contains
    have found : ((latest? (placed.flatMap Placement.bindings) key).or
        (listing? (placed.flatMap Placement.bindings) key)).isSome = true := by
      rw [← reflects.find]
      exact contains
    cases latest : latest? (placed.flatMap Placement.bindings) key with
    | some binding =>
        cases notItem : key.isPosition with
        | false =>
            rw [latest?_registered notItem, exposes] at latest
            have member := List.mem_filter.mp (List.mem_of_getLast? latest)
            exact .inl ⟨binding, member.1, of_decide_eq_true member.2⟩
        | true =>
            obtain ⟨index, isItem⟩ := Key.eq_item_of_isPosition notItem
            rw [isItem, latest?_item tagged, exposes] at latest
            exact .inr (.inr ⟨_, index, isItem, (List.getElem?_eq_some_iff.mp latest).1⟩)
    | none =>
        rw [latest, Option.none_or] at found
        obtain ⟨binding, listed⟩ := Option.isSome_iff_exists.mp found
        obtain ⟨item, isList, some⟩ := of_listing? listed
        rw [exposes] at some
        exact .inr (.inl ⟨item, isList, some⟩)

end Provision
