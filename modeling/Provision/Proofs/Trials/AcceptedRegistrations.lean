import Provision.Proofs.Registries.RegistryContents

/-!
# Registrations that are accepted

A builder finds nothing wrong if no registration has an issue of its own and none is visible under
the type of a list.  No key that is bound is then that of a list, and no list is refused its key.

Main statements: `Builder.Smooth.addAll` and `Builder.Smooth.list`.
-/

namespace Provision

variable {U : Client}

/-- A registration has no issue of its own and is visible under no type of a list. -/
def Registration.Acceptable : Registration U → Prop
  | .service offer => offer.issues = [] ∧ ∀ view ∈ offer.views, ∀ item, view.1 ≠ .list item
  | .decorator added => added.selfDependency? = none

/-- An acceptable registration has no issue. -/
theorem Registration.Acceptable.issues {registration : Registration U}
    (acceptable : registration.Acceptable) : registration.issues = [] := by
  cases registration with
  | service offer => exact acceptable.1
  | decorator added =>
      have none : added.selfDependency? = none := acceptable
      rw [Registration.issues, none]
      rfl

/-! ## Binding -/

section Binding

variable {registry after : Registry U} {bound : List (Binding U)} {key : Key} {binding : Binding U}

/-- Nothing but a list stands under the key of a list. -/
theorem latest?_list_eq_none (unlisted : ∀ binding ∈ bound, ∀ item,
    binding.registered.type ≠ .list item) (item : ServiceType) :
    latest? bound (.of (.list item)) = none := by
  cases latest : latest? bound (.of (.list item)) with
  | none => rfl
  | some binding =>
      obtain ⟨member, typed⟩ := List.mem_filter.mp (mem_of_latest? latest)
      exact absurd (of_decide_eq_true typed) (unlisted binding member item)

/-- A key can be bound if its type is not that of a list, and neither are the types of the keys
that were bound. -/
theorem Registry.Reflects.exists_bind (reflects : registry.Reflects bound)
    (unlisted : ∀ binding ∈ bound, ∀ item, binding.registered.type ≠ .list item)
    (key : Key) (typed : ∀ item, key.type ≠ .list item) (binding : Binding U) :
    ∃ after, registry.bind key binding = .ok after := by
  have unlistedKey : ∀ item, key ≠ .of (.list item) := by
    rintro item rfl
    exact typed item rfl
  have notList : registry.isList key = false := by
    rw [Registry.isList, reflects.find, listing?_of_ne_list unlistedKey, Option.or_none]
    cases latest : latest? bound key with
    | none => rfl
    | some other => exact reflects.plain other (List.mem_filter.mp (mem_of_latest? latest)).1
  have collects : ∃ items, registry.items key = .ok items := by
    have listing := listing?_list bound key.type
    have unnamed := latest?_list_eq_none unlisted key.type
    rw [show Key.of (.list key.type) = key.listKey from rfl] at listing unnamed
    simp only [Registry.items, reflects.find, unnamed, listing, Option.none_or]
    cases (exposed bound key.type).getLast? with
    | none => exact ⟨[], rfl⟩
    | some last => exact ⟨_, rfl⟩
  obtain ⟨items, collects⟩ := collects
  exact ⟨_, Registry.bind_eq_ok_iff.mpr ⟨notList, items, collects, rfl⟩⟩

/-- A bind leaves the decorators as they are. -/
theorem Registry.decorators_bind (binds : registry.bind key binding = .ok after) :
    after.decorators = registry.decorators := by
  obtain ⟨_, items, _, rfl⟩ := bind_eq_ok_iff.mp binds
  exact decorators_extended registry key binding items

end Binding

namespace Builder

variable {builder : Builder U} {bound : List (Binding U)} {registrations : List (Registration U)}

/-! ## Builders -/

/-- A builder found nothing wrong, and what it bound is under no type of a list. -/
structure Smooth (builder : Builder U) (bound : List (Binding U)) : Prop where
  issues : builder.issues = []
  reflects : builder.registry.Reflects bound
  unlisted : ∀ binding ∈ bound, ∀ item, binding.registered.type ≠ .list item

/-- The builder of a root goes smoothly from nothing. -/
theorem smooth_root (id : ScopeId) : (Builder.root id : Builder U).Smooth [] :=
  ⟨rfl, .empty, fun _ member => absurd member List.not_mem_nil⟩

/-- Binding an acceptable view goes smoothly. -/
theorem Smooth.bindView (smooth : builder.Smooth bound) {recipe : Recipe U}
    (plain : recipe.isList = false) (tag : Option Tag) {view : ServiceType × Option U.Cast}
    (typed : ∀ item, view.1 ≠ .list item) :
    ∃ after, (bindView recipe tag builder view).Smooth after := by
  let binding : Binding U := ⟨recipe, ⟨view.1, tag⟩, builder.id, view.2⟩
  obtain ⟨registry, binds⟩ :=
    smooth.reflects.exists_bind smooth.unlisted binding.registered typed binding
  have next : Builder.bindView recipe tag builder view =
      { builder with registry, ownsRegistry := true } := by
    unfold Builder.bindView
    simp only [binding] at binds
    simp only [binds]
  rw [next]
  refine ⟨bound ++ [binding], smooth.issues, smooth.reflects.bind plain binds, ?_⟩
  intro other member
  rcases List.mem_append.mp member with before | now
  · exact smooth.unlisted other before
  · rw [List.mem_singleton.mp now]
    exact typed

/-- Binding acceptable views goes smoothly. -/
theorem Smooth.bindViews (smooth : builder.Smooth bound) {recipe : Recipe U}
    (plain : recipe.isList = false) (tag : Option Tag)
    {views : List (ServiceType × Option U.Cast)}
    (typed : ∀ view ∈ views, ∀ item, view.1 ≠ .list item) :
    ∃ after, (views.foldl (Builder.bindView recipe tag) builder).Smooth after := by
  induction views generalizing builder bound with
  | nil => exact ⟨bound, smooth⟩
  | cons view views ih =>
      obtain ⟨_, next⟩ := smooth.bindView plain tag (typed view List.mem_cons_self)
      exact ih next fun other member => typed other (List.mem_cons_of_mem _ member)

/-- Adding an acceptable registration goes smoothly. -/
theorem Smooth.add (smooth : builder.Smooth bound) {registration : Registration U}
    (acceptable : registration.Acceptable) : ∃ after, (builder.add registration).Smooth after := by
  unfold Builder.add
  rw [acceptable.issues]
  cases registration with
  | service offer =>
      obtain ⟨after, issues, reflects, unlisted⟩ := smooth.bindViews
        (Offer.isList_recipe offer (.registration builder.id builder.accepted)) offer.tag
          acceptable.2
      exact ⟨after, issues, reflects, unlisted⟩
  | decorator added =>
      exact ⟨bound, smooth.issues, ⟨smooth.reflects.plain, smooth.reflects.find,
        smooth.reflects.apart⟩, smooth.unlisted⟩

/-- Nothing is wrong with registrations of which each is acceptable. -/
theorem Smooth.addAll (smooth : builder.Smooth bound)
    (acceptable : ∀ registration ∈ registrations, registration.Acceptable) :
    ∃ after, (builder.addAll registrations).Smooth after := by
  unfold Builder.addAll
  induction registrations generalizing builder bound with
  | nil => exact ⟨bound, smooth⟩
  | cons registration rest ih =>
      obtain ⟨_, next⟩ := smooth.add (acceptable registration List.mem_cons_self)
      exact ih next fun other member => acceptable other (List.mem_cons_of_mem _ member)

/-- What stands under the key of a list is the list of at least one item. -/
theorem Smooth.list (smooth : builder.Smooth bound) {type : ServiceType} {found : Binding U}
    (finds : builder.registry.find? (.of (.list type)) = some found) :
    found.recipe.source = .list type ∧ found.registered = .of (.list type) ∧
      found.cast = none ∧ found.recipe.params ≠ [] := by
  rw [smooth.reflects.find, latest?_list_eq_none smooth.unlisted, Option.none_or,
    listing?_list] at finds
  cases last : (exposed bound type).getLast? with
  | none =>
      rw [last] at finds
      cases finds
  | some binding =>
      rw [last] at finds
      cases finds
      refine ⟨rfl, rfl, rfl, fun none => ?_⟩
      have counted := congrArg List.length none
      simp only [Recipe.ofItems, itemParams, List.length_map, List.length_range,
        List.length_nil] at counted
      rw [List.length_eq_zero_iff.mp counted] at last
      cases last

/-! ## Decorators -/

/-- Binding views leaves the decorators as they are. -/
theorem decorators_bindViews (recipe : Recipe U) (tag : Option Tag)
    (views : List (ServiceType × Option U.Cast)) (builder : Builder U) :
    (views.foldl (bindView recipe tag) builder).registry.decorators =
      builder.registry.decorators := by
  induction views generalizing builder with
  | nil => rfl
  | cons view views ih =>
      rw [List.foldl_cons, ih]
      rcases bindView_cases recipe tag builder view with ⟨after, binds, next⟩ | ⟨_, next⟩
      · rw [next]
        exact Registry.decorators_bind binds
      · rw [next]
        rfl

/-- A decorator of a registry was registered, or was there before. -/
theorem mem_decorators_addAll {decorator : Decorator U}
    (member : decorator ∈ (builder.addAll registrations).registry.decorators) :
    decorator ∈ builder.registry.decorators ∨ .decorator decorator ∈ registrations := by
  unfold Builder.addAll at member
  induction registrations generalizing builder with
  | nil => exact .inl member
  | cons registration rest ih =>
      rcases ih member with before | later
      · unfold Builder.add at before
        split at before
        · cases registration with
          | service offer =>
              have same : (builder.accept offer).registry.decorators =
                  builder.registry.decorators := decorators_bindViews ..
              exact .inl (same ▸ before)
          | decorator added =>
              rcases List.mem_append.mp before with old | new
              · exact .inl old
              · rw [List.mem_singleton.mp new]
                exact .inr List.mem_cons_self
        · exact .inl before
      · exact .inr (List.mem_cons_of_mem _ later)

end Builder

end Provision
