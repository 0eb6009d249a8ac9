import Provision.Proofs.Registries.RegistryContents

/-!
# Positions of items

The items of a list stand under positions, which are tags like others: who learns of one may
register something under it.  Accepting an offer then replaces the item at that position; all other
items stay as they are, and so do all of them if the tag of the offer is a name.

Main statement: `items_kept_unless_named`.
-/

namespace Provision

variable {U : Client}

/-! ## What stands under a position -/

section Bound

variable {bound : List (Binding U)} {binding : Binding U}

/-- Only the bindings for the type of a key can stand under it. -/
theorem latest?_congr {other : List (Binding U)} {key : Key}
    (same : exposed bound key.type = exposed other key.type) : latest? bound key = latest? other key := by
  unfold latest?
  rw [same]

theorem latest?_eq_none_iff {key : Key} :
    latest? bound key = none ↔ ∀ binding index, (exposed bound key.type)[index]? = some binding →
      binding.registered ≠ key ∧ key ≠ .item key.type index := by
  unfold latest?
  rw [List.getLast?_eq_none_iff, List.map_eq_nil_iff, List.filter_eq_nil_iff]
  simp only [decide_eq_true_eq, not_or]
  constructor
  · intro none binding index found
    exact none (binding, index) (List.mem_zipIdx_iff_getElem?.mpr found)
  · intro none entry member
    exact none entry.1 entry.2 (List.mem_zipIdx_iff_getElem?.mp member)

/-- An item that the list of a type has is bound. -/
theorem latest?_isSome_of_lt {type : ServiceType} {index : Nat}
    (inside : index < (exposed bound type).length) :
    (latest? bound (.item type index)).isSome = true := by
  rw [Option.isSome_iff_ne_none]
  intro none
  exact (latest?_eq_none_iff.mp none _ index (List.getElem?_eq_getElem inside)).2 rfl

/-- The position after the last item is bound only if something was registered under it. -/
theorem latest?_next_eq_none_iff {type : ServiceType} :
    latest? bound (.item type (exposed bound type).length) = none ↔
      ∀ binding ∈ exposed bound type,
        binding.registered ≠ .item type (exposed bound type).length := by
  rw [latest?_eq_none_iff]
  constructor
  · intro none binding member
    obtain ⟨index, found⟩ := List.mem_iff_getElem?.mp member
    exact (none binding index found).1
  · intro none binding index found
    refine ⟨none binding (List.mem_of_getElem? found), ?_⟩
    intro same
    have inside : index < (exposed bound type).length := (List.getElem?_eq_some_iff.mp found).1
    have isIndex : (exposed bound type).length = index := by
      injection same with _ tag
      injection tag with tag
      injection tag
    omega

end Bound

theorem Registry.Reflects.find_item {registry : Registry U} {bound : List (Binding U)}
    (reflects : registry.Reflects bound) (type : ServiceType) (index : Nat) :
    registry.find? (.item type index) = latest? bound (.item type index) := by
  rw [reflects.find, listing?_of_ne_list, Option.or_none]
  intro item same
  cases congrArg Key.tag same

theorem type_of_mem_exposures {placed : List (Placement U)} {type : ServiceType}
    {binding : Binding U} (described : ∀ placement ∈ placed, placement.offer.Described)
    (member : binding ∈ exposures placed type) : binding.registered.type = type := by
  rw [← exposed_bindings described] at member
  exact of_decide_eq_true (List.mem_filter.mp member).2

/-- What accepting one more offer does to the items of lists. -/
structure Registry.Appends (before after : Registry U) (placed : List (Placement U))
    (added : Placement U) : Prop where
  /-- All items that there are are bound, and they stay what they are, but for those at the position
  that is the tag of the offer. -/
  kept : ∀ type index, index < (exposures placed type).length →
    before.contains (.item type index) = true ∧
      (added.exposure? type = none ∨ added.offer.tag ≠ some (.position index) →
        after.find? (.item type index) = before.find? (.item type index))
  /-- An item at that position becomes what the offer is for its type. -/
  replaced : ∀ type index binding, added.exposure? type = some binding →
    added.offer.tag = some (.position index) → after.find? (.item type index) = some binding
  /-- The offer is the next item of each type that it exposes. -/
  appended : ∀ type binding, added.exposure? type = some binding →
    after.find? (.item type (exposures placed type).length) = some binding
  /-- The next position is free unless something was registered under it before. -/
  fresh : ∀ type, before.find? (.item type (exposures placed type).length) = none ↔
    ∀ binding ∈ exposures placed type,
      binding.registered.tag ≠ some (.position (exposures placed type).length)

/-- What stands under a position once one more offer was accepted. -/
theorem Builder.Follows.find_item_accept {builder : Builder U} {placed : List (Placement U)}
    {offer : Offer U} (follows : builder.Follows placed) (described : offer.Described)
    (sound : offer.issues = []) (accepted : (builder.accept offer).issues = [])
    (type : ServiceType) (index : Nat) :
    (builder.accept offer).registry.find? (.item type index) =
      match Placement.exposure? ⟨builder.id, builder.accepted, offer⟩ type with
      | some binding =>
          if offer.tag = some (.position index) ∨
              index = (exposed (placed.flatMap Placement.bindings) type).length then
            some binding
          else builder.registry.find? (.item type index)
      | none => builder.registry.find? (.item type index) := by
  let added : Placement U := ⟨builder.id, builder.accepted, offer⟩
  have before := follows.reflects.find_item type index
  have after := (follows.service sound accepted).reflects.find_item type index
  rw [List.flatMap_append, List.flatMap_singleton] at after
  have one : exposed added.bindings type = (added.exposure? type).toList :=
    added.filter_bindings described type
  cases exposes : added.exposure? type with
  | none =>
      have same : exposed (placed.flatMap Placement.bindings ++ added.bindings) type =
          exposed (placed.flatMap Placement.bindings) type := by
        rw [exposed, List.filter_append, ← exposed, ← exposed, one, exposes, Option.toList_none,
          List.append_nil]
      rw [after, before]
      exact latest?_congr same
  | some binding =>
      obtain ⟨view, found, rfl⟩ := Option.map_eq_some_iff.mp exposes
      have typed : view.1 = type := by simpa using List.find?_some found
      subst typed
      have same : exposed (placed.flatMap Placement.bindings ++ added.bindings) view.1 =
          exposed (placed.flatMap Placement.bindings ++ [added.binding view]) view.1 := by
        rw [exposed, List.filter_append, ← exposed, ← exposed, one, exposes, exposed_concat]
        simp [Placement.binding]
      rw [after, before, latest?_congr same, latest?_concat]
      have named : Key.item view.1 index = (added.binding view).registered ↔
          offer.tag = some (.position index) := by
        simp [Placement.binding, Key.item, added, eq_comm]
      have next : Key.item view.1 index = .item (added.binding view).registered.type
          (exposed (placed.flatMap Placement.bindings) view.1).length ↔
            index = (exposed (placed.flatMap Placement.bindings) view.1).length := by
        simp [Placement.binding, Key.item]
      simp only [named, show (added.binding view).registered.type = view.1 from rfl] at next ⊢
      simp only [next]

/-- Whatever tags were registered under, in whatever scopes: accepting one more offer adds an item
to the list of each type that the offer exposes and leaves all items there are as they were, unless
its tag is the position of an item of such a type. -/
theorem items_kept_unless_named {builder : Builder U} {placed : List (Placement U)}
    {offer : Offer U} (follows : builder.Follows placed)
    (earlier : ∀ placement ∈ placed, placement.offer.Described) (described : offer.Described)
    (sound : offer.issues = []) (accepted : (builder.accept offer).issues = []) :
    builder.registry.Appends (builder.accept offer).registry placed
      ⟨builder.id, builder.accepted, offer⟩ := by
  have found := follows.find_item_accept described sound accepted
  have before := follows.reflects.find_item
  simp only [exposed_bindings earlier] at found
  refine ⟨?_, ?_, ?_, ?_⟩
  · intro type index inside
    rw [← exposed_bindings earlier] at inside
    constructor
    · change (builder.registry.find? (.item type index)).isSome = true
      rw [before]
      exact latest?_isSome_of_lt inside
    · intro spared
      rw [found]
      cases exposes : Placement.exposure? ⟨builder.id, builder.accepted, offer⟩ type with
      | none => rfl
      | some binding =>
          have unnamed : offer.tag ≠ some (.position index) := by
            rcases spared with none | unnamed
            · cases none.symm.trans exposes
            · exact unnamed
          rw [exposed_bindings earlier] at inside
          have elsewhere : ¬ (offer.tag = some (.position index) ∨
              index = (exposures placed type).length) := by
            rintro (named | next)
            · exact unnamed named
            · omega
          simp only [elsewhere, if_false]
  · intro type index binding exposes named
    rw [found, exposes]
    exact if_pos (.inl named)
  · intro type binding exposes
    rw [found, exposes]
    exact if_pos (.inr rfl)
  · intro type
    rw [before, ← exposed_bindings earlier, latest?_next_eq_none_iff]
    constructor
    · intro free binding member named
      apply free binding member
      rw [exposed_bindings earlier] at member
      have typed := type_of_mem_exposures earlier member
      calc binding.registered = ⟨binding.registered.type, binding.registered.tag⟩ := rfl
        _ = .item type _ := by rw [typed, named, Key.item]
    · intro free binding member same
      apply free binding member
      rw [same, Key.item]

namespace Replaced

/-- The type of both services. -/
def type : ServiceType := .concrete "sample" "A"

/-- The service of the root scope. -/
def upper : Offer Client.obliging := .factory type () []

/-- The service of the child scope, under the position of the other. -/
def lower : Offer Client.obliging := (Offer.factory type () []).withTag (.position 0)

/-- The builder of the child scope. -/
def builder : Builder Client.obliging :=
  .child ⟨2⟩ ((Builder.root ⟨1⟩).accept upper).scope

/-- What the root scope accepted. -/
def placed : List (Placement Client.obliging) := [⟨⟨1⟩, 0, upper⟩]

end Replaced

/-- A service that is registered under the position of another one takes its place in the list, and
the list has it twice. -/
theorem named_item_replaced :
    Replaced.builder.registry.Appends (Replaced.builder.accept Replaced.lower).registry
        Replaced.placed ⟨⟨2⟩, 0, Replaced.lower⟩ ∧
      (Replaced.builder.registry.find? (.item Replaced.type 0)).map Binding.owner = some ⟨1⟩ ∧
      ((Replaced.builder.accept Replaced.lower).registry.find? (.item Replaced.type 0)).map
        Binding.owner = some ⟨2⟩ ∧
      (Replaced.builder.accept Replaced.lower).registry.find? (.item Replaced.type 1) =
        (Replaced.builder.accept Replaced.lower).registry.find? (.item Replaced.type 0) := by
  have follows : Replaced.builder.Follows Replaced.placed :=
    .child ⟨2⟩ ((Builder.Follows.root ⟨1⟩).service rfl rfl)
  have earlier : ∀ placement ∈ Replaced.placed, placement.offer.Described := by
    intro placement member
    rw [List.mem_singleton.mp member]
    exact .factory ..
  have described : Replaced.lower.Described := .withTag _ (.factory ..)
  have appends := items_kept_unless_named follows earlier described rfl rfl
  have first := appends.replaced Replaced.type 0 _ rfl rfl
  have second := appends.appended Replaced.type _ rfl
  refine ⟨appends, rfl, ?_, ?_⟩
  · rw [first]
    rfl
  · exact second.trans first.symm

end Provision
