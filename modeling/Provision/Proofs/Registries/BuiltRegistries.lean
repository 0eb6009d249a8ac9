import Provision.Proofs.Registries.TreeGrowth
import Mathlib.Data.List.Nodup
import Mathlib.Data.List.Perm.Subperm

/-!
# Registries of built scopes

What a registry is like because of the way it was put together.  The list of a type collects items
of that type and nothing else.  What is bound in a scope is bound in all scopes below it.  A
registration converts its instances in one way for each type that it is visible under, as a client
cannot give it an alias twice.

Main statements: `Built.listed`, `Built.contains_of_above` and `IsScope.faithful`.
-/

namespace Provision

open Moment

variable {U : Client}

/-! ## Lists -/

/-- A type is not that of its own list. -/
theorem ServiceType.list_ne (type : ServiceType) : ServiceType.list type ≠ type := by
  intro same
  have sizes := congrArg sizeOf same
  simp at sizes

/-- Each list stands under its own key and collects items of its type. -/
def Registry.Listed (registry : Registry U) : Prop :=
  ∀ (key : Key) (binding : Binding U) (item : ServiceType), registry.find? key = some binding →
    binding.recipe.source = .list item → key = .of (.list item) ∧
      ∀ param ∈ binding.recipe.params, ∃ index, param = .service (.item item index)

namespace Registry

variable {registry bound : Registry U} {key : Key} {binding : Binding U}

/-- The items of a list are asked for by their positions. -/
theorem Listed.items (listed : registry.Listed) {items : List Param}
    (collects : registry.items key = .ok items) :
    ∀ param ∈ items, ∃ index, param = .service (.item key.type index) := by
  unfold Registry.items at collects
  split at collects
  · cases collects
    exact fun _ member => absurd member List.not_mem_nil
  · next list found =>
    split at collects
    · next isList =>
      cases collects
      unfold Recipe.isList at isList
      split at isList
      · next item source =>
        obtain ⟨same, members⟩ := listed _ _ item found source
        cases same
        exact members
      · cases isList
    · cases collects

/-- Binding a key extends the list of its type by an item. -/
theorem Listed.bind (listed : registry.Listed) (notList : binding.recipe.isList = false)
    (binds : registry.bind key binding = .ok bound) : bound.Listed := by
  have unlisted : ∀ item, binding.recipe.source ≠ .list item := by
    intro item isList
    rw [Recipe.isList, isList] at notList
    cases notList
  intro wanted found item finds source
  obtain ⟨_, items, collects, rfl⟩ := bind_eq_ok_iff.mp binds
  rw [find?_extended] at finds
  split_ifs at finds with isList
  · cases finds
    cases source
    refine ⟨isList.symm, fun param member => ?_⟩
    rcases List.mem_append.mp member with before | last
    · exact listed.items collects param before
    · exact ⟨items.length, List.mem_singleton.mp last⟩
  · cases finds
    exact absurd source (unlisted item)
  · cases finds
    exact absurd source (unlisted item)
  · exact listed wanted found item finds source

/-- Whatever was bound stays bound. -/
theorem contains_bind (binds : registry.bind key binding = .ok bound) {wanted : Key}
    (contains : registry.contains wanted = true) : bound.contains wanted = true := by
  obtain ⟨_, items, _, rfl⟩ := bind_eq_ok_iff.mp binds
  change Option.isSome ((registry.extended key binding items).find? wanted) = true
  rw [find?_extended]
  split_ifs
  · rfl
  · rfl
  · rfl
  · exact contains

end Registry

namespace Builder

variable {builder : Builder U}

/-- What binding a key and adding a decorator preserve of a registry, building preserves. -/
theorem addAll_induction {holds : Registry U → Prop}
    (binds : ∀ {registry bound key binding}, holds registry → binding.recipe.isList = false →
      registry.bind key binding = .ok bound → holds bound)
    (decorates : ∀ {registry : Registry U} (decorator), holds registry →
      holds (registry.decorate decorator))
    (registrations : List (Registration U)) (initially : holds builder.registry) :
    holds (builder.addAll registrations).registry := by
  have views : ∀ (recipe : Recipe U) (tag views) (builder : Builder U),
      recipe.isList = false → holds builder.registry →
        holds (List.foldl (bindView recipe tag) builder views).registry := by
    intro recipe tag views
    induction views with
    | nil => exact fun _ _ holds => holds
    | cons view views ih =>
        intro builder notList holds
        rw [List.foldl_cons]
        refine ih _ notList ?_
        rcases bindView_cases recipe tag builder view with ⟨bound, bind, next⟩ | ⟨_, next⟩
        · rw [next]
          exact binds holds notList bind
        · rw [next]
          exact holds
  unfold addAll
  induction registrations generalizing builder with
  | nil => exact initially
  | cons registration rest ih =>
      refine ih ?_
      unfold add
      split
      · split
        · exact views _ _ _ _ (Offer.isList_recipe _ _) initially
        · exact decorates _ initially
      · exact initially

/-- Adding registrations keeps what a registry contains. -/
theorem addAll_contains (registrations : List (Registration U)) {key : Key}
    (contains : builder.registry.contains key = true) :
    (builder.addAll registrations).registry.contains key = true :=
  builder.addAll_induction (fun contains _ binds => Registry.contains_bind binds contains)
    (fun _ contains => contains) registrations contains

end Builder

/-- There are no more different keys that are bound than there are bound keys. -/
theorem Registry.length_le_bound (registry : Registry U) {keys : List Key} (distinct : keys.Nodup)
    (contained : ∀ key ∈ keys, registry.contains key = true) : keys.length ≤ registry.bound := by
  have subset : keys ⊆ registry.bindings.keys := fun key member =>
    Table.mem_keys.mpr (contained key member)
  have fits := (distinct.subperm subset).length_le
  rwa [Table.keys, List.length_map] at fits

namespace Scope

variable {scope above : Scope U}

/-- Built scopes list what is registered. -/
theorem Built.listed (built : scope.Built) : scope.registry.Listed := by
  have keeps : ∀ {builder : Builder U} (registrations), builder.registry.Listed →
      (builder.addAll registrations).scope.registry.Listed := by
    intro builder registrations listed
    rw [Builder.scope_registry]
    exact Builder.addAll_induction (fun listed notList binds => listed.bind notList binds)
      (fun _ listed => listed) registrations listed
  induction built with
  | root id registrations => exact keeps registrations fun _ _ _ finds => nomatch finds
  | child id registrations _ _ ih => exact keeps registrations ih

/-- What is bound in a scope is bound in all scopes below it. -/
theorem Built.contains_of_above (built : scope.Built) (isAbove : above.Above scope) {key : Key}
    (contains : above.registry.contains key = true) : scope.registry.contains key = true := by
  induction built with
  | root id registrations =>
      obtain ⟨node, isRoot, _⟩ := Builder.scope_of_none
        (show ((Builder.root id : Builder U).addAll registrations).parent = none from
          Builder.addAll_parent ..)
      rw [isRoot] at isAbove ⊢
      cases isAbove
      exact contains
  | @child id registrations parent _ _ ih =>
      obtain ⟨node, isChild, _⟩ := Builder.scope_of_parent
        (show ((Builder.child id parent).addAll registrations).parent = some parent from
          Builder.addAll_parent ..)
      rw [isChild] at isAbove
      cases isAbove with
      | refl => rwa [isChild]
      | child _ upper =>
          rw [Builder.scope_registry]
          exact Builder.addAll_contains registrations (ih upper)

end Scope

/-! ## Aliases -/

/-- The offers that a client can describe. -/
inductive Offer.Described : Offer U → Prop where
  | value (produces : ServiceType) (content : Content U) : Described (.value produces content)
  | factory (produces : ServiceType) (make : U.Constructor) (params : List Param) :
      Described (.factory produces make params)
  | withLifetime {offer : Offer U} (lifetime : Lifetime) :
      Described offer → Described (offer.withLifetime lifetime)
  | withTag {offer : Offer U} (tag : Tag) : Described offer → Described (offer.withTag tag)
  | closeWith {offer : Offer U} (close : U.Closer) :
      Described offer → Described (offer.closeWith close)
  | withoutCloser {offer : Offer U} : Described offer → Described offer.withoutCloser
  | alsoAs {offer : Offer U} (type : ServiceType) (cast : U.Cast) :
      Described offer → Described (offer.alsoAs type cast)
  | dependencyTag {offer : Offer U} (type : ServiceType) (tag : Tag) :
      Described offer → Described (offer.dependencyTag type tag)

/-- The registrations that a client can make. -/
def Registration.Described : Registration U → Prop
  | service offer => offer.Described
  | decorator _ => True

/-- Tagging a dependency leaves the aliases as they are. -/
theorem Offer.aliases_dependencyTag (offer : Offer U) (type : ServiceType) (tag : Tag) :
    (offer.dependencyTag type tag).aliases = offer.aliases := by
  unfold dependencyTag
  split
  · rfl
  · split <;> rfl

/-- No offer has an alias twice. -/
theorem Offer.Described.nodup {offer : Offer U} (described : offer.Described) :
    (offer.aliases.map Prod.fst).Nodup := by
  induction described with
  | value => exact List.nodup_nil
  | factory => exact List.nodup_nil
  | withLifetime _ _ ih => exact ih
  | withTag _ _ ih => exact ih
  | closeWith _ _ ih => exact ih
  | withoutCloser _ ih => exact ih
  | dependencyTag type tag _ ih => rwa [aliases_dependencyTag]
  | @alsoAs offer type cast _ ih =>
      unfold Offer.alsoAs
      split
      · exact ih
      · split
        · exact ih
        · next unknown =>
          split
          · exact ih
          · rw [List.map_append]
            refine List.nodup_append.mpr ⟨ih, List.nodup_singleton _, ?_⟩
            rintro known member other last rfl
            obtain rfl := List.mem_singleton.mp last
            obtain ⟨entry, inside, same⟩ := List.mem_map.mp member
            exact unknown (List.any_eq_true.mpr ⟨entry, inside, decide_eq_true same⟩)

/-- An offer that is visible under a type twice is converted in one way for it. -/
theorem Offer.Described.view_eq {offer : Offer U} (described : offer.Described)
    {view other : ServiceType × Option U.Cast} (member : view ∈ offer.views)
    (member' : other ∈ offer.views) (same : view.1 = other.1) : view = other := by
  unfold views at member member'
  split at member
  · next isEmpty =>
    rw [isEmpty] at member'
    rw [List.mem_singleton.mp member, List.mem_singleton.mp member']
  · split at member'
    · next nonempty _ isEmpty => exact absurd isEmpty nonempty
    · obtain ⟨known, inside, rfl⟩ := List.mem_map.mp member
      obtain ⟨known', inside', rfl⟩ := List.mem_map.mp member'
      rw [List.inj_on_of_nodup_map described.nodup inside inside' same]

/-- Bindings of one registration under one key of its own convert in the same way. -/
def Registry.Faithful (registry : Registry U) : Prop :=
  ∀ (first second : Key) (one other : Binding U), registry.find? first = some one →
    registry.find? second = some other → one.recipe.isList = false →
      other.recipe.isList = false → one.recipe.id = other.recipe.id →
        one.registered = other.registered → one.cast = other.cast

namespace Builder

variable {builder : Builder U}

/-- Accepting an offer keeps a registry faithful to what was offered. -/
theorem Sound.accept_faithful (sound : builder.Sound) (faithful : builder.registry.Faithful)
    {offer : Offer U} (described : offer.Described) :
    (builder.accept offer).registry.Faithful := by
  intro first second one other finds finds' notList notList' same registered
  rcases find?_accept finds with (⟨view, member, rfl, _⟩ | ⟨type, items, _, rfl⟩) | before
  · rcases find?_accept finds' with (⟨view', member', rfl, _⟩ | ⟨type, items, _, rfl⟩) | before'
    · rw [described.view_eq member member' (congrArg Key.type registered)]
    · cases notList'
    · exact absurd same.symm (sound.before_ne before' notList')
  · cases notList
  · rcases find?_accept finds' with (⟨view', _, rfl, _⟩ | ⟨type, items, _, rfl⟩) | before'
    · exact absurd same (sound.before_ne before notList)
    · cases notList'
    · exact faithful _ _ _ _ before before' notList notList' same registered

/-- Adding registrations keeps a registry faithful to what was offered. -/
theorem Sound.addAll_faithful (sound : builder.Sound) (faithful : builder.registry.Faithful)
    {registrations : List (Registration U)}
    (described : ∀ registration ∈ registrations, registration.Described) :
    (builder.addAll registrations).registry.Faithful := by
  unfold Builder.addAll
  induction registrations generalizing builder with
  | nil => exact faithful
  | cons registration rest ih =>
      refine ih (sound.add registration) ?_ fun other member =>
        described other (List.mem_cons_of_mem _ member)
      have described := described registration List.mem_cons_self
      unfold Builder.add
      split
      · split
        · exact sound.accept_faithful faithful described
        · exact faithful
      · exact faithful

end Builder

namespace Moment

variable {moment : Moment U} {scope : Scope U}

/-- Clients built scopes of registrations that they can make. -/
def Registers (moment : Moment U) : Prop :=
  ∀ id parent registrations, moment.Did id (.started (.build parent registrations)) →
    ∀ registration ∈ registrations, registration.Described

theorem Registers.mono {next : Moment U} (registers : next.Registers)
    (grows : moment.history <:+ next.history) : moment.Registers :=
  fun id parent registrations began => registers id parent registrations (grows.mem began)

variable (lawful : moment.Lawful (Conduct.orderly.and Conduct.growing))

include lawful

/-- The registrations that a scope was built of. -/
theorem IsScope.built_of (isScope : moment.IsScope scope) : ∃ id parent registrations,
    moment.Did id (.started (.build parent registrations)) ∧
      (∀ above ∈ parent, moment.IsScope above) ∧
        scope = ((Builder.start scope.id parent).addAll registrations).scope := by
  obtain ⟨id, ended⟩ := isScope
  obtain ⟨before, lawful', grows, _, parent, registrations, began, _, same⟩ := lawful.allowed ended
  refine ⟨id, parent, registrations, grows.mem began, ?_, same⟩
  rintro above ⟨⟩
  exact ((lawful'.mono fun _ _ both => both.1).named began List.mem_cons_self).mono grows

/-- The bindings of a scope convert instances of a registration for each of its keys in one
way. -/
theorem IsScope.faithful (registers : moment.Registers) (isScope : moment.IsScope scope) :
    scope.registry.Faithful := by
  obtain ⟨id, parent, registrations, began, known, same⟩ := isScope.built_of lawful
  have described := registers _ _ _ began
  induction scope generalizing id parent registrations with
  | root node =>
      cases parent with
      | none =>
          rw [same, Builder.scope_registry]
          exact (Builder.Sound.root _).addAll_faithful (fun _ _ _ _ finds => nomatch finds)
            described
      | some parent =>
          obtain ⟨_, isChild, _⟩ := Builder.scope_of_parent
            (show ((Builder.start node.id (some parent)).addAll registrations).parent =
                some parent from Builder.addAll_parent ..)
          cases same.trans isChild
  | child node upper ih =>
      cases parent with
      | none =>
          obtain ⟨_, isRoot, _⟩ := Builder.scope_of_none
            (show ((Builder.start node.id (none : Option (Scope U))).addAll registrations).parent =
                none from Builder.addAll_parent ..)
          cases same.trans isRoot
      | some parent =>
          obtain ⟨_, isChild, _⟩ := Builder.scope_of_parent
            (show ((Builder.start node.id (some parent)).addAll registrations).parent =
                some parent from Builder.addAll_parent ..)
          obtain ⟨rfl, rfl⟩ := Scope.child.inj (same.trans isChild)
          have isParent := known upper rfl
          obtain ⟨id', parent', registrations', began', known', same'⟩ := isParent.built_of lawful
          have sound := (isParent.grown lawful).built.sound
          have fresh : node.id ∉ upper.lineage :=
            (List.nodup_cons.mp (isScope.grown lawful).built.sound.distinct).1
          rw [same, Builder.scope_registry]
          refine (sound.child fresh).addAll_faithful ?_ described
          exact ih isParent id' parent' registrations' began' known' same' (registers _ _ _ began')

end Moment

end Provision
