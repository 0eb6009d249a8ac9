import Provision.Proofs.Registries.BuiltRegistries
import Provision.Trial.ScopeTree

/-!
# What the scopes of a trial hold

In the trial of scope trees every scope has the three services of the root, of which a child may
have a shared one of its own.  Nothing is decorated, converted or refused.

Main statements: `stocked_root` and `Stocked.child`.
-/

namespace Provision

/-- A key can be bound again, and another one of its type after it.  That changes what is bound for
the type, and the list of the type. -/
theorem Registry.exists_bind {U : Client} {registry : Registry U} {key : Key}
    (notList : registry.isList key = false) (isList : registry.isList key.listKey = true)
    (binding : Binding U) :
    ∃ bound, registry.bind key binding = .ok bound ∧ bound.find? key = some binding ∧
      bound.isList key.listKey = true ∧ bound.decorators = registry.decorators ∧
        ∀ other, other.type ≠ key.type → other ≠ key.listKey →
          bound.find? other = registry.find? other := by
  obtain ⟨items, collects⟩ : ∃ items, registry.items key = .ok items := by
    unfold Registry.isList at isList
    unfold Registry.items
    cases found : registry.find? key.listKey with
    | none => exact ⟨[], rfl⟩
    | some list =>
        have isList : list.recipe.isList = true := by simpa [found] using isList
        exact ⟨list.recipe.params, by simp [isList]⟩
  have differs : key.listKey ≠ key := fun same => ServiceType.list_ne _ (congrArg Key.type same)
  refine ⟨registry.extended key binding items,
    Registry.bind_eq_ok_iff.mpr ⟨notList, items, collects, rfl⟩, ?_, ?_,
    registry.decorators_extended key binding items, ?_⟩
  · rw [Registry.find?_extended, if_neg differs, if_pos rfl]
  · rw [Registry.isList, Registry.find?_extended, if_pos rfl]
    rfl
  · intro other typed unlisted
    have notKey : key ≠ other := fun same => typed (congrArg Key.type same).symm
    have notItem : Key.item key.type items.length ≠ other :=
      fun same => typed (congrArg Key.type same).symm
    rw [Registry.find?_extended, if_neg unlisted.symm, if_neg notKey, if_neg notItem]

theorem Builder.bindView_of_ok {U : Client} {recipe : Recipe U} {tag : Option Tag}
    {builder : Builder U} {view : ServiceType × Option U.Cast} {registry : Registry U}
    (binds : builder.registry.bind ⟨view.1, tag⟩ ⟨recipe, ⟨view.1, tag⟩, builder.id, view.2⟩ =
      .ok registry) :
    bindView recipe tag builder view = { builder with registry, ownsRegistry := true } := by
  simp only [bindView, binds]

namespace Trial.ScopeTree

/-- The service with one instance per registering scope. -/
def sharedOffer : Offer client :=
  (Offer.factory shared () []).closeWith ()

/-- The service with one instance per scope. -/
def perScopeOffer : Offer client :=
  ((Offer.factory perScope () [.service (.of shared)]).withLifetime .perScope).closeWith ()

/-- The service with a new instance for every request. -/
def freshOffer : Offer client :=
  ((Offer.factory fresh () [.service (.of perScope)]).withLifetime .transient).closeWith ()

/-- What an offer of a scope is bound as, without a tag. -/
def bindingOf (offer : Offer client) (owner : ScopeId) (index : Nat) : Binding client where
  recipe := offer.recipe (.registration owner index)
  registered := .of offer.produces
  owner := owner
  cast := none

/-- What every scope of the trial has. -/
structure Stocked (root : ScopeId) (scope : Scope client) : Prop where
  shared : ∃ owner, scope.registry.find? (.of shared) = some (bindingOf sharedOffer owner 0)
  perScope : scope.registry.find? (.of perScope) = some (bindingOf perScopeOffer root 1)
  fresh : scope.registry.find? (.of fresh) = some (bindingOf freshOffer root 2)
  list : scope.registry.isList (.of (.list ScopeTree.shared)) = true
  undecorated : scope.registry.decorators = []

/-- What a child of a scope is built of. -/
def additions (overrides : Bool) : List (Registration client) :=
  if overrides then [sharedRegistration] else []

theorem stocked_root (id : ScopeId) :
    Stocked id ((Builder.root id).addAll registrations).scope where
  shared := ⟨id, rfl⟩
  perScope := rfl
  fresh := rfl
  list := rfl
  undecorated := rfl

/-- Nothing is wrong with a child, no closers are promised for it from the start, and it has what
its parent has, or a shared service of its own. -/
theorem Stocked.child {root : ScopeId} {parent : Scope client} (stocked : Stocked root parent)
    (id : ScopeId) (overrides : Bool) :
    ((Builder.child id parent).addAll (additions overrides)).issues = [] ∧
      ((Builder.child id parent).addAll (additions overrides)).closers = [] ∧
        Stocked root ((Builder.child id parent).addAll (additions overrides)).scope := by
  cases overrides with
  | false =>
      refine ⟨rfl, rfl, ?_⟩
      exact ⟨stocked.shared, stocked.perScope, stocked.fresh, stocked.list, stocked.undecorated⟩
  | true =>
      obtain ⟨owner, bound⟩ := stocked.shared
      have notList : parent.registry.isList (.of ScopeTree.shared) = false := by
        rw [Registry.isList, bound]
        rfl
      obtain ⟨registry, binds, finds, list, same, others⟩ :=
        Registry.exists_bind notList stocked.list (bindingOf sharedOffer id 0)
      let builder := Builder.child id parent
      let bound : Builder client := Builder.bindView (sharedOffer.recipe (.registration id 0)) none
        builder (ScopeTree.shared, none)
      have isBound : bound = { builder with registry, ownsRegistry := true } :=
        Builder.bindView_of_ok binds
      have accepts : builder.addAll (additions true) =
          { bound with closers := bound.closers ++ [], accepted := bound.accepted + 1 } := rfl
      have adds : builder.addAll (additions true) =
          { builder with registry, ownsRegistry := true, accepted := 1 } := by
        rw [accepts, isBound]
        rfl
      rw [adds]
      refine ⟨rfl, rfl, ⟨id, finds⟩, ?_, ?_, list, ?_⟩
      · exact (others _ (by decide) (by decide)).trans stocked.perScope
      · exact (others _ (by decide) (by decide)).trans stocked.fresh
      · exact same.trans stocked.undecorated

end Trial.ScopeTree

end Provision
