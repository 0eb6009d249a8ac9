import Provision.Builder

/-!
# Trees of built scopes

What holds of the registries of scopes that were built, each under an identity that its ancestors
do not have.  A binding is found in the registry of the scope that owns it, and bindings of one
registration agree about its recipe.

Main statements: `Scope.Built.owner` and `Scope.Built.home` say where a binding is found,
`Scope.Built.proper` what it is like, and `Scope.Built.coherent` what two bindings share.
-/

namespace Provision

variable {U : Client}

namespace Scope

@[simp] theorem lineage_root (node : ScopeNode U) : (root node).lineage = [node.id] := rfl

@[simp] theorem lineage_child (node : ScopeNode U) (parent : Scope U) :
    (child node parent).lineage = node.id :: parent.lineage := rfl

/-- A scope is the first of its own lineage. -/
theorem id_mem_lineage (scope : Scope U) : scope.id ∈ scope.lineage := by
  cases scope with
  | root node => exact List.mem_singleton_self _
  | child node parent => exact List.mem_cons_self

/-- From a scope, its own number leads to itself. -/
theorem ancestor?_self (scope : Scope U) : scope.ancestor? scope.id = some scope := by
  cases scope with
  | root node => exact if_pos rfl
  | child node parent => exact if_pos rfl

/-- Any other number leads on to the parent. -/
theorem ancestor?_child_of_ne {node : ScopeNode U} {parent : Scope U} {wanted : ScopeId}
    (differs : node.id ≠ wanted) :
    (child node parent).ancestor? wanted = parent.ancestor? wanted :=
  if_neg differs

/-- What is found by its identity has it, and comes with no ancestors but those of the scope. -/
theorem ancestor?_some {scope found : Scope U} {wanted : ScopeId}
    (finds : scope.ancestor? wanted = some found) :
    found.id = wanted ∧ found.lineage <:+ scope.lineage := by
  induction scope with
  | root node =>
      simp only [ancestor?, Option.ite_none_right_eq_some, Option.some.injEq] at finds
      obtain ⟨same, rfl⟩ := finds
      exact ⟨same, List.suffix_refl _⟩
  | child node parent ih =>
      by_cases here : node.id = wanted
      · simp only [ancestor?, here, if_true, Option.some.injEq] at finds
        subst finds
        exact ⟨here, List.suffix_refl _⟩
      · rw [ancestor?_child_of_ne here] at finds
        obtain ⟨same, suffix⟩ := ih finds
        exact ⟨same, suffix.trans (List.suffix_cons _ _)⟩

/-- Every number of the lineage leads to a scope. -/
theorem ancestor?_isSome_of_mem {scope : Scope U} {wanted : ScopeId}
    (member : wanted ∈ scope.lineage) : ∃ found, scope.ancestor? wanted = some found := by
  induction scope with
  | root node =>
      obtain rfl := List.mem_singleton.mp member
      exact ⟨_, if_pos rfl⟩
  | child node parent ih =>
      by_cases here : node.id = wanted
      · exact ⟨_, if_pos here⟩
      · rw [ancestor?_child_of_ne here]
        rcases List.mem_cons.mp member with same | above
        · exact absurd same.symm here
        · exact ih above

end Scope

/-! ## Registries -/

/-- How a binding stands under a key: it is registered for the key's type, and its recipe is that
of a registration of its owner, or of a list. -/
structure Binding.Proper (binding : Binding U) (key : Key) : Prop where
  type : binding.registered.type = key.type
  produces : binding.cast = none → binding.recipe.produces = binding.registered.type
  list : binding.recipe.isList = true →
    binding.recipe.lifetime = .transient ∧ ∃ item, binding.recipe.id = .list item
  unclosed : binding.recipe.isList = true → binding.recipe.closer = none
  registration : binding.recipe.isList = false →
    ∃ index, binding.recipe.id = .registration binding.owner index

/-- Lists are not kept. -/
theorem Binding.Proper.unlisted {key : Key} {binding : Binding U} (proper : binding.Proper key)
    (kept : binding.recipe.lifetime.isKept = true) : binding.recipe.isList = false := by
  cases isList : binding.recipe.isList with
  | false => rfl
  | true =>
      rw [(proper.list isList).1] at kept
      cases kept

/-- Bindings of one registration share its recipe, and only aliases have several keys. -/
def Registry.Coherent (registry : Registry U) : Prop :=
  ∀ {first second : Key} {one other : Binding U},
    registry.find? first = some one → registry.find? second = some other →
      one.recipe.isList = false → other.recipe.isList = false →
        one.recipe.id = other.recipe.id →
          one.recipe = other.recipe ∧ (one.cast = none → other.cast = none ∧
            one.registered = other.registered)

/-- What a bind makes visible: the item itself, the list that it grows, or what was visible
before. -/
theorem Registry.find?_bind {registry bound : Registry U} {key wanted : Key}
    {binding found : Binding U} (binds : registry.bind key binding = .ok bound)
    (finds : bound.find? wanted = some found) :
    (found = binding ∧ wanted.type = key.type) ∨
      (∃ items, wanted = key.listKey ∧
        found = ⟨.ofItems key.type items, key.listKey, binding.owner, none⟩) ∨
      registry.find? wanted = some found := by
  obtain ⟨_, items, _, rfl⟩ := bind_eq_ok_iff.mp binds
  rw [find?_extended] at finds
  by_cases isList : key.listKey = wanted
  · rw [if_pos isList] at finds
    cases finds
    exact .inr (.inl ⟨_, isList.symm, rfl⟩)
  by_cases isKey : key = wanted
  · rw [if_neg isList, if_pos isKey] at finds
    cases finds
    exact .inl ⟨rfl, by rw [isKey]⟩
  by_cases isItem : Key.item key.type items.length = wanted
  · rw [if_neg isList, if_neg isKey, if_pos isItem] at finds
    cases finds
    exact .inl ⟨rfl, by rw [← isItem]; rfl⟩
  · rw [if_neg isList, if_neg isKey, if_neg isItem] at finds
    exact .inr (.inr finds)

namespace Builder

/-- Apply registrations in order. -/
def addAll (registrations : List (Registration U)) (builder : Builder U) : Builder U :=
  registrations.foldl add builder

/-- How a binding that an offer brings stands under a key: for one of the types that the offer
is visible under, or as the list of everything registered for one. -/
def Brings (owner : ScopeId) (recipe : Recipe U) (tag : Option Tag)
    (views : List (ServiceType × Option U.Cast)) (key : Key) (binding : Binding U) : Prop :=
  (∃ view ∈ views, binding = ⟨recipe, ⟨view.1, tag⟩, owner, view.2⟩ ∧ key.type = view.1) ∨
    ∃ type items, key = .of (.list type) ∧
      binding = ⟨.ofItems type items, .of (.list type), owner, none⟩

/-- A view is bound, or an issue is noted and nothing else changes. -/
theorem bindView_cases (recipe : Recipe U) (tag : Option Tag) (builder : Builder U)
    (view : ServiceType × Option U.Cast) :
    (∃ bound, builder.registry.bind ⟨view.1, tag⟩
        ⟨recipe, ⟨view.1, tag⟩, builder.id, view.2⟩ = .ok bound ∧
      bindView recipe tag builder view = { builder with registry := bound, ownsRegistry := true }) ∨
    ∃ issue,
      bindView recipe tag builder view = { builder with ownsRegistry := true }.reject issue := by
  simp only [bindView]
  split
  · next bound binds => exact .inl ⟨bound, binds, rfl⟩
  · exact .inr ⟨_, rfl⟩

/-- Binding views leaves the number of the builder, its parent and its count of services as they
are. -/
theorem foldl_bindView_frame (recipe : Recipe U) (tag : Option Tag)
    (views : List (ServiceType × Option U.Cast)) (builder : Builder U) :
    (views.foldl (bindView recipe tag) builder).id = builder.id ∧
      (views.foldl (bindView recipe tag) builder).parent = builder.parent ∧
        (views.foldl (bindView recipe tag) builder).accepted = builder.accepted ∧
          (views.foldl (bindView recipe tag) builder).closers = builder.closers := by
  induction views generalizing builder with
  | nil => exact ⟨rfl, rfl, rfl, rfl⟩
  | cons view views ih =>
      rw [List.foldl_cons]
      rcases bindView_cases recipe tag builder view with ⟨_, _, next⟩ | ⟨_, next⟩
      · rw [next]
        exact ih _
      · rw [next]
        exact ih _

/-- What is found after binding a view was brought by the view or found before. -/
theorem find?_bindView {recipe : Recipe U} {tag : Option Tag} {builder : Builder U}
    {view : ServiceType × Option U.Cast} {key : Key} {found : Binding U}
    (finds : (bindView recipe tag builder view).registry.find? key = some found) :
    Brings builder.id recipe tag [view] key found ∨ builder.registry.find? key = some found := by
  rcases bindView_cases recipe tag builder view with ⟨bound, binds, next⟩ | ⟨_, next⟩
  · rw [next] at finds
    rcases Registry.find?_bind binds finds with ⟨rfl, type⟩ | ⟨items, rfl, rfl⟩ | before
    · exact .inl (.inl ⟨view, List.mem_singleton_self _, rfl, type⟩)
    · exact .inl (.inr ⟨_, items, rfl, rfl⟩)
    · exact .inr before
  · rw [next] at finds
    exact .inr finds

theorem Brings.mono {owner : ScopeId} {recipe : Recipe U} {tag : Option Tag}
    {views more : List (ServiceType × Option U.Cast)} {key : Key} {found : Binding U}
    (brings : Brings owner recipe tag views key found) (subset : views ⊆ more) :
    Brings owner recipe tag more key found := by
  rcases brings with ⟨view, member, rest⟩ | list
  · exact .inl ⟨view, subset member, rest⟩
  · exact .inr list

/-- What is found after binding views was brought by one of them or found before. -/
theorem find?_foldl_bindView {recipe : Recipe U} {tag : Option Tag}
    {views : List (ServiceType × Option U.Cast)} {builder : Builder U} {key : Key}
    {found : Binding U}
    (finds : (views.foldl (bindView recipe tag) builder).registry.find? key = some found) :
    Brings builder.id recipe tag views key found ∨ builder.registry.find? key = some found := by
  induction views generalizing builder with
  | nil => exact .inr finds
  | cons view views ih =>
      rw [List.foldl_cons] at finds
      rcases ih finds with brings | before
      · rw [show (bindView recipe tag builder view).id = builder.id from
          (foldl_bindView_frame recipe tag [view] builder).1] at brings
        exact .inl (brings.mono (List.subset_cons_self _ _))
      · rcases find?_bindView before with brings | before
        · exact .inl (brings.mono (List.cons_subset_cons _ (List.nil_subset _)))
        · exact .inr before

/-- What is found after an offer was accepted was brought by the offer or found before. -/
theorem find?_accept {builder : Builder U} {offer : Offer U} {key : Key} {found : Binding U}
    (finds : (builder.accept offer).registry.find? key = some found) :
    Brings builder.id (offer.recipe (.registration builder.id builder.accepted)) offer.tag
        offer.views key found ∨ builder.registry.find? key = some found :=
  find?_foldl_bindView finds

@[simp] theorem accept_id (builder : Builder U) (offer : Offer U) :
    (builder.accept offer).id = builder.id :=
  (foldl_bindView_frame ..).1

@[simp] theorem accept_parent (builder : Builder U) (offer : Offer U) :
    (builder.accept offer).parent = builder.parent :=
  (foldl_bindView_frame ..).2.1

/-- Each accepted offer is counted once. -/
theorem accept_accepted (builder : Builder U) (offer : Offer U) :
    (builder.accept offer).accepted = builder.accepted + 1 :=
  congrArg (· + 1) (foldl_bindView_frame ..).2.2.1

@[simp] theorem add_id (builder : Builder U) (registration : Registration U) :
    (builder.add registration).id = builder.id := by
  unfold add
  split
  · split
    · exact accept_id ..
    · rfl
  · rfl

@[simp] theorem add_parent (builder : Builder U) (registration : Registration U) :
    (builder.add registration).parent = builder.parent := by
  unfold add
  split
  · split
    · exact accept_parent ..
    · rfl
  · rfl

@[simp] theorem addAll_id (registrations : List (Registration U)) (builder : Builder U) :
    (builder.addAll registrations).id = builder.id := by
  unfold addAll
  induction registrations generalizing builder with
  | nil => rfl
  | cons registration rest ih => rw [List.foldl_cons, ih, add_id]

@[simp] theorem addAll_parent (registrations : List (Registration U)) (builder : Builder U) :
    (builder.addAll registrations).parent = builder.parent := by
  unfold addAll
  induction registrations generalizing builder with
  | nil => rfl
  | cons registration rest ih => rw [List.foldl_cons, ih, add_parent]

/-- The closers that a builder promises are those of fixed values. -/
theorem mem_closers_addAll {registrations : List (Registration U)} {builder : Builder U}
    {closer : PendingCloser U} (member : closer ∈ (builder.addAll registrations).closers) :
    closer ∈ builder.closers ∨ ∃ content, closer.recipe.source = .value content := by
  unfold addAll at member
  induction registrations generalizing builder with
  | nil => exact .inl member
  | cons registration rest ih =>
      rcases ih member with before | fixed
      · unfold add at before
        split at before
        · split at before
          · next offer =>
            rcases List.mem_append.mp before with earlier | own
            · rw [(foldl_bindView_frame ..).2.2.2] at earlier
              exact .inl earlier
            · unfold valueCloser? at own
              split at own
              · next content source =>
                unfold Recipe.closerFor? at own
                split at own
                · cases own
                · rw [if_pos rfl] at own
                  obtain rfl := List.mem_singleton.mp own
                  exact .inr ⟨content, source⟩
              · cases own
          · exact .inl before
        · exact .inl before
      · exact .inr fixed

end Builder

/-! ## Offers and what they bring -/

/-- No offer has the recipe of a list. -/
theorem Offer.isList_recipe (offer : Offer U) (id : RecipeId) :
    (offer.recipe id).isList = false := by
  unfold Offer.recipe Recipe.isList Offer.source
  cases offer.origin <;> rfl

/-- An offer is visible under aliases or under the type it has, and under no other key then. -/
theorem Offer.views_cases (offer : Offer U) :
    offer.views = [(offer.produces, none)] ∨ ∀ view ∈ offer.views, view.2 ≠ none := by
  unfold Offer.views
  split
  · exact .inl rfl
  · right
    intro view member
    obtain ⟨known, _, rfl⟩ := List.mem_map.mp member
    exact Option.some_ne_none _

/-- A view without a conversion is the only view of its offer, under the type that it makes. -/
theorem Offer.eq_of_mem_views {offer : Offer U} {view : ServiceType × Option U.Cast}
    (member : view ∈ offer.views) (uncast : view.2 = none) :
    offer.views = [(offer.produces, none)] ∧ view = (offer.produces, none) := by
  rcases offer.views_cases with single | aliases
  · rw [single] at member
    exact ⟨single, List.mem_singleton.mp member⟩
  · exact absurd uncast (aliases view member)

/-- Whatever an offer brings is bound as it should be. -/
theorem Builder.Brings.proper {owner : ScopeId} {index : Nat} {offer : Offer U} {key : Key}
    {found : Binding U} (brings : Builder.Brings owner
      (offer.recipe (.registration owner index)) offer.tag offer.views key found) :
    found.Proper key := by
  rcases brings with ⟨view, member, rfl, type⟩ | ⟨type, items, rfl, rfl⟩
  · have notList := Offer.isList_recipe offer (.registration owner index)
    refine ⟨type.symm, ?_, ?_, ?_, fun _ => ⟨index, rfl⟩⟩
    · intro uncast
      obtain ⟨_, rfl⟩ := Offer.eq_of_mem_views member uncast
      rfl
    · exact fun isList => absurd isList (by rw [notList]; exact Bool.false_ne_true)
    · exact fun isList => absurd isList (by rw [notList]; exact Bool.false_ne_true)
  · exact ⟨rfl, fun _ => rfl, fun _ => ⟨rfl, type, rfl⟩, fun _ => rfl, nofun⟩

/-! ## Builders -/

/-- What holds of a builder at any time: each binding is the builder's own or one of the parent,
and the builder's own registrations are numbered below the next. -/
structure Builder.Sound (builder : Builder U) : Prop where
  owned : ∀ {key found}, builder.registry.find? key = some found → found.owner = builder.id ∨
    ∃ parent, builder.parent = some parent ∧ parent.registry.find? key = some found
  proper : ∀ {key found}, builder.registry.find? key = some found → found.Proper key
  coherent : builder.registry.Coherent
  numbered : ∀ {key found index}, builder.registry.find? key = some found →
    found.recipe.isList = false → found.recipe.id = .registration builder.id index →
      index < builder.accepted

namespace Builder.Sound

variable {builder : Builder U}

/-- A binding that was there before an offer is of another registration. -/
theorem before_ne (sound : builder.Sound) {key : Key} {found : Binding U} {offer : Offer U}
    (finds : builder.registry.find? key = some found) (notList : found.recipe.isList = false) :
    found.recipe.id ≠ (offer.recipe (.registration builder.id builder.accepted)).id :=
  fun same => Nat.lt_irrefl _ (sound.numbered finds notList same)

/-- Accepting an offer keeps a builder sound. -/
theorem accept (sound : builder.Sound) (offer : Offer U) : (builder.accept offer).Sound where
  owned := by
    intro key found finds
    rw [accept_id, accept_parent]
    rcases find?_accept finds with (⟨view, _, rfl, _⟩ | ⟨type, items, _, rfl⟩) | before
    · exact .inl rfl
    · exact .inl rfl
    · exact sound.owned before
  proper := by
    intro key found finds
    rcases find?_accept finds with brings | before
    · exact brings.proper
    · exact sound.proper before
  coherent := by
    intro first second one other finds finds' notList notList' same
    rcases find?_accept finds with (⟨view, member, rfl, _⟩ | ⟨type, items, _, rfl⟩) | before
    · rcases find?_accept finds' with (⟨view', member', rfl, _⟩ | ⟨type, items, _, rfl⟩) | before'
      · refine ⟨rfl, fun uncast => ?_⟩
        obtain ⟨single, rfl⟩ := Offer.eq_of_mem_views member uncast
        rw [single] at member'
        obtain rfl := List.mem_singleton.mp member'
        exact ⟨rfl, rfl⟩
      · cases notList'
      · exact absurd same.symm (sound.before_ne before' notList')
    · cases notList
    · rcases find?_accept finds' with (⟨view', _, rfl, _⟩ | ⟨type, items, _, rfl⟩) | before'
      · exact absurd same (sound.before_ne before notList)
      · cases notList'
      · exact sound.coherent before before' notList notList' same
  numbered := by
    intro key found index finds notList same
    rw [accept_accepted]
    rw [accept_id] at same
    rcases find?_accept finds with (⟨view, _, rfl, _⟩ | ⟨type, items, _, rfl⟩) | before
    · cases same
      exact Nat.lt_succ_self _
    · cases notList
    · exact Nat.lt_succ_of_lt (sound.numbered before notList same)

/-- Adding a registration keeps a builder sound. -/
theorem add (sound : builder.Sound) (registration : Registration U) :
    (builder.add registration).Sound := by
  unfold Builder.add
  split
  · split
    · exact sound.accept _
    · exact ⟨sound.owned, sound.proper, sound.coherent, sound.numbered⟩
  · exact ⟨sound.owned, sound.proper, sound.coherent, sound.numbered⟩

/-- Adding registrations keeps a builder sound. -/
theorem addAll (sound : builder.Sound) (registrations : List (Registration U)) :
    (builder.addAll registrations).Sound := by
  unfold Builder.addAll
  induction registrations generalizing builder with
  | nil => exact sound
  | cons registration rest ih => exact ih (sound.add registration)

/-- The builder of a root starts out sound. -/
theorem root (id : ScopeId) : (Builder.root id : Builder U).Sound where
  owned := nofun
  proper := nofun
  coherent := nofun
  numbered := nofun

end Builder.Sound

/-! ## Built scopes -/

/-- The builder of a scope with some registrations. -/
def Builder.start (id : ScopeId) : Option (Scope U) → Builder U
  | none => .root id
  | some parent => .child id parent

/-- A builder has the number that it was started with. -/
@[simp] theorem Builder.start_id (id : ScopeId) (parent : Option (Scope U)) :
    (Builder.start id parent).id = id := by
  cases parent <;> rfl

/-- A builder has the parent that it was started with. -/
@[simp] theorem Builder.start_parent (id : ScopeId) (parent : Option (Scope U)) :
    (Builder.start id parent).parent = parent := by
  cases parent <;> rfl

/-- A builder that started afresh promises closers of fixed values only. -/
theorem Builder.fixed_closers {id : ScopeId} {parent : Option (Scope U)}
    {registrations : List (Registration U)} {closer : PendingCloser U}
    (member : closer ∈ ((Builder.start id parent).addAll registrations).closers) :
    ∃ content, closer.recipe.source = .value content := by
  refine (mem_closers_addAll member).resolve_left ?_
  cases parent <;> exact List.not_mem_nil

/-- A new builder starts under the number that it is given. -/
theorem newBuilder_eq (parent : Option (Scope U)) :
    (newBuilder parent : Program U (Builder U)) = (do
      let id ← Program.act .newScope
      pure (Builder.start id parent)) := by
  cases parent <;> rfl

namespace Scope

/-- The scopes that come about by building, each under an identity that none of its ancestors
has. -/
inductive Built : Scope U → Prop where
  | root (id : ScopeId) (registrations : List (Registration U)) :
      Built ((Builder.root id).addAll registrations).scope
  | child (id : ScopeId) (registrations : List (Registration U)) {parent : Scope U} :
      Built parent → id ∉ parent.lineage →
        Built ((Builder.child id parent).addAll registrations).scope

end Scope

namespace Builder

/-- The scope has the number of its builder. -/
@[simp] theorem scope_id (builder : Builder U) : builder.scope.id = builder.id := by
  unfold scope
  split <;> rfl

/-- The scope has the registry of its builder. -/
@[simp] theorem scope_registry (builder : Builder U) :
    builder.scope.registry = builder.registry := by
  unfold scope
  split <;> rfl

/-- With a parent, the scope that is built is a child of it. -/
theorem scope_of_parent {builder : Builder U} {parent : Scope U}
    (isChild : builder.parent = some parent) :
    ∃ node, builder.scope = .child node parent ∧ node.id = builder.id := by
  unfold scope
  rw [isChild]
  exact ⟨_, rfl, rfl⟩

/-- Without a parent, the scope that is built is a root. -/
theorem scope_of_none {builder : Builder U} (isRoot : builder.parent = none) :
    ∃ node, builder.scope = .root node ∧ node.id = builder.id := by
  unfold scope
  rw [isRoot]
  exact ⟨_, rfl, rfl⟩

end Builder

namespace Scope

/-- What holds of the registry of a built scope. -/
structure Sound (scope : Scope U) : Prop where
  distinct : scope.lineage.Nodup
  owner : ∀ {key found}, scope.registry.find? key = some found →
    ∃ owner, scope.ancestor? found.owner = some owner ∧ owner.registry.find? key = some found
  proper : ∀ {key found}, scope.registry.find? key = some found → found.Proper key
  coherent : scope.registry.Coherent

/-- The builder of a child starts out sound if the parent is sound and the number is fresh. -/
theorem Sound.child {parent : Scope U} {id : ScopeId} (sound : parent.Sound)
    (fresh : id ∉ parent.lineage) : (Builder.child id parent).Sound where
  owned := fun finds => .inr ⟨parent, rfl, finds⟩
  proper := sound.proper
  coherent := sound.coherent
  numbered := by
    intro key found index finds notList same
    obtain ⟨owner, above, _⟩ := sound.owner finds
    obtain ⟨index', numbered⟩ := (sound.proper finds).registration notList
    obtain ⟨isOwner, _⟩ := RecipeId.registration.inj (numbered.symm.trans same)
    obtain ⟨named, suffix⟩ := ancestor?_some above
    have member : id ∈ parent.lineage := by
      rw [← (named.trans isOwner : owner.id = id)]
      exact suffix.mem owner.id_mem_lineage
    exact absurd member fresh

/-- Bindings of one recipe whose instances are kept are those of one registration. -/
theorem Sound.agree {scope : Scope U} (sound : scope.Sound) {first second : Key}
    {one other : Binding U} (finds : scope.registry.find? first = some one)
    (finds' : scope.registry.find? second = some other) (same : one.recipe.id = other.recipe.id)
    (kept : one.recipe.lifetime.isKept = true) :
    one.recipe = other.recipe ∧
      (one.cast = none → other.cast = none ∧ one.registered = other.registered) := by
  have notList := (sound.proper finds).unlisted kept
  have notList' : other.recipe.isList = false := by
    cases isList : other.recipe.isList with
    | false => rfl
    | true =>
        obtain ⟨_, item, isItem⟩ := (sound.proper finds').list isList
        obtain ⟨index, numbered⟩ := (sound.proper finds).registration notList
        rw [numbered, isItem] at same
        cases same
  exact sound.coherent finds finds' notList notList' same

/-- Scopes that were built are sound. -/
theorem Built.sound {scope : Scope U} (built : scope.Built) : scope.Sound := by
  induction built with
  | root id registrations =>
      have sound := (Builder.Sound.root id).addAll registrations
      have orphan : ((Builder.root id : Builder U).addAll registrations).parent = none :=
        Builder.addAll_parent ..
      obtain ⟨node, isRoot, _⟩ := Builder.scope_of_none orphan
      refine ⟨?_, ?_, ?_, ?_⟩
      · rw [isRoot]
        exact List.pairwise_singleton ..
      · intro key found finds
        rw [Builder.scope_registry] at finds
        rcases sound.owned finds with own | ⟨parent, impossible, _⟩
        · refine ⟨_, ?_, by rwa [Builder.scope_registry]⟩
          rw [own, ← Builder.scope_id]
          exact ancestor?_self _
        · rw [orphan] at impossible
          cases impossible
      · intro key found finds
        exact sound.proper (by rwa [Builder.scope_registry] at finds)
      · rw [Builder.scope_registry]
        exact sound.coherent
  | @child id registrations parent _ fresh ih =>
      have sound := (ih.child fresh).addAll registrations
      have below : ((Builder.child id parent).addAll registrations).parent = some parent :=
        Builder.addAll_parent ..
      obtain ⟨node, isChild, same⟩ := Builder.scope_of_parent below
      have ident : node.id = id := same.trans (Builder.addAll_id ..)
      refine ⟨?_, ?_, ?_, ?_⟩
      · rw [isChild, lineage_child, ident]
        exact List.nodup_cons.mpr ⟨fresh, ih.distinct⟩
      · intro key found finds
        rw [Builder.scope_registry] at finds
        rcases sound.owned finds with own | ⟨other, isParent, above⟩
        · refine ⟨_, ?_, by rwa [Builder.scope_registry]⟩
          rw [own, ← Builder.scope_id]
          exact ancestor?_self _
        · rw [below] at isParent
          cases isParent
          obtain ⟨owner, finds', owns⟩ := ih.owner above
          refine ⟨owner, ?_, owns⟩
          obtain ⟨named, suffix⟩ := ancestor?_some finds'
          have differs : node.id ≠ found.owner := by
            rw [ident, ← named]
            exact fun equal => fresh (equal ▸ suffix.mem owner.id_mem_lineage)
          rw [isChild, ancestor?_child_of_ne differs, finds']
      · intro key found finds
        exact sound.proper (by rwa [Builder.scope_registry] at finds)
      · rw [Builder.scope_registry]
        exact sound.coherent

/-- A scope or one of its ancestors. -/
inductive Above : Scope U → Scope U → Prop where
  | refl (scope : Scope U) : Above scope scope
  | child {above parent : Scope U} (node : ScopeNode U) :
      Above above parent → Above above (child node parent)

namespace Above

variable {first second third : Scope U}

theorem trans (upper : Above first second) (lower : Above second third) : Above first third := by
  induction lower with
  | refl => exact upper
  | child node _ ih => exact .child node ih

/-- A scope above another is in its lineage. -/
theorem id_mem (above : Above first second) : first.id ∈ second.lineage := by
  induction above with
  | refl => exact first.id_mem_lineage
  | child node _ ih => exact List.mem_cons_of_mem _ ih

/-- A scope above another is no deeper than it. -/
theorem depth_le (above : Above first second) : first.depth ≤ second.depth := by
  induction above with
  | refl => exact Nat.le_refl _
  | child node _ ih => exact Nat.le_succ_of_le ih

/-- Only the scope itself is above it and as deep. -/
theorem eq_of_depth_le (above : Above first second) (deep : second.depth ≤ first.depth) :
    first = second := by
  cases above with
  | refl => rfl
  | child node upper =>
      have shallow := upper.depth_le
      rw [depth] at deep
      omega

/-- Two scopes above each other are the same. -/
theorem antisymm (upper : Above first second) (lower : Above second first) : first = second :=
  upper.eq_of_depth_le lower.depth_le

/-- An ancestor that is found is above. -/
theorem ofAncestor {scope found : Scope U} {wanted : ScopeId}
    (finds : scope.ancestor? wanted = some found) : Above found scope := by
  induction scope with
  | root node =>
      simp only [ancestor?, Option.ite_none_right_eq_some, Option.some.injEq] at finds
      exact finds.2 ▸ .refl _
  | child node parent ih =>
      by_cases here : node.id = wanted
      · simp only [ancestor?, here, if_true, Option.some.injEq] at finds
        exact finds ▸ .refl _
      · rw [ancestor?_child_of_ne here] at finds
        exact .child node (ih finds)

end Above

/-- What is above a built scope was built. -/
theorem Built.above {scope above : Scope U} (built : scope.Built) (isAbove : above.Above scope) :
    above.Built := by
  induction built with
  | root id registrations =>
      obtain ⟨node, isRoot, _⟩ := Builder.scope_of_none
        (show ((Builder.root id : Builder U).addAll registrations).parent = none from
          Builder.addAll_parent ..)
      rw [isRoot] at isAbove
      cases isAbove
      exact isRoot ▸ .root id registrations
  | @child id registrations parent built fresh ih =>
      obtain ⟨node, isChild, _⟩ := Builder.scope_of_parent
        (show ((Builder.child id parent).addAll registrations).parent = some parent from
          Builder.addAll_parent ..)
      rw [isChild] at isAbove
      cases isAbove with
      | refl => exact isChild ▸ .child id registrations built fresh
      | child _ upper => exact ih upper

end Scope

end Provision
