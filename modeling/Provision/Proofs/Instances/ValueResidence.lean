import Provision.Proofs.Registries.RegistrationOrder
import Provision.Proofs.Closing.InstanceDisposal

/-!
# Where values are kept

Whatever a scope keeps is of a registration with a constructor.  A singleton is kept by the scope
that registered it, and an instance for each scope by a scope below the one that registered it.
Besides the instance itself a scope keeps what it shows of it under the keys of the registration,
and this only once the instance is there.

Main statement: `kept_where_it_belongs`.
-/

namespace Provision

open Moment

variable {U : Client}

/-! ## Registrations -/

namespace Builder

variable {builder : Builder U} {placed : List (Placement U)}

/-- Every binding but that of a list comes from an offer that was accepted. -/
theorem Follows.bound (follows : builder.Follows placed) {key : Key} {found : Binding U}
    (finds : builder.registry.find? key = some found) (notList : found.recipe.isList = false) :
    ∃ placement ∈ placed, ∃ view ∈ placement.offer.views, found = placement.binding view := by
  induction follows with
  | root id => exact nomatch finds
  | @child id above placed _ ih =>
      have same : (Builder.child id above.scope).registry = above.registry := scope_registry above
      exact ih (same ▸ finds)
  | @service builder placed offer _ _ _ ih =>
      rcases find?_accept finds with (⟨view, member, rfl, _⟩ | ⟨type, items, _, rfl⟩) | before
      · exact ⟨_, List.mem_append_right _ List.mem_cons_self, view, member, rfl⟩
      · cases notList
      · obtain ⟨placement, member, rest⟩ := ih before
        exact ⟨placement, List.mem_append_left _ member, rest⟩
  | @decorator builder placed decorator _ sound ih =>
      refine ih ?_
      unfold add at finds
      simpa [Registration.issues, sound, Registry.find?, Registry.decorate] using finds

end Builder

namespace Moment

/-- An offer is among the registrations that a scope was built of. -/
def Accepted (moment : Moment U) (owner : Scope U) (placement : Placement U) : Prop :=
  ∃ id parent registrations, moment.Did id (.started (.build parent registrations)) ∧
    moment.Did id (.finished (.ok (.built owner))) ∧
      placement ∈ placements owner.id 0 registrations

/-- The owner of an accepted registration is a scope. -/
theorem Accepted.isScope {moment : Moment U} {owner : Scope U} {placement : Placement U}
    (accepted : moment.Accepted owner placement) : moment.IsScope owner := by
  obtain ⟨id, _, _, _, ended, _⟩ := accepted
  exact ⟨id, ended⟩

/-- A scope was built below its parent. -/
theorem IsScope.built_below {moment : Moment U} {scope : Scope U}
    (lawful : moment.Lawful (Conduct.orderly.and Conduct.growing))
    (isScope : moment.IsScope scope) : ∃ id registrations,
      moment.Did id (.started (.build scope.parent? registrations)) ∧
        moment.Did id (.finished (.ok (.built scope))) ∧
          ∀ upper, scope.parent? = some upper → moment.IsScope upper := by
  obtain ⟨id, ended⟩ := isScope
  obtain ⟨before, _, grows, _, parent, registrations, began, _, same⟩ := lawful.allowed ended
  have began := grows.mem began
  have isParent : scope.parent? = parent := by
    have below : ((Builder.start scope.id parent).addAll registrations).parent = parent :=
      (Builder.addAll_parent ..).trans (Builder.start_parent ..)
    cases parent with
    | none =>
        obtain ⟨_, isRoot, _⟩ := Builder.scope_of_none below
        rw [same, isRoot, Scope.parent?]
    | some parent =>
        obtain ⟨_, isChild, _⟩ := Builder.scope_of_parent below
        rw [same, isChild, Scope.parent?]
  subst isParent
  refine ⟨id, registrations, began, ended, fun upper isUpper => ?_⟩
  refine (lawful.mono fun _ _ allowed => allowed.1).named began ?_
  rw [Demand.scopes, isUpper]
  exact List.mem_cons_self

end Moment

/-- What is placed by a scope is owned by it. -/
theorem scope_of_mem_placements {scope : ScopeId} {count : Nat}
    {registrations : List (Registration U)} {placement : Placement U}
    (member : placement ∈ placements scope count registrations) : placement.scope = scope := by
  induction registrations generalizing count with
  | nil => cases member
  | cons registration rest ih =>
      cases registration with
      | service offer =>
          rcases List.mem_cons.mp member with rfl | later
          · rfl
          · exact ih later
      | decorator decorator => exact ih member

/-- The registrations of a chain of scopes were accepted by the scopes that they were made in. -/
theorem Moment.Raised.accepted {moment : Moment U} {scope : Scope U}
    {levels : List (ScopeId × List (Registration U))} (raised : moment.Raised scope levels)
    {placement : Placement U} (placed : placement ∈ offersOf levels) :
    ∃ owner, owner.id = placement.scope ∧ moment.Accepted owner placement := by
  induction raised with
  | @root id scope registrations began ended =>
      have placed : placement ∈ placements scope.id 0 registrations := by
        simpa [offersOf] using placed
      exact ⟨scope, (scope_of_mem_placements placed).symm, id, _, _, began, ended, placed⟩
  | @child id scope parent registrations levels _ began ended ih =>
      rw [offersOf, List.flatMap_append, List.mem_append] at placed
      rcases placed with above | here
      · exact ih above
      · have placed : placement ∈ placements scope.id 0 registrations := by simpa using here
        exact ⟨scope, (scope_of_mem_placements placed).symm, id, _, _, began, ended, placed⟩

namespace Activity.Reachable

variable {activity : Activity U} (reachable : activity.Reachable)

include reachable

/-- Every scope stands at the end of a chain. -/
theorem exists_raised {scope : Scope U} (isScope : activity.moment.IsScope scope) :
    ∃ levels, activity.moment.Raised scope levels := by
  have lawful := reachable.lawful kept_growing
  induction scope with
  | root node =>
      obtain ⟨id, registrations, began, ended, _⟩ := isScope.built_below lawful
      exact ⟨_, .root began ended⟩
  | child node parent ih =>
      obtain ⟨id, registrations, began, ended, above⟩ := isScope.built_below lawful
      obtain ⟨levels, raised⟩ := ih (above parent rfl)
      exact ⟨_, .child raised began ended⟩

/-- A binding of a scope, unless that of a list, comes from an offer that its owner accepted. -/
theorem exists_placement {scope : Scope U} (isScope : activity.moment.IsScope scope) {key : Key}
    {binding : Binding U} (finds : scope.registry.find? key = some binding)
    (notList : binding.recipe.isList = false) :
    ∃ owner placement, owner.Above scope ∧ owner.id = binding.owner ∧
      activity.moment.Accepted owner placement ∧
        ∃ view ∈ placement.offer.views, binding = placement.binding view := by
  have lawful := reachable.lawful kept_growing
  obtain ⟨owner, above, owns⟩ := (isScope.grown lawful).built.sound.owner finds
  obtain ⟨named, _⟩ := Scope.ancestor?_some above
  have isOwner := isScope.ancestor lawful above
  obtain ⟨levels, raised⟩ := reachable.exists_raised isOwner
  obtain ⟨builder, rfl, follows⟩ := reachable.follows raised
  rw [Builder.scope_registry] at owns
  obtain ⟨placement, placed, view, isView, rfl⟩ := follows.bound owns notList
  obtain ⟨other, isPlace, accepted⟩ := raised.accepted placed
  obtain rfl := accepted.isScope.eq_of_id lawful isOwner (isPlace.trans named.symm)
  exact ⟨_, placement, .ofAncestor above, named, accepted, view, isView, rfl⟩

end Activity.Reachable

/-! ## The conduct -/

/-- The cells of a scope for an instance of a binding and for what is shown of it. -/
def Binding.HasCell (binding : Binding U) (entry : CacheKey) : Prop :=
  binding.recipe.lifetime.isKept = true ∧
    (entry = .made binding.recipe.id ∨ entry = .shown binding.recipe.id binding.registered)

namespace Moment

/-- When a request may enter a cell: for something that is made in that scope and kept there. -/
def MayEnter (moment : Moment U) (scope : ScopeId) (entry : CacheKey) : Prop :=
  ∃ key binding home, moment.IsScope home ∧ home.id = scope ∧ home.Finds key binding home ∧
    binding.HasCell entry

theorem MayEnter.mono {moment next : Moment U} {scope : ScopeId} {entry : CacheKey}
    (may : moment.MayEnter scope entry) (grows : moment.history <:+ next.history) :
    next.MayEnter scope entry := by
  obtain ⟨key, binding, home, isScope, rest⟩ := may
  exact ⟨key, binding, home, isScope.mono grows, rest⟩

end Moment

/-- Requests enter only the cells of what is kept where the cells are. -/
def Conduct.residing : Conduct U :=
  Duties.conduct { enters := fun moment scope cell _ => moment.MayEnter scope cell }

/-- Events that enter no cells but those of a binding in its home. -/
def Event.Dwells (home : ScopeId) (binding : Binding U) : Event U → Prop
  | .performed (.enter scope entry) _ => scope = home ∧ binding.HasCell entry
  | _ => True

/-- Making values dwells wherever it is done. -/
theorem Event.Making.dwells {event : Event U} (making : event.Making) (home : ScopeId)
    (binding : Binding U) : event.Dwells home binding := by
  cases event with
  | performed operation answer => cases operation <;> first | exact trivial | exact making.elim
  | _ => trivial

/-- Events that dwell in the home of a binding reside there if its cells may be entered. -/
theorem Conduct.residing_of_dwells {moment : Moment U} {id : RequestId} {event : Event U}
    {home : ScopeId} {binding : Binding U} (dwells : event.Dwells home binding)
    (may : ∀ entry, binding.HasCell entry → moment.MayEnter home entry) :
    Conduct.residing moment ⟨id, event⟩ := by
  cases event with
  | performed operation answer =>
      cases operation with
      | enter scope entry =>
          obtain ⟨rfl, isCell⟩ := dwells
          exact may entry isCell
      | _ => trivial
  | _ => trivial

/-- Producing a value enters the cell of the instance, and then the one of the value. -/
theorem only_produceFrom_dwells (home : Scope U) (context : ContextId) (key : Key)
    (binding : Binding U) (inputs : Inputs U) :
    Request.Only (Event.Dwells home.id binding) (fun _ => True)
      (produceFrom home context key binding inputs) := by
  have makes := (only_construct home.id context binding.recipe inputs.arguments inputs.flag
    binding.cast.isSome).mono (fun _ making => making.dwells home.id binding) fun _ makes => makes
  refine Request.only_bind (only_keepIf makes (fun kept _ => ⟨rfl, kept, .inl rfl⟩)
    fun _ _ _ => trivial) (fun _ _ => trivial) fun made _ => ?_
  have finishes := (only_finish home.id context key binding inputs.stages made).mono
    (fun _ making => making.dwells home.id binding) fun _ makes => makes
  exact only_keepIf finishes (fun kept _ => ⟨rfl, kept, .inr rfl⟩) fun _ _ _ => trivial

section Kept

variable {rely : Conduct U} {id : RequestId} {origin : Moment U}

/-- Requests for keys of built scopes enter cells in the home of what they make. -/
def dwelling (lawful : origin.Lawful (Conduct.orderly.and Conduct.growing)) (id : RequestId) :
    Upkeep rely Conduct.residing id where
  holds := fun moment => origin.history <:+ moment.history
  among := origin.IsScope
  yields := fun _ _ _ _ => True
  failed := fun _ _ _ _ _ => True
  stable := Moment.stable_suffix rely origin id
  harmless := fun _ _ _ idle => Duties.conduct_of_aside idle.making.aside
  ancestor := @IsScope.ancestor _ _ lawful
  lasts := fun _ _ => trivial
  plain := fun _ _ => trivial
  cycle := fun _ _ _ => trivial
  dependency := fun _ _ _ _ => trivial
  recalled := fun _ _ _ _ _ _ _ _ _ => .of_trivial
  convert := by
    intro start scope key binding content _ _ _ _ _ grown
    refine ((only_convert binding scope.id key _).keeps ?_).mono ?_
    · exact fun _ _ _ _ serving => Duties.conduct_of_aside serving.making.aside
    · exact fun _ _ _ reached => .of_holds (grown.trans reached.2.suffix)
  produce := by
    intro start scope key binding home inputs context _ isScope finds _ grown _
    have leads : scope.Leads key ⟨home, binding⟩ := ⟨finds.bound, finds.home⟩
    obtain ⟨bound, isHome⟩ := leads.atHome (isScope.grown lawful).built
    have isHome' := isScope.home lawful finds.home
    refine ((only_produceFrom_dwells home context key binding inputs).keeps ?_).mono ?_
    · intro moment event passage _ dwells
      refine Conduct.residing_of_dwells dwells fun entry isCell => ?_
      exact ⟨key, binding, home, isHome'.mono (grown.trans passage.suffix), rfl,
        ⟨bound, finds.made, isHome⟩, isCell⟩
    · exact fun _ _ _ reached => .of_holds (grown.trans reached.2.suffix)

/-- All requests keep to the conduct. -/
theorem kept_residing (within : ∀ moment entry, rely moment entry →
    (Conduct.orderly.and Conduct.growing) moment entry) : Conduct.Kept rely Conduct.residing := by
  refine .ofResolving (fun _ _ _ => trivial) (Duties.conduct_of_aside ·.aside)
    (fun _ _ _ _ _ _ => trivial) ?_
  intro moment id demand after lawful orderly recorded resolves
  obtain ⟨origin, named⟩ := (lawful.mono within).starts orderly recorded
  exact ((dwelling origin id).asking resolves named (List.suffix_refl _)).mono
    fun _ _ _ _ => trivial

end Kept

/-! ## What caches hold -/

namespace Moment

/-- Whatever is in a cell, somebody entered it. -/
theorem Lawful.entered {conduct : Conduct U} {moment : Moment U} (lawful : moment.Lawful conduct)
    (settles : ∀ moment entry, conduct moment entry → Conduct.settling moment entry)
    {scope : ScopeId} {entry : CacheKey} {cell : Cell U}
    (there : moment.state.cell? scope entry = some cell) :
    ∃ id, moment.Entered id scope entry := by
  induction lawful generalizing cell with
  | initial => cases there
  | contexts contexts _ ih => exact ih there
  | @records moment next done _ recorded allowed ih =>
      obtain ⟨request, event⟩ := done
      rcases recorded.state.cell? scope entry with
        ⟨enters, _⟩ | ⟨outcome, isSettle, _⟩ | ⟨same, _⟩
      · cases enters
        exact ⟨request, recorded.did⟩
      · cases isSettle
        have fills : moment.Fills request scope entry := settles _ _ allowed
        exact ⟨request, recorded.suffix.mem fills.entered⟩
      · obtain ⟨id, entered⟩ := ih (same.symm.trans there)
        exact ⟨id, recorded.suffix.mem entered⟩

/-- An entry of the cache of a scope is for a registration that belongs there. -/
structure Belongs (moment : Moment U) (home owner : Scope U) (placement : Placement U)
    (entry : CacheKey) : Prop where
  /-- The registration was made in the scope or above it, and is visible in the scope. -/
  isScope : moment.IsScope home
  above : owner.Above home
  accepted : moment.Accepted owner placement
  visible : ∃ key, ∃ view ∈ placement.offer.views,
    home.registry.find? key = some (placement.binding view)
  /-- It is one with a constructor: neither a fixed value nor a list. -/
  factory : ∃ make params, placement.offer.origin = .factory make params
  /-- A singleton is kept by the scope that registered it, and what is kept for each scope below
  the one that registered it. -/
  lifetime : (placement.offer.lifetime = .singleton ∧ owner = home) ∨
    (placement.offer.lifetime = .perScope ∧ owner ≠ home)
  /-- The entry is for the instance, or for a key of the registration. -/
  entry : entry = .made (.registration placement.scope placement.index) ∨
    ∃ view ∈ placement.offer.views, entry =
      .shown (.registration placement.scope placement.index) ⟨view.1, placement.offer.tag⟩

end Moment

namespace Activity.Reachable

variable {activity : Activity U} (reachable : activity.Reachable)

include reachable

/-- A cell that may be entered belongs where its registration says. -/
theorem belongs {scope : ScopeId} {entry : CacheKey}
    (may : activity.moment.MayEnter scope entry) :
    ∃ home owner placement, home.id = scope ∧
      activity.moment.Belongs home owner placement entry := by
  have lawful := reachable.lawful kept_growing
  obtain ⟨key, binding, home, isScope, named, finds, kept, isCell⟩ := may
  have built := (isScope.grown lawful).built
  have proper := built.sound.proper finds.bound
  obtain ⟨owner, placement, above, isOwner, accepted, view, isView, rfl⟩ :=
    reachable.exists_placement isScope finds.bound (proper.unlisted kept)
  refine ⟨home, owner, placement, named, isScope, above, accepted, ⟨key, view, isView, finds.bound⟩,
    ?_, ?_, ?_⟩
  · cases origin : placement.offer.origin with
    | factory make params => exact ⟨make, params, rfl⟩
    | value content =>
        refine absurd ⟨content, ?_⟩ finds.made
        simp [Placement.binding, Offer.recipe, Offer.source, origin]
  · have isHome := finds.home
    have isOwner : owner.id = placement.scope := isOwner
    have offered : (placement.binding view).recipe.lifetime = placement.offer.lifetime := rfl
    rw [offered] at kept
    unfold Binding.home? at isHome
    rw [offered] at isHome
    cases lifetime : placement.offer.lifetime with
    | singleton =>
        rw [lifetime] at isHome
        have same : home.id = placement.scope := (Scope.ancestor?_some isHome).1
        exact .inl ⟨rfl, accepted.isScope.eq_of_id lawful isScope (isOwner.trans same.symm)⟩
    | perScope =>
        simp only [lifetime, Option.ite_none_left_eq_some] at isHome
        refine .inr ⟨rfl, ?_⟩
        rintro rfl
        exact isHome.1 isOwner
    | transient =>
        rw [lifetime] at kept
        cases kept
  · rcases isCell with rfl | rfl
    · exact .inl rfl
    · exact .inr ⟨view, isView, rfl⟩

end Activity.Reachable

namespace Moment

/-- Everything in the caches of the scopes is where it belongs. -/
structure CachesBelong (moment : Moment U) : Prop where
  /-- Every entry is for a registration that belongs in the scope. -/
  belongs : ∀ scope entry cell, moment.state.cell? scope entry = some cell →
    ∃ home owner placement, home.id = scope ∧ moment.Belongs home owner placement entry
  /-- Something is shown of a registration only where its instance is. -/
  backed : ∀ scope recipe key cell, moment.state.cell? scope (.shown recipe key) = some cell →
    ∃ made, moment.state.cell? scope (.made recipe) = some (.filled (.ok made))

end Moment

/-- In whatever order requests go, caches hold only what belongs in their scopes. -/
theorem kept_where_it_belongs {activity : Activity U} (reachable : activity.Reachable) :
    activity.moment.CachesBelong := by
  have keeps : Conduct.Kept
      (Conduct.orderly.and (Conduct.growing.and (Conduct.keeping.and
        (Conduct.custody.and Conduct.residing))))
      ((@Conduct.growing U).and (Conduct.keeping.and (Conduct.custody.and Conduct.residing))) :=
    kept_growing.and ((kept_keeping fun _ _ all => ⟨all.1, all.2.1, all.2.2.1⟩).and
      ((kept_custody fun _ _ all => ⟨all.1, all.2.1, all.2.2.1, all.2.2.2.1⟩).and
        (kept_residing fun _ _ all => ⟨all.1, all.2.1⟩)))
  have lawful := reachable.lawful keeps
  have settles : ∀ moment entry, (Conduct.orderly.and (Conduct.growing.and (Conduct.keeping.and
      (Conduct.custody.and Conduct.residing)))) moment entry →
        Conduct.settling (U := U) moment entry :=
    fun _ _ all => Conduct.settling_of_keeping all.2.2.1
  constructor
  · intro scope entry cell there
    obtain ⟨id, entered⟩ := lawful.entered settles there
    obtain ⟨before, _, grows, _, _, _, _, may⟩ := lawful.allowed entered
    exact reachable.belongs (MayEnter.mono may grows)
  · intro scope recipe key cell there
    obtain ⟨id, entered⟩ := lawful.entered settles there
    obtain ⟨⟨made, settler, settled⟩, _⟩ :=
      lawful.mayRecover (fun _ _ all => ⟨all.1, all.2.1, all.2.2.1, all.2.2.2.1⟩) entered
    exact ⟨made, ((lawful.cellSound settles scope _).settled settled).2⟩

namespace Resident

/-- The key of a singleton. -/
def shared : Key := .of (.concrete "sample" "A")

/-- The key of a service that each scope has for itself. -/
def own : Key := .of (.concrete "sample" "B")

/-- What the root scope is built of. -/
def registrations : List (Registration Client.obliging) :=
  [.service (.factory shared.type () []),
    .service ((Offer.factory own.type () [.service shared]).withLifetime .perScope)]

/-- The root scope. -/
def root : Scope Client.obliging :=
  ((Builder.root ⟨1⟩).addAll registrations).scope

/-- The child scope. -/
def child : Scope Client.obliging :=
  ((Builder.child ⟨2⟩ root).addAll []).scope

/-- The world once the root scope is built. -/
def begun : World Client.obliging Unit :=
  (Demand.build none registrations).afterwards Behaviour.obliging { state := {}, memory := () }

/-- The world once the child scope is built. -/
def built : World Client.obliging Unit :=
  (Demand.build (some root) []).afterwards Behaviour.obliging begun

/-- The world once both services were resolved in the child scope. -/
def resolved : World Client.obliging Unit :=
  (Demand.resolve child ⟨0⟩ own).afterwards Behaviour.obliging built

/-- A service was resolved in a child of the scope that registered it. -/
theorem served : ∃ activity : Activity Client.obliging, Activity.Served Behaviour.obliging
    [(.build none registrations, .ok (.built root)), (.build (some root) [], .ok (.built child)),
      (.resolve child ⟨0⟩ own, .ok (.resolved { type := own.type, content := .object () }))]
    resolved activity := by
  have builds : (Demand.build none registrations).request.run.run Behaviour.obliging
      { state := {}, memory := () } = some (.ok (.built root), begun) := rfl
  have more : (Demand.build (some root) []).request.run.run Behaviour.obliging begun =
      some (.ok (.built child), built) := rfl
  have resolves : (Demand.resolve child ⟨0⟩ own).request.run.run Behaviour.obliging built =
      some (.ok (.resolved { type := own.type, content := .object () }), resolved) := rfl
  have detached := Behaviour.obliging_detached
  obtain ⟨_, one, _⟩ := (Activity.Served.initial ()).next detached builds nofun
  obtain ⟨_, two, _⟩ := one.nextOn detached more rfl List.mem_cons_self
  obtain ⟨activity, three, _⟩ := two.nextOn detached resolves rfl
    (List.mem_cons_of_mem _ List.mem_cons_self)
  exact ⟨activity, three⟩

end Resident

/-- A child scope asked for a service of its own, which needs a singleton of the root scope: each
scope keeps one of them. -/
theorem each_kept_at_home : ∃ activity : Activity Client.obliging, activity.Reachable ∧
    (activity.moment.state.cell? ⟨1⟩ (.made (.registration ⟨1⟩ 0))).isSome = true ∧
      (activity.moment.state.cell? ⟨2⟩ (.made (.registration ⟨1⟩ 0))).isSome = false ∧
        (activity.moment.state.cell? ⟨1⟩ (.made (.registration ⟨1⟩ 1))).isSome = false ∧
          (activity.moment.state.cell? ⟨2⟩
            (.shown (.registration ⟨1⟩ 1) Resident.own)).isSome = true ∧
            activity.moment.CachesBelong := by
  obtain ⟨activity, served⟩ := Resident.served
  refine ⟨activity, served.reachable, ?_⟩
  rw [served.state]
  exact ⟨rfl, rfl, rfl, rfl, kept_where_it_belongs served.reachable⟩

end Provision
