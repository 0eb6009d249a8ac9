import Provision.Proofs.Resolution.ResolutionUpkeep
import Mathlib.Logic.Relation

/-!
# Dependency graphs

The services that requests lead to, each in the scope that keeps it, and what they depend on
there.  Going along dependencies leads to the same scope or to its ancestors, never back down.

Main statement: `Walk.dependencyCycle`, that meeting a key again closes a cycle if the scope where
it is met again sees the services on the way as they were seen.
-/

namespace Provision

open Scope

variable {U : Client}

/-- A service in the scope that keeps it. -/
structure Node (U : Client) where
  home : Scope U
  binding : Binding U

/-- A key, as seen from a scope, leads to a service. -/
structure Scope.Leads (scope : Scope U) (key : Key) (node : Node U) : Prop where
  bound : scope.registry.find? key = some node.binding
  home : node.binding.home? scope = some node.home

namespace Scope.Leads

variable {scope : Scope U} {key : Key} {node : Node U}

theorem above (leads : scope.Leads key node) : node.home.Above scope :=
  Binding.above_of_home leads.home

/-- The scope that keeps a service sees it as its own. -/
theorem atHome (leads : scope.Leads key node) (built : scope.Built) :
    node.home.Leads key node := by
  obtain ⟨bound, home⟩ := leads
  unfold Binding.home? at home
  cases lifetime : node.binding.recipe.lifetime with
  | singleton =>
      rw [lifetime] at home
      obtain ⟨owner, finds, owns⟩ := built.sound.owner bound
      obtain rfl : owner = node.home := Option.some.inj (finds.symm.trans home)
      refine ⟨owns, ?_⟩
      unfold Binding.home?
      rw [lifetime, ← (Scope.ancestor?_some finds).1]
      exact Scope.ancestor?_self node.home
  | perScope =>
      simp only [lifetime, Option.ite_none_left_eq_some, Option.some.injEq] at home
      obtain ⟨other, rfl⟩ := home
      refine ⟨bound, ?_⟩
      simp only [Binding.home?, lifetime, if_neg other]
  | transient =>
      rw [lifetime] at home
      obtain rfl := Option.some.inj home
      refine ⟨bound, ?_⟩
      simp only [Binding.home?, lifetime]

theorem unique {other : Node U} (leads : scope.Leads key node)
    (leads' : scope.Leads key other) : node = other := by
  have bindings := Option.some.inj (leads.bound.symm.trans leads'.bound)
  have homes := leads.home.symm.trans (bindings ▸ leads'.home)
  cases node
  cases other
  cases bindings
  cases homes
  rfl

end Scope.Leads

namespace Node

/-- A service depends on the parameters of its constructor and of its decorators.  Nothing is
needed for a fixed value. -/
def Needs (node : Node U) (key : Key) : Prop :=
  ¬ node.binding.IsValue ∧ node.binding.Needs node.home key

/-- One service depends on another, looked up from where the first is kept. -/
def Edge (node next : Node U) : Prop :=
  ∃ key, node.Needs key ∧ node.home.Leads key next

end Node

/-- A key, as seen from a scope, leads to services that depend on themselves. -/
def DependencyCycle (scope : Scope U) (key : Key) : Prop :=
  ∃ start node, scope.Leads key start ∧ Relation.ReflTransGen Node.Edge start node ∧
    Relation.TransGen Node.Edge node node

/-- Where every way along dependencies ends, nothing depends on itself. -/
theorem not_dependencyCycle {scope : Scope U} {key : Key} {start : Node U}
    (leads : scope.Leads key start) (ends : Acc (fun next node => Node.Edge node next) start) :
    ¬ DependencyCycle scope key := by
  rintro ⟨begin, node, leads', path, cycle⟩
  obtain rfl := leads'.unique leads
  clear leads leads'
  induction ends with
  | intro start _ ih =>
      rcases Relation.ReflTransGen.cases_head path with rfl | ⟨next, edge, rest⟩
      · obtain ⟨next, edge, back⟩ := Relation.TransGen.head'_iff.mp cycle
        exact ih next edge back
      · exact ih next edge rest

/-- A service with a single parameter and no decorators depends on nothing else. -/
theorem Node.Edge.eq_of_single {node next target : Node U} {key : Key}
    (edge : Node.Edge node next) (params : node.binding.recipe.params = [.service key])
    (plain : node.home.registry.decoratorsOf node.binding.registered = [])
    (leads : node.home.Leads key target) : next = target := by
  obtain ⟨needed, ⟨_, constructor | ⟨decorator, applies, _⟩⟩, leads'⟩ := edge
  · rw [params, List.mem_singleton] at constructor
    cases constructor
    exact leads'.unique leads
  · rw [plain] at applies
    cases applies

theorem Node.not_edge_of_nil {node next : Node U} (params : node.binding.recipe.params = [])
    (plain : node.home.registry.decoratorsOf node.binding.registered = []) :
    ¬ Node.Edge node next := by
  rintro ⟨needed, ⟨_, constructor | ⟨decorator, applies, _⟩⟩, _⟩
  · rw [params] at constructor
    cases constructor
  · rw [plain] at applies
    cases applies

/-- A key that was looked up on the way, and the service that it led to. -/
structure Visit (U : Client) where
  key : Key
  node : Node U

/-- The way that a request for a key of a scope takes from one service to the next. -/
inductive Walk : Scope U → Key → List (Visit U) → Visit U → Prop where
  | here {scope : Scope U} {key : Key} {node : Node U} (leads : scope.Leads key node) :
      Walk scope key [] ⟨key, node⟩
  | step {scope : Scope U} {key needed : Key} {node : Node U} {visits : List (Visit U)}
      {last : Visit U} (leads : scope.Leads key node) (needs : node.Needs needed)
      (walk : Walk node.home needed visits last) : Walk scope key (⟨key, node⟩ :: visits) last

/-- A scope sees a service as it was seen on a visit, as one that it would keep itself. -/
structure Visit.SeenBy (visit : Visit U) (scope : Scope U) : Prop where
  leads : scope.Leads visit.key ⟨scope, visit.node.binding⟩
  decorators : scope.registry.decoratorsOf visit.node.binding.registered =
    visit.node.home.registry.decoratorsOf visit.node.binding.registered

/-! ## Walks -/

namespace Walk

variable {scope : Scope U} {key : Key} {visits : List (Visit U)} {last : Visit U}

theorem above (walk : Walk scope key visits last) : last.node.home.Above scope := by
  induction walk with
  | here leads => exact leads.above
  | step leads _ _ ih => exact ih.trans leads.above

/-- A walk leads along the edges of the graph. -/
theorem edges (walk : Walk scope key visits last) :
    ∃ start, scope.Leads key start ∧ Relation.ReflTransGen Node.Edge start last.node := by
  induction walk with
  | here leads => exact ⟨_, leads, .refl⟩
  | step leads needs _ ih =>
      obtain ⟨next, leads', path⟩ := ih
      exact ⟨_, leads, .head ⟨_, needs, leads'⟩ path⟩

/-- The last service of a walk is one that its own scope sees. -/
theorem atHome (walk : Walk scope key visits last) (built : scope.Built) :
    last.node.home.Leads last.key last.node := by
  induction walk with
  | here leads => exact leads.atHome built
  | step leads _ _ ih => exact ih (built.above leads.above)

/-- The rest of a walk from one of its visits on. -/
theorem from_visit {before between : List (Visit U)} {first : Visit U}
    (walk : Walk scope key (before ++ first :: between) last) :
    ∃ (source : Scope U) (needed : Key), source.Above scope ∧ source.Leads first.key first.node ∧
      first.node.Needs needed ∧ Walk first.node.home needed between last := by
  induction before generalizing scope key with
  | nil =>
      cases walk with
      | step leads needs rest => exact ⟨scope, _, .refl _, leads, needs, rest⟩
  | cons visit before ih =>
      cases walk with
      | step leads _ rest =>
          obtain ⟨source, needed, above, found⟩ := ih rest
          exact ⟨source, needed, above.trans leads.above, found⟩

/-- A walk that comes back to the scope it starts from stays there. -/
theorem seenBy (walk : Walk scope key visits last) (stays : last.node.home = scope) :
    ∀ visit ∈ visits, visit.SeenBy scope := by
  induction walk with
  | here => exact fun _ member => absurd member List.not_mem_nil
  | @step scope key needed node visits last leads _ rest ih =>
      have same : node.home = scope :=
        leads.above.antisymm (stays ▸ rest.above)
      intro visit member
      rcases List.mem_cons.mp member with rfl | later
      · refine ⟨⟨leads.bound, ?_⟩, by rw [same]⟩
        exact leads.home.trans (congrArg some same)
      · exact same ▸ ih (stays.trans same.symm) visit later

/-- If a scope sees the services of a walk as they were seen, the walk can be made from there. -/
theorem replay (walk : Walk scope key visits last) {home : Scope U}
    (seen : ∀ visit ∈ visits, visit.SeenBy home) (leads : home.Leads last.key last.node) :
    ∃ start, home.Leads key start ∧ Relation.ReflTransGen Node.Edge start last.node := by
  induction walk with
  | here => exact ⟨_, leads, .refl⟩
  | @step _ key needed node _ _ _ needs _ ih =>
      have seenHere := seen ⟨key, node⟩ List.mem_cons_self
      obtain ⟨next, leads', path⟩ :=
        ih (fun visit member => seen visit (List.mem_cons_of_mem _ member)) leads
      refine ⟨⟨home, node.binding⟩, seenHere.leads, .head ⟨needed, ⟨needs.1, ?_⟩, leads'⟩ path⟩
      rcases needs.2 with constructor | ⟨decorator, applies, decorates⟩
      · exact .inl constructor
      · refine .inr ⟨decorator, ?_, decorates⟩
        change decorator ∈ home.registry.decoratorsOf node.binding.registered
        rw [seenHere.decorators]
        exact applies

/-- A walk that meets a key again closes a cycle if the scope where it is met again sees the
services since then as they were seen. -/
theorem dependencyCycle {before between : List (Visit U)} {first : Visit U}
    (walk : Walk scope key (before ++ first :: between) last) (built : scope.Built)
    (again : last.key = first.key)
    (seen : ∀ visit ∈ first :: between, visit.SeenBy last.node.home) :
    last.node.binding = first.node.binding ∧ DependencyCycle scope key := by
  obtain ⟨source, needed, _, _, needs, rest⟩ := walk.from_visit
  have seenFirst := seen first List.mem_cons_self
  have leads := walk.atHome built
  have same : last.node = ⟨last.node.home, first.node.binding⟩ :=
    leads.unique (again ▸ seenFirst.leads)
  obtain ⟨start, leads', path⟩ :=
    rest.replay (fun visit member => seen visit (List.mem_cons_of_mem _ member)) leads
  have needsAgain : last.node.Needs needed := by
    rw [same]
    refine ⟨needs.1, ?_⟩
    rcases needs.2 with constructor | ⟨decorator, applies, decorates⟩
    · exact .inl constructor
    · refine .inr ⟨decorator, ?_, decorates⟩
      change decorator ∈ last.node.home.registry.decoratorsOf first.node.binding.registered
      rw [seenFirst.decorators]
      exact applies
  obtain ⟨begin, leadsFirst, reaches⟩ := walk.edges
  refine ⟨by rw [same], begin, last.node, leadsFirst, reaches, ?_⟩
  exact .head' ⟨needed, needsAgain, leads'⟩ path

end Walk

end Provision
