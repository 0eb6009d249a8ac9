import Provision.Proofs.Resolution.DependencyGraph
import Provision.Proofs.Registries.TreeGrowth

/-!
# Cycles that are reported

A request that is told of a cycle has gone from service to service along the dependency graph and
come to a key that it was resolving already.  The chain that it is told is the part of its way
since then.  That the key is the same does not make it the same service: a scope may have
registered another under the key, and where the way leads to an ancestor of that scope, the key
leads elsewhere.

Main statements: `resolve_cycle`, which says what a reported cycle amounts to, and
`overridden_key_no_cycle`, an override that is reported although nothing depends on itself.
-/

namespace Provision

open Moment

variable {U : Client}

/-- If an error comes from a cycle, the request has walked the dependency graph to a key that was
being resolved already, and the chain is what it went through since then. -/
def MeetsAgain (scope : Scope U) (key : Key) (active : List Key) (error : Error) : Prop :=
  ∀ chain, error.root = .cycle chain → ∃ visits last, Walk scope key visits last ∧
    last.key ∈ active ++ visits.map Visit.key ∧
      chain = cycleChain (active ++ visits.map Visit.key) last.key ∧
        (visits.map Visit.key).Nodup ∧ ∀ visit ∈ visits, visit.key ∉ active

/-- Of an error that comes from no cycle nothing is to be shown. -/
theorem Error.Acyclic.meetsAgain {error : Error} (acyclic : error.Acyclic) (scope : Scope U)
    (key : Key) (active : List Key) : MeetsAgain scope key active error :=
  fun chain isCycle => absurd isCycle (acyclic chain)

section Walks

variable {scope home : Scope U} {key : Key} {binding : Binding U} {active : List Key}

/-- A key that is being resolved is met again on the spot. -/
theorem MeetsAgain.here (finds : scope.Finds key binding home) (isActive : key ∈ active) :
    MeetsAgain scope key active (.cycle (cycleChain active key)) := by
  intro chain isCycle
  cases isCycle
  refine ⟨[], ⟨key, ⟨home, binding⟩⟩, .here ⟨finds.bound, finds.home⟩, ?_, ?_, .nil,
    fun _ member => absurd member List.not_mem_nil⟩
  · simpa using isActive
  · simp

/-- A key is met again if one that it needs is, further down. -/
theorem MeetsAgain.dependency {needed : Key} {error : Error} (finds : scope.Finds key binding home)
    (needs : binding.Needs home needed) (inactive : key ∉ active)
    (meets : MeetsAgain home needed (active ++ [key]) error) :
    MeetsAgain scope key active (.dependency key needed error) := by
  intro chain isCycle
  obtain ⟨visits, last, walk, again, isChain, distinct, fresh⟩ := meets chain isCycle
  have same : active ++ [key] ++ visits.map Visit.key = active ++ key :: visits.map Visit.key := by
    rw [List.append_assoc, List.singleton_append]
  rw [same] at again isChain
  refine ⟨⟨key, ⟨home, binding⟩⟩ :: visits, last,
    .step ⟨finds.bound, finds.home⟩ ⟨finds.made, needs⟩ walk, again, isChain, ?_, ?_⟩
  · rw [List.map_cons, List.nodup_cons]
    refine ⟨fun member => ?_, distinct⟩
    obtain ⟨visit, visited, isKey⟩ := List.mem_map.mp member
    exact fresh visit visited (List.mem_append_right _ (by rw [isKey]; exact List.mem_cons_self))
  · intro visit member
    rcases List.mem_cons.mp member with rfl | later
    · exact inactive
    · exact fun isActive => fresh visit later (List.mem_append_left _ isActive)

end Walks

/-! ## The conduct -/

/-- No outcome that comes from a cycle is kept, and a request that ends with one has met a key
again. -/
def Conduct.detecting : Conduct U :=
  Duties.conduct {
    settles := fun _ _ _ _ outcome => Acyclic outcome
    ends := fun moment id reply =>
      match reply with
      | .error error => ∃ demand, moment.Did id (.started demand) ∧ (demand.Resolves →
          error.Acyclic ∨ ∃ scope key, demand.Asks scope key ∧ MeetsAgain scope key [] error)
      | .ok _ => True }

/-- Nothing that is kept comes from a cycle. -/
theorem Moment.Lawful.acyclic {conduct : Conduct U} {moment : Moment U}
    (lawful : moment.Lawful conduct)
    (detects : ∀ moment entry, conduct moment entry → Conduct.detecting moment entry)
    {scope : ScopeId} {entry : CacheKey} {outcome : Outcome U}
    (filled : moment.state.cell? scope entry = some (.filled outcome)) : Acyclic outcome := by
  induction lawful with
  | initial => cases filled
  | contexts contexts _ ih => exact ih filled
  | @records moment next did _ recorded allowed ih =>
      obtain ⟨id, event⟩ := did
      rcases recorded.state.cell? scope entry with ⟨_, _, filling⟩ | ⟨other, settles, now⟩ | ⟨same, _⟩
      · rw [filled] at filling
        cases filling
      · rw [filled] at now
        cases now
        have allowed := detects _ _ allowed
        rw [show event = _ from settles] at allowed
        exact allowed
      · exact ih (same ▸ filled)

section Kept

variable {rely : Conduct U} {id : RequestId} {start : Moment U}
  (detects : ∀ moment entry, rely moment entry → Conduct.detecting moment entry)

include detects

/-- Keeping what comes from no cycle reports none. -/
theorem keeps_keepIf_acyclic {kept : Bool} {scope : ScopeId} {entry : CacheKey}
    {create : Request U (Value U)} (creates : Request.Only Event.Making Acyclic create) :
    Request.Keeps rely Conduct.detecting id (fun outcome _ => Acyclic outcome)
      (keepIf kept scope entry create) start := by
  have made : ∀ begin, Request.Keeps rely Conduct.detecting id (fun outcome _ => Acyclic outcome)
      create begin := fun begin =>
    (creates.keeps fun _ _ _ _ making => Duties.conduct_of_aside making.aside).mono
      fun _ _ _ reached => reached.1
  refine Request.keeps_keepIf (fun _ => made start) (fun _ _ _ _ _ => trivial) ?_ ?_
  · intro _ before outcome after _ lawful recorded _ _ _
    exact lawful.acyclic detects (Operation.perform_enter_some recorded.state).1
  · intro _ before after _ _ _
    exact (made after).mono fun _ _ _ acyclic => ⟨acyclic, fun _ _ _ _ _ => acyclic⟩

/-- Requests for keys are told of cycles only if they met a key again. -/
def detection (id : RequestId) : Upkeep rely Conduct.detecting id where
  holds := fun _ => True
  among := fun _ => True
  yields := fun _ _ _ _ => True
  failed := fun _ => MeetsAgain
  stable := fun _ _ => trivial
  harmless := fun _ _ _ idle => Duties.conduct_of_aside idle.making.aside
  ancestor := fun _ _ => trivial
  lasts := fun _ _ => trivial
  plain := fun _ acyclic => acyclic.meetsAgain _ _ _
  cycle := fun _ finds isActive => .here finds isActive
  dependency := fun finds needs inactive meets => .dependency finds needs inactive meets
  recalled := by
    intro moment next scope key binding home outcome active _ finds _ lawful _ kept _ _
    have acyclic := lawful.acyclic detects (State.kept?_eq_some.mp kept)
    cases outcome with
    | ok value => exact trivial
    | error error => exact (acyclic error rfl).meetsAgain scope key active
  convert := by
    intro start scope key binding content active _ _ _ _ _
    refine ((only_convert binding scope.id key _).keeps ?_).mono ?_
    · exact fun _ _ _ _ serving => Duties.conduct_of_aside serving.making.aside
    · rintro (error | value) _ _ reached
      · exact (reached.1.acyclic error rfl).meetsAgain scope key active
      · exact ⟨trivial, trivial⟩
  produce := by
    intro start scope key binding home inputs context active _ _ _ _ _
    have ends : ∀ outcome moment, Acyclic outcome →
        Ends (fun (_ : Value U) (_ : Moment U) => True ∧ True)
          (fun error _ => MeetsAgain scope key active error) outcome moment := by
      rintro (error | value) moment acyclic
      · exact (acyclic error rfl).meetsAgain scope key active
      · exact ⟨trivial, trivial⟩
    refine Request.keeps_bind (keeps_keepIf_acyclic detects ?_) ?_ ?_
    · exact (only_construct home.id context binding.recipe inputs.arguments inputs.flag
        binding.cast.isSome).mono (fun _ making => making) fun _ makes => makes.acyclic
    · exact fun error moment _ acyclic => ends (.error error) moment acyclic
    · intro made moment _ _
      refine (keeps_keepIf_acyclic detects ?_).mono fun outcome last _ => ends outcome last
      exact (only_finish home.id context key binding inputs.stages made).mono
        (fun _ making => making) fun _ makes => makes.acyclic

/-- All requests are told of cycles only if they met a key again. -/
theorem kept_detecting : Conduct.Kept rely Conduct.detecting := by
  refine .ofResolving (fun _ _ _ => trivial) (Duties.conduct_of_aside ·.aside) ?_ ?_
  · rintro moment id demand (error | reply) began other
    · exact ⟨demand, began, fun resolves => absurd resolves other⟩
    · trivial
  · intro moment id demand after _ _ recorded resolves
    have began : after.Did id (.started demand) := recorded.did
    have asks : Request.Keeps rely Conduct.detecting id ((detection detects id).Answers demand)
        demand.request after :=
      (detection detects id).asking resolves (fun _ _ => trivial) trivial
    refine asks.grows.mono ?_
    rintro (error | reply) last _ ⟨grown, ends⟩
    · exact ⟨demand, grown.mem began, fun _ => ends.imp And.right fun asked => asked⟩
    · trivial

end Kept

/-! ## Reported cycles -/

/-- What a reported chain amounts to: the part of a walk from the first visit of a key to the next
of the same key.  The second visit is in the scope of the first or an ancestor of it, and if it is
in the same scope, or in one that sees the services of the chain as they were seen, they depend on
themselves. -/
structure ReportedCycle (scope : Scope U) (key : Key) (chain : List Key)
    (before between : List (Visit U)) (first last : Visit U) : Prop where
  walk : Walk scope key (before ++ first :: between) last
  again : last.key = first.key
  chain : chain = first.key :: between.map Visit.key ++ [last.key]
  distinct : ((before ++ first :: between).map Visit.key).Nodup
  above : last.node.home.Above first.node.home
  seen : (∀ visit ∈ first :: between, visit.SeenBy last.node.home) →
    last.node.binding = first.node.binding ∧ DependencyCycle scope key
  sameHome : last.node.home = first.node.home →
    last.node = first.node ∧ DependencyCycle scope key

/-- The chain of a cycle begins where its key stands first. -/
theorem cycleChain_append {before : List Key} {key : Key} {between : List Key}
    (fresh : key ∉ before) :
    cycleChain (before ++ key :: between) key = key :: between ++ [key] := by
  have skips : ∀ other ∈ before, (!decide (other = key)) = true := by
    intro other member
    have differs : other ≠ key := fun same => fresh (same ▸ member)
    simp [differs]
  unfold cycleChain
  rw [List.dropWhile_append_of_pos skips, List.dropWhile_cons_of_neg (by simp)]

/-- A cycle that a request reports is one of its dependencies. -/
theorem MeetsAgain.reported {scope : Scope U} {key : Key} {error : Error} {chain : List Key}
    (meets : MeetsAgain scope key [] error) (isCycle : error.root = .cycle chain)
    (built : scope.Built) :
    ∃ before between first last, ReportedCycle scope key chain before between first last := by
  obtain ⟨visits, last, walk, again, isChain, distinct, _⟩ := meets chain isCycle
  rw [List.nil_append] at again isChain
  obtain ⟨first, visited, same⟩ := List.mem_map.mp again
  obtain ⟨before, between, rfl⟩ := List.append_of_mem visited
  have fresh : first.key ∉ before.map Visit.key := by
    rw [List.map_append, List.map_cons, List.nodup_append] at distinct
    exact fun member => distinct.2.2 _ member _ List.mem_cons_self rfl
  obtain ⟨source, needed, sourceAbove, leads, needs, rest⟩ := walk.from_visit
  have builtSource := built.above sourceAbove
  have again : last.key = first.key := same.symm
  refine ⟨before, between, first, last, walk, again, ?_, distinct, rest.above, ?_, ?_⟩
  · rw [isChain, again, List.map_append, List.map_cons, cycleChain_append fresh]
  · exact walk.dependencyCycle built again
  · intro sameHome
    have seen : ∀ visit ∈ first :: between, visit.SeenBy last.node.home := by
      intro visit member
      rw [sameHome]
      rcases List.mem_cons.mp member with rfl | later
      · exact ⟨leads.atHome builtSource, rfl⟩
      · exact rest.seenBy sameHome visit later
    obtain ⟨sameBinding, cycle⟩ := walk.dependencyCycle built again seen
    refine ⟨?_, cycle⟩
    cases last with
    | mk lastKey lastNode =>
        cases first with
        | mk firstKey firstNode =>
            cases lastNode
            cases firstNode
            cases sameHome
            cases sameBinding
            rfl

/-- A request that ends with a cycle has met a key again on its way along the dependency graph,
and if it met it in the same scope, services depend on themselves. -/
theorem resolve_cycle {activity : Activity U} (reachable : activity.Reachable) {id : RequestId}
    {demand : Demand U} {error : Error} {chain : List Key} (resolves : demand.Resolves)
    (began : activity.moment.Did id (.started demand))
    (ended : activity.moment.Did id (.finished (.error error)))
    (isCycle : error.root = .cycle chain) :
    ∃ scope key, demand.Asks scope key ∧
      ∃ before between first last, ReportedCycle scope key chain before between first last := by
  have kept : Conduct.Kept (Conduct.orderly.and (Conduct.growing.and Conduct.detecting))
      (Conduct.growing.and (Conduct.detecting (U := U))) :=
    kept_growing.and (kept_detecting fun _ _ allowed => allowed.2.2)
  have lawful := reachable.lawful kept
  have orderly := lawful.mono fun _ _ all => all.1
  have growing := lawful.mono fun _ _ all => And.intro all.1 all.2.1
  obtain ⟨before, _, suffix, allowed⟩ := lawful.allowed ended
  obtain ⟨demand', began', detected⟩ := allowed.2.2
  obtain rfl := orderly.started_once began (suffix.mem began')
  rcases detected resolves with acyclic | ⟨scope, key, asks, meets⟩
  · exact absurd isCycle (acyclic chain)
  · have built := ((orderly.named began asks.mem_scopes).grown growing).built
    exact ⟨scope, key, asks, meets.reported isCycle built⟩

/-! ## An override -/

namespace Override

/-- The key that the child registers again. -/
def overridden : Key := .of (.concrete "sample" "A")

/-- The key of the parent's singleton between the two. -/
def between : Key := .of (.concrete "sample" "B")

/-- A service without parameters, and one that depends on it. -/
def parentRegistrations : List (Registration Client.obliging) :=
  [.service (.factory overridden.type () []),
    .service (.factory between.type () [.service overridden])]

/-- The first service again, now depending on the second. -/
def childRegistrations : List (Registration Client.obliging) :=
  [.service (.factory overridden.type () [.service between])]

/-- The parent scope. -/
def parent : Scope Client.obliging :=
  ((Builder.root ⟨1⟩).addAll parentRegistrations).scope

/-- The child scope. -/
def child : Scope Client.obliging :=
  ((Builder.child ⟨2⟩ parent).addAll childRegistrations).scope

/-- What the child's own registration is told. -/
def error : Error :=
  .dependency overridden between
    (.dependency between overridden (.cycle [overridden, between, overridden]))

/-- The world before anything is built. -/
def start : World Client.obliging Unit :=
  { state := {}, memory := () }

/-- The world after the parent is built. -/
def withParent : World Client.obliging Unit :=
  (Demand.build none parentRegistrations).afterwards Behaviour.obliging start

/-- The world after the child is built. -/
def withChild : World Client.obliging Unit :=
  (Demand.build (some parent) childRegistrations).afterwards Behaviour.obliging withParent

/-- Two scopes were built, and the key was asked for in the upper one and the lower one. -/
theorem served : ∃ activity : Activity Client.obliging, Activity.Served Behaviour.obliging
    [(.build none parentRegistrations, .ok (.built parent)),
      (.build (some parent) childRegistrations, .ok (.built child)),
      (.resolve child ⟨0⟩ overridden, .error error)]
    ((Demand.resolve child ⟨0⟩ overridden).afterwards Behaviour.obliging withChild) activity := by
  have buildsParent : (Demand.build none parentRegistrations).request.run.run Behaviour.obliging
      start = some (.ok (.built parent), withParent) := rfl
  have buildsChild : (Demand.build (some parent) childRegistrations).request.run.run
      Behaviour.obliging withParent = some (.ok (.built child), withChild) := rfl
  have resolves : (Demand.resolve child ⟨0⟩ overridden).request.run.run Behaviour.obliging
      withChild = some (.error error,
        (Demand.resolve child ⟨0⟩ overridden).afterwards Behaviour.obliging withChild) := rfl
  have detached := Behaviour.obliging_detached
  obtain ⟨_, first, _⟩ := (Activity.Served.initial ()).next detached buildsParent nofun
  obtain ⟨_, second, _⟩ := first.nextOn detached buildsChild rfl List.mem_cons_self
  obtain ⟨activity, third, _⟩ :=
    second.nextOn detached resolves rfl (List.mem_cons_of_mem _ List.mem_cons_self)
  exact ⟨activity, third⟩

/-- A binding of the sample. -/
def bound (type : ServiceType) (owner : ScopeId) (index : Nat) (params : List Param) :
    Binding Client.obliging :=
  { recipe := (Offer.factory type () params).recipe (.registration owner index)
    registered := .of type
    owner
    cast := none }

/-- The child's service. -/
def own : Node Client.obliging :=
  ⟨child, bound overridden.type ⟨2⟩ 0 [.service between]⟩

/-- The parent's singleton. -/
def shared : Node Client.obliging :=
  ⟨parent, bound between.type ⟨1⟩ 1 [.service overridden]⟩

/-- The parent's service under the key. -/
def inherited : Node Client.obliging :=
  ⟨parent, bound overridden.type ⟨1⟩ 0 []⟩

/-- In the child the dependencies lead nowhere back. -/
theorem not_dependencyCycle : ¬ DependencyCycle child overridden := by
  have leadsOwn : child.Leads overridden own := ⟨rfl, rfl⟩
  have leadsShared : child.Leads between shared := ⟨rfl, rfl⟩
  have leadsInherited : parent.Leads overridden inherited := ⟨rfl, rfl⟩
  refine Provision.not_dependencyCycle leadsOwn (.intro _ fun next edge => ?_)
  obtain rfl := Node.Edge.eq_of_single edge rfl rfl leadsShared
  refine .intro _ fun next edge => ?_
  obtain rfl := Node.Edge.eq_of_single edge rfl rfl leadsInherited
  exact .intro _ fun next edge => absurd edge (Node.not_edge_of_nil rfl rfl)

end Override

/-- The chain that the child is told names the key twice, on a walk that ends in the parent. -/
theorem overridden_key_reported :
    ∃ activity : Activity Client.obliging, activity.Reachable ∧
      activity.moment.Did ⟨2⟩
        (.started (.resolve Override.child ⟨0⟩ Override.overridden)) ∧
      activity.moment.Did ⟨2⟩ (.finished (.error Override.error)) ∧
      Override.error.root = .cycle [Override.overridden, Override.between, Override.overridden] ∧
      ∃ scope key, (Demand.resolve Override.child ⟨0⟩ Override.overridden).Asks scope key ∧
        ∃ before between first last, ReportedCycle scope key
          [Override.overridden, Override.between, Override.overridden] before between first last := by
  obtain ⟨activity, served⟩ := Override.served
  obtain ⟨began, ended⟩ := served.did 2 rfl
  exact ⟨activity, served.reachable, began, ended, rfl,
    resolve_cycle served.reachable trivial began ended rfl⟩

/-- A child that registers a key again, for a service that depends on a singleton of its parent,
which in turn depends on the parent's service of that key, is told of a cycle although nothing
depends on itself. -/
theorem overridden_key_no_cycle :
    ∃ activity : Activity Client.obliging, activity.Reachable ∧
      ∃ id scope context key error chain,
        activity.moment.Did id (.started (.resolve scope context key)) ∧
          activity.moment.Did id (.finished (.error error)) ∧ error.root = .cycle chain ∧
            ¬ DependencyCycle scope key := by
  obtain ⟨activity, served⟩ := Override.served
  obtain ⟨began, ended⟩ := served.did 2 rfl
  exact ⟨activity, served.reachable, ⟨2⟩, Override.child, ⟨0⟩, Override.overridden,
    Override.error, _, began, ended, rfl, Override.not_dependencyCycle⟩

end Provision
