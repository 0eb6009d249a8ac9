import Provision.Proofs.Resolution.KeyTrails
import Provision.Proofs.Resolution.DependencyGraph
import Provision.Proofs.Instances.ValueResidence
import Provision.Proofs.Resolution.RequestsTerminate

/-!
# Resolution ends

A request for a key is nested no deeper than there are bound keys, and one more, whatever is kept,
so it ends if functions end.

A scope keeps a value only once everything that the value needs was resolved, so all ways along its
dependencies end.  This holds for every cell if it holds at first, and so no request returns a
value if its dependencies lead back to themselves: the request fails, and where nothing else can go
wrong it fails because a key is met again.  From a tree that was just built it is told so.

Main statements: `Scope.Supplied.founded_or_cycle` and `resolution_ends`.
-/

namespace Provision

open Moment Request

variable {U : Client} {σ α : Type}

/-- All ways along the dependencies of a key of a scope end. -/
def Scope.Founded (scope : Scope U) (key : Key) : Prop :=
  ∀ node, scope.Leads key node → Acc (fun next node => Node.Edge node next) node

section Founded

variable {scope home : Scope U} {key : Key} {binding : Binding U}

/-- No key with all ways ending is on a cycle. -/
theorem Scope.Founded.not_cycle (founded : scope.Founded key) : ¬ DependencyCycle scope key := by
  intro cycle
  obtain ⟨start, node, leads, path, back⟩ := cycle
  exact not_dependencyCycle leads (founded start leads) ⟨start, node, leads, path, back⟩

/-- All ways from a key end if those from its needs do. -/
theorem Scope.Finds.founded (finds : scope.Finds key binding home)
    (needs : ∀ needed, binding.Needs home needed → home.Founded needed) : scope.Founded key := by
  intro node leads
  obtain rfl := leads.unique finds.leads
  constructor
  intro next edge
  obtain ⟨needed, isNeeded, leadsNext⟩ := edge
  exact needs needed isNeeded.2 next leadsNext

/-- All ways from a fixed value end at once. -/
theorem Scope.founded_of_value (bound : scope.registry.find? key = some binding)
    (isValue : binding.IsValue) : scope.Founded key := by
  intro node leads
  obtain rfl := Option.some.inj (bound.symm.trans leads.bound)
  constructor
  intro next edge
  obtain ⟨needed, isNeeded, _⟩ := edge
  exact absurd isValue isNeeded.1

end Founded

/-! ## Cells -/

/-- Whatever is kept in a cell of a scope was made of what is founded: an instance of the
parameters of its constructor, and a value of those of its decorators too. -/
def Scope.Rests (scope : Scope U) (cell : CacheKey) : Prop :=
  ∀ key binding, scope.registry.find? key = some binding →
    binding.recipe.lifetime.isKept = true →
      (cell = .made binding.recipe.id → ∀ needed, .service needed ∈ binding.recipe.params →
        scope.Founded needed) ∧
      (cell = .shown binding.recipe.id binding.registered → ∀ needed, binding.Needs scope needed →
        scope.Founded needed)

/-- All that the scopes from one to the root keep was made of what is founded. -/
def World.Rooted (world : World U σ) (base : Scope U) : Prop :=
  ∀ {above : Scope U}, above.Above base → ∀ {cell outcome},
    world.state.cell? above.id cell = some (.filled outcome) → above.Rests cell

/-- Cells are rooted in worlds that are alike. -/
theorem World.Rooted.alike {world last : World U σ} {base : Scope U} (rooted : world.Rooted base)
    (alike : world.Alike last) : last.Rooted base := by
  intro above isAbove cell outcome filled
  rw [alike.cells] at filled
  exact rooted isAbove filled

section Cells

variable {base home lower : Scope U} {key : Key} {binding : Binding U} {inputs : Inputs U}
  {behaviour : Behaviour U σ} {world last : World U σ} {context : ContextId}

/-- What a value needs is founded if its inputs are, and the instance that is kept already. -/
theorem World.Rooted.needs (rooted : world.Rooted base) (isAbove : home.Above base)
    (bound : home.registry.find? key = some binding)
    (suit : inputs.Suit (fun needed _ => home.Founded needed) binding home
      (∃ outcome, world.state.cell? home.id (.made binding.recipe.id) = some (.filled outcome)))
    {needed : Key} (needs : binding.Needs home needed) : home.Founded needed := by
  rcases needs with parameter | ⟨decorator, applies, decorates⟩
  · rcases suit.arguments with ⟨kept, outcome, filled⟩ | fits
    · exact (rooted isAbove filled key binding bound kept).1 rfl needed parameter
    · exact Fits.known fits parameter
  · rw [← suit.decorators] at applies
    obtain ⟨stage, member, rfl⟩ := List.mem_map.mp applies
    exact Fits.known (suit.stages stage member) decorates

/-- The cells of a binding are for all bindings of one recipe, which need the same. -/
theorem Scope.Built.rests (built : home.Built) (bound : home.registry.find? key = some binding)
    (needs : ∀ needed, binding.Needs home needed → home.Founded needed) {cell : CacheKey}
    (isCell : binding.HasCell cell) : home.Rests cell := by
  obtain ⟨kept, isMade | isShown⟩ := isCell
  · intro other found bound' _
    refine ⟨fun isMade' needed member => ?_, fun isShown' => ?_⟩
    · have same := (built.sound.agree bound bound' ?_ kept).1
      · exact needs needed (.inl (same ▸ member))
      · rw [isMade] at isMade'
        exact CacheKey.made.inj isMade'
    · rw [isMade] at isShown'
      cases isShown'
  · intro other found bound' _
    refine ⟨fun isMade' => ?_, fun isShown' needed isNeeded => ?_⟩
    · rw [isShown] at isMade'
      cases isMade'
    · rw [isShown] at isShown'
      obtain ⟨sameId, sameKey⟩ := CacheKey.shown.inj isShown'
      have same := (built.sound.agree bound bound' sameId kept).1
      apply needs needed
      unfold Binding.Needs at isNeeded ⊢
      rwa [same, sameKey]

/-- A program that enters only cells of a binding leaves all others as they are. -/
theorem Program.Only.cell?_run {program : Program U α} {yields : α → Prop} {held : Held}
    {result : α} (only : program.Only (Event.Dwells home.id binding) yields)
    (terminates : program.Terminates held)
    (owns : ∀ scope cell, held = some (scope, cell) → scope = home.id ∧ binding.HasCell cell)
    (detached : behaviour.Detached)
    (runs : program.run behaviour world = some (result, last)) (scope : ScopeId)
    (cell : CacheKey) :
    last.state.cell? scope cell = world.state.cell? scope cell ∨
      (scope = home.id ∧ binding.HasCell cell) := by
  induction program generalizing held world with
  | done value =>
      cases runs
      exact .inl rfl
  | perform operation next ih =>
      obtain ⟨answer, state, performs, runs⟩ := run_perform_eq_some.mp runs
      obtain ⟨inTurn, ends⟩ := terminates
      obtain ⟨dwells, rest⟩ := only answer
      have changes : (Event.performed operation answer).Changes world.state state := performs
      have owns' : ∀ scope cell, operation.holding held answer = some (scope, cell) →
          scope = home.id ∧ binding.HasCell cell := by
        intro scope cell holds
        cases operation with
        | enter other wanted =>
            cases answer with
            | none =>
                cases holds
                exact dwells
            | some outcome => exact owns scope cell holds
        | settle other wanted outcome => cases holds
        | _ => exact owns scope cell holds
      rcases ih answer rest (ends answer) owns' runs with same | isCell
      · rcases changes.cell? scope cell with
          ⟨enters, _⟩ | ⟨outcome, settles, _⟩ | ⟨unchanged, _⟩
        · cases enters
          exact .inr dwells
        · cases settles
          exact .inr (owns scope cell inTurn)
        · exact .inl (same.trans unchanged)
      · exact .inr isCell
  | ask call next ih =>
      obtain ⟨answer, after, answers, runs⟩ := run_ask_eq_some.mp runs
      obtain ⟨contexts, same⟩ := detached call world answer after answers
      have unchanged : after.state.cell? scope cell = world.state.cell? scope cell := by
        rw [same]
        rfl
      rw [← unchanged]
      exact ih answer (only.2 answer).2 (terminates answer) owns runs
  | never => cases runs

/-- What is kept once a value was made was made of what is founded. -/
theorem World.Rooted.produced (rooted : world.Rooted base) (built : base.Built)
    (detached : behaviour.Detached) (isAbove : home.Above base)
    (bound : home.registry.find? key = some binding)
    (needs : ∀ needed, binding.Needs home needed → home.Founded needed) {value : Value U}
    (runs : (produceFrom home context key binding inputs).alone behaviour world =
      some (.ok value, last)) : last.Rooted base := by
  intro above isAbove' cell outcome filled
  have changed := Program.Only.cell?_run (only_produceFrom_dwells home context key binding inputs)
    (terminates_produceFrom home context key binding inputs) (fun _ _ => nofun) detached runs
    above.id cell
  rcases changed with same | ⟨sameId, isCell⟩
  · rw [same] at filled
    exact rooted isAbove' filled
  · obtain rfl := isAbove'.eq_of_id isAbove built.sound.distinct sameId
    exact (built.above isAbove').rests bound needs isCell

end Cells

/-! ## Requests -/

section Requests

variable {base : Scope U} {key : Key} {behaviour : Behaviour U σ} {context : ContextId}
  {world : World U σ}

/-- Along a request all that is resolved is founded, and the only error is that a key is met
again. -/
def Scope.Supplied.course (supplied : base.Supplied key) (built : base.Built)
    (detached : behaviour.Detached) (context : ContextId) : Course behaviour base context where
  holds := fun world => world.Rooted base
  among := fun lower wanted _ => base.Requests key lower wanted
  known := Scope.Founded
  failed := fun error => ∃ chain, error.root = .cycle chain
  alike := fun rooted alike => rooted.alike alike
  wraps := fun failed => failed
  above := fun requests => requests.above
  supplied := fun requests => supplied.finds built requests
  cycle := fun _ _ => ⟨_, rfl⟩
  needs := fun requests finds _ needs => requests.step finds needs
  value := fun _ bound isValue => Scope.founded_of_value bound isValue
  recalled := by
    intro world lower wanted active binding home outcome requests finds kept rooted filled
    have bound := (finds.leads.atHome (built.above requests.above)).bound
    apply finds.founded
    exact (rooted (finds.leads.above.trans requests.above) filled wanted binding bound kept).2 rfl
  produced := by
    intro world last lower wanted active binding home inputs value requests finds suit rooted runs
    have bound := (finds.leads.atHome (built.above requests.above)).bound
    have isAbove := finds.leads.above.trans requests.above
    have needs : ∀ needed, binding.Needs home needed → home.Founded needed :=
      fun needed => rooted.needs isAbove bound suit
    exact ⟨rooted.produced built detached isAbove bound needs runs, finds.founded needs⟩

/-- Alone, with functions that succeed, a request returns a value if all ways along the
dependencies of its key end, and otherwise fails as a key is met again. -/
theorem Scope.Supplied.founded_or_cycle (supplied : base.Supplied key) (built : base.Built)
    (grants : behaviour.Grants) (calm : world.Calm base context) (rooted : world.Rooted base) :
    ∃ outcome last, (resolve base context key).alone behaviour world = some (outcome, last) ∧
      ((∃ value, outcome = .ok value ∧ base.Founded key) ∨
        ∃ error chain, outcome = .error error ∧ error.root = .cycle chain) := by
  let course := supplied.course built grants.detached context
  have among : course.among base key [] := .here
  obtain ⟨outcome, last, runs, reached⟩ := Course.resolve built grants among ⟨calm, rooted⟩
  refine ⟨outcome, last, runs, ?_⟩
  cases outcome with
  | ok value => exact .inl ⟨value, rfl, reached.2.2.2⟩
  | error error =>
      obtain ⟨chain, isCycle⟩ := reached
      exact .inr ⟨error, chain, rfl, isCycle⟩

end Requests

/-! ## Trees that were just built -/

/-- A tree that was just built: a context is usable, and the scopes from one to the root are open
and keep nothing yet. -/
structure World.Fresh {σ : Type} (world : World U σ) (base : Scope U) (context : ContextId) :
    Prop where
  usable : world.state.contexts.error? context = none
  opened : ∀ scope ∈ base.lineage, (world.state.scope scope).closed = false
  empty : ∀ scope ∈ base.lineage, ∀ cell, world.state.cell? scope cell = none

section Fresh

variable {world : World U σ} {base : Scope U} {context : ContextId}

/-- A tree that was just built is calm. -/
theorem World.Fresh.calm (fresh : world.Fresh base context) : world.Calm base context where
  usable := fresh.usable
  opened := fresh.opened
  cells := fun isAbove cell => .inl (fresh.empty _ isAbove.id_mem cell)

/-- Nothing is kept in a tree that was just built, so all of its cells are rooted. -/
theorem World.Fresh.rooted (fresh : world.Fresh base context) : world.Rooted base := by
  intro above isAbove cell outcome filled
  rw [fresh.empty _ isAbove.id_mem cell] at filled
  cases filled

end Fresh

/-- How requests for a key of a scope end. -/
structure Scope.ResolutionEnds (scope : Scope U) (context : ContextId) (key : Key) : Prop where
  /-- Requests are nested no deeper than one more than there are bound keys: it does not matter
  how a request below would be answered, as there is none. -/
  nested : ∀ deeper : Resolver U,
    Resolver.resolve^[scope.registry.bound + 1] deeper scope context key [] =
      resolve scope context key
  /-- Whatever operations and functions answer, the request ends after finitely many of them, and
  it settles each cell that it enters before it enters another. -/
  finite : (resolve scope context key).Terminates
  /-- Alone, with functions that return and use no containers themselves, it returns whatever is
  kept, as long as nobody else is filling a cell. -/
  returns : ∀ {σ : Type} {behaviour : Behaviour U σ} {world : World U σ},
    behaviour.Returns → behaviour.Detached →
      (∀ scope cell, world.state.cell? scope cell ≠ some .filling) →
        ∃ outcome last, (resolve scope context key).alone behaviour world = some (outcome, last)
  /-- From a tree that was just built, if functions succeed, all that is asked for on the way is
  registered, and nothing that is kept for each scope is asked for in the scope that registered
  it, dependencies that go round in a circle are reported as the cause of the error. -/
  reported : ∀ {σ : Type} {behaviour : Behaviour U σ} {world : World U σ},
    behaviour.Grants → world.Fresh scope context → scope.Supplied key →
      DependencyCycle scope key → ∃ error last chain,
        (resolve scope context key).alone behaviour world = some (.error error, last) ∧
          error.root = .cycle chain

/-- Resolving a key ends, nested no deeper than one more than there are bound keys, and reports the
circles that dependencies go in. -/
theorem resolution_ends {scope : Scope U} (built : scope.Built) (context : ContextId) (key : Key) :
    scope.ResolutionEnds context key where
  nested := built.nested_eq context key
  finite := built.resolve_terminates context key
  returns := by
    intro σ behaviour world returns detached quiet
    have owns : ∀ {scope cell}, world.state.cell? scope cell = some .filling →
        (none : Held) = some (scope, cell) := fun filling => absurd filling (quiet _ _)
    obtain ⟨outcome, last, runs, _⟩ :=
      (built.resolve_terminates context key).returns returns detached owns
    exact ⟨outcome, last, runs⟩
  reported := by
    intro σ behaviour world grants fresh supplied cycle
    obtain ⟨outcome, last, runs, ⟨value, _, founded⟩ | ⟨error, chain, rfl, isCycle⟩⟩ :=
      supplied.founded_or_cycle built grants fresh.calm fresh.rooted
    · exact absurd cycle founded.not_cycle
    · exact ⟨error, last, chain, runs, isCycle⟩

/-! ## A list of itself -/

namespace SelfList

/-- The key of a service that needs all services of its own type. -/
def member : Key := .of (.concrete "sample" "A")

/-- The key of the list of these services. -/
def all : Key := .of (.list member.type)

/-- The key of the service as the first item of the list. -/
def item : Key := .item member.type 0

/-- The only registration. -/
def registrations : List (Registration Client.obliging) :=
  [.service (.factory member.type () [.service all])]

/-- The scope. -/
def scope : Scope Client.obliging :=
  ((Builder.root ⟨1⟩).addAll registrations).scope

/-- The world after the scope is built. -/
def world : World Client.obliging Unit :=
  (Demand.build none registrations).afterwards Behaviour.obliging { state := {}, memory := () }

/-- The binding of the service, under its own key and as an item. -/
def boundMember : Binding Client.obliging where
  recipe := (Offer.factory member.type () [.service all]).recipe (.registration ⟨1⟩ 0)
  registered := member
  owner := ⟨1⟩
  cast := none

/-- The binding of the list. -/
def boundAll : Binding Client.obliging where
  recipe := .ofItems member.type [.service item]
  registered := all
  owner := ⟨1⟩
  cast := none

/-- The scope is built as a root. -/
theorem built : scope.Built := .root ⟨1⟩ registrations

/-- Nothing was asked of it yet. -/
theorem fresh : world.Fresh scope ⟨0⟩ where
  usable := rfl
  opened := by
    intro id named
    rw [List.mem_singleton.mp named]
    rfl
  empty := by
    intro id named cell
    rw [List.mem_singleton.mp named]
    rfl

/-- The member leads to itself. -/
theorem leads_member : scope.Leads member ⟨scope, boundMember⟩ := ⟨rfl, rfl⟩

/-- The item of the list leads to the member. -/
theorem leads_item : scope.Leads item ⟨scope, boundMember⟩ := ⟨rfl, rfl⟩

/-- The list leads to its own binding. -/
theorem leads_all : scope.Leads all ⟨scope, boundAll⟩ := ⟨rfl, rfl⟩

/-- The member needs the list. -/
theorem needs_all : Node.Needs ⟨scope, boundMember⟩ all :=
  ⟨nofun, .inl List.mem_cons_self⟩

/-- The list needs its item. -/
theorem needs_item : Node.Needs ⟨scope, boundAll⟩ item :=
  ⟨nofun, .inl List.mem_cons_self⟩

/-- The service depends on the list, and the list on the service as its item. -/
theorem cycle : DependencyCycle scope member := by
  have toAll : Node.Edge ⟨scope, boundMember⟩ ⟨scope, boundAll⟩ := ⟨all, needs_all, leads_all⟩
  have back : Node.Edge ⟨scope, boundAll⟩ ⟨scope, boundMember⟩ := ⟨item, needs_item, leads_item⟩
  exact ⟨_, _, leads_member, .refl, .tail (.single toAll) back⟩

/-- From the member and the list nothing else is needed but these. -/
theorem eq_of_needs {node : Node Client.obliging} {needed : Key}
    (isNode : node = ⟨scope, boundMember⟩ ∨ node = ⟨scope, boundAll⟩)
    (needs : node.binding.Needs node.home needed) : needed = all ∨ needed = item := by
  rcases isNode with rfl | rfl
  · rcases needs with parameter | ⟨decorator, applies, _⟩
    · exact .inl (Param.service.inj (List.mem_singleton.mp parameter))
    · cases applies
  · rcases needs with parameter | ⟨decorator, applies, _⟩
    · exact .inr (Param.service.inj (List.mem_singleton.mp parameter))
    · cases applies

/-- All that is asked for leads to one of the two. -/
theorem leads_of_requests {lower : Scope Client.obliging} {wanted : Key}
    (requests : scope.Requests member lower wanted) :
    lower = scope ∧ ∃ node, scope.Leads wanted node ∧
      (node = ⟨scope, boundMember⟩ ∨ node = ⟨scope, boundAll⟩) := by
  induction requests with
  | here => exact ⟨rfl, _, leads_member, .inl rfl⟩
  | step _ finds needs ih =>
      obtain ⟨rfl, node, leads, isNode⟩ := ih
      obtain rfl := finds.leads.unique leads
      refine ⟨?_, ?_⟩
      · rcases isNode with same | same <;> exact congrArg Node.home same
      · rcases eq_of_needs isNode needs with rfl | rfl
        · exact ⟨_, leads_all, .inr rfl⟩
        · exact ⟨_, leads_item, .inl rfl⟩

/-- Everything that the member needs is bound. -/
theorem supplied : scope.Supplied member where
  registered := by
    intro lower wanted requests
    obtain ⟨rfl, node, leads, _⟩ := leads_of_requests requests
    exact ⟨node.binding, leads.bound⟩
  below := by
    intro lower wanted binding requests bound _ perScope
    obtain ⟨rfl, node, leads, isNode⟩ := leads_of_requests requests
    obtain rfl := Option.some.inj (bound.symm.trans leads.bound)
    rcases isNode with rfl | rfl <;> cases perScope

end SelfList

/-- A service that needs the list of all services of its type, its own among them, depends on
itself through an item of the list.  Three keys are bound, so requests are nested four deep at most,
and the cycle is reported. -/
theorem list_of_itself_reported :
    SelfList.scope.Built ∧ SelfList.scope.registry.bound = 3 ∧
      (∀ deeper, Resolver.resolve^[4] deeper SelfList.scope ⟨0⟩ SelfList.member [] =
        resolve SelfList.scope ⟨0⟩ SelfList.member) ∧
      ∃ error last chain,
        (resolve SelfList.scope ⟨0⟩ SelfList.member).alone Behaviour.obliging SelfList.world =
          some (.error error, last) ∧ error.root = .cycle chain := by
  have ends := resolution_ends SelfList.built ⟨0⟩ SelfList.member
  exact ⟨SelfList.built, rfl, ends.nested,
    ends.reported Behaviour.obliging_grants SelfList.fresh SelfList.supplied SelfList.cycle⟩

end Provision
