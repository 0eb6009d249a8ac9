import Provision.Proofs.Resolution.KeyTrails
import Provision.Proofs.Meaning.ValuesAgree
import Provision.Proofs.Closing.OwedClosers
import Provision.Proofs.Instances.WaitingForCells

/-!
# Resolution computes what registrations mean

Whatever requests were made before, from whatever scopes and in whatever order they acted, once they
have ended a request for a key alone ends with what the key means: the constructor applied to what
its parameters mean, converted and decorated, as if nothing had ever been kept.

It does succeed: with all scopes from the one that it is made of to the root open, and only values
in their cells, nothing that it asks for on the way fails, as a rank of keys falls along
dependencies and so no key is met again.

Main statements: `Scope.Grounded.succeeds` and `resolve_computes_meaning`.
-/

namespace Provision

open Moment

variable {U : Client} {σ α : Type}

/-! ## Requests for grounded keys succeed -/

namespace Scope.Grounded

variable {behaviour : Behaviour U σ} {base : Scope U} {key : Key} {rank : Key → Nat}

/-- Along a request for a grounded key nothing is met again, so nothing fails. -/
def course (grounded : base.Grounded key rank) (built : base.Built) (behaviour : Behaviour U σ)
    (context : ContextId) : Course behaviour base context where
  holds := fun _ => True
  among := fun lower wanted active =>
    base.Requests key lower wanted ∧ ∀ other ∈ active, rank wanted < rank other
  known := fun _ _ => True
  failed := fun _ => False
  alike := fun _ _ => trivial
  wraps := fun failed => failed
  above := fun among => among.1.above
  supplied := fun among => grounded.supplied.finds built among.1
  cycle := fun among met => Nat.lt_irrefl _ (among.2 _ met)
  needs := by
    intro lower wanted active binding home needed among finds _ needs
    have falls := grounded.falls among.1 finds needs
    refine ⟨among.1.step finds needs, fun other member => ?_⟩
    rcases List.mem_append.mp member with before | last
    · exact Nat.lt_trans falls (among.2 other before)
    · rwa [List.mem_singleton.mp last]
  value := fun _ _ _ => trivial
  recalled := fun _ _ _ _ _ => trivial
  produced := fun _ _ _ _ _ => ⟨trivial, trivial⟩

/-- A request for a grounded key succeeds. -/
theorem succeeds {functions : Functions U} {context : ContextId} {world : World U σ}
    (built : base.Built) (computes : behaviour.Computes functions)
    (grounded : base.Grounded key rank) (calm : world.Calm base context) :
    (resolve base context key).Succeeds behaviour world fun value last =>
      value.type = key.type ∧ world.Onward base context last := by
  let course := grounded.course built behaviour context
  have among : course.among base key [] := ⟨.here, fun _ member => absurd member List.not_mem_nil⟩
  obtain ⟨outcome, last, runs, reached⟩ :=
    Course.resolve built computes.grants among ⟨calm, trivial⟩
  cases outcome with
  | ok value => exact ⟨value, last, runs, reached.2.2.1, reached.1⟩
  | error error => exact reached.elim

end Scope.Grounded

/-! ## What a program does alone -/

/-- What a program may do when it runs alone: contexts stay as they are, and functions of the client
do what is said of them. -/
def Event.GivenBy (functions : Functions U) (contexts : Contexts) : Event U → Prop
  | .performed (.contextError context) reason => reason = contexts.error? context
  | .performed _ _ => True
  | .called _ => True
  | .returned call answer => functions.Answers call answer
  | .started _ => False
  | .finished _ => False

/-- What a program does alone is given by the functions of the client. -/
theorem Program.givenBy_of_mem_trace {behaviour : Behaviour U σ} {functions : Functions U}
    (computes : behaviour.Computes functions) {program : Program U α} {world : World U σ}
    {event : Event U} (member : event ∈ program.trace behaviour world) :
    event.GivenBy functions world.state.contexts := by
  induction program generalizing world with
  | done result => exact absurd member List.not_mem_nil
  | never => exact absurd member List.not_mem_nil
  | perform operation next ih =>
      simp only [trace] at member
      split at member
      · next answer state performs =>
        rcases List.mem_append.mp member with later | now
        · rw [← Operation.contexts_perform performs]
          exact ih answer later
        · rw [List.mem_singleton.mp now]
          cases operation with
          | contextError context => cases performs; rfl
          | _ => trivial
      · exact absurd member List.not_mem_nil
  | ask call next ih =>
      obtain ⟨answer, memory, answers, fair⟩ := computes call world
      let after : World U σ := { world with memory }
      rw [trace_ask answers] at member
      rcases List.mem_append.mp member with later | now
      · have given : event.GivenBy functions after.state.contexts := ih answer later
        exact given
      · rcases List.mem_cons.mp now with rfl | calls
        · exact fair
        · rw [List.mem_singleton.mp calls]
          trivial

section Moments

variable {functions : Functions U} {moment : Moment U}

/-- No request found a context done. -/
def Moment.AlwaysUsable (moment : Moment U) : Prop :=
  ∀ id context reason, ¬ moment.Did id (.performed (.contextError context) (some reason))

/-- The conduct of requests as far as the meaning of keys is concerned. -/
abbrev Conduct.meaningful (functions : Functions U) : Conduct U :=
  (Conduct.growing.and (Conduct.keeping.and (Conduct.agreeing functions))).and Conduct.tidying

/-- Requests settle and show what is meant, as long as functions are honest. -/
theorem kept_meaningful (functions : Functions U) :
    Conduct.Kept (Conduct.orderly.and (Conduct.meaningful functions))
      (Conduct.meaningful functions) :=
  (kept_growing.and ((kept_keeping fun _ _ all => ⟨all.1, all.2.1.1, all.2.1.2.1⟩).and
    (kept_agreeing fun _ _ all => ⟨all.1, all.2.1⟩))).and kept_tidying

/-- When all requests have ended, a scope that was never closed keeps only values, of the types
they should have. -/
theorem Moment.Lawful.settled_cell
    (lawful : moment.Lawful (Conduct.orderly.and (Conduct.meaningful functions)))
    (honest : moment.Honest functions) (quiet : moment.Quiet) (usable : moment.AlwaysUsable)
    {scope : Scope U} (isScope : moment.IsScope scope)
    (opened : (moment.state.scope scope.id).closed = false) (cell : CacheKey) :
    moment.state.cell? scope.id cell = none ∨ ∃ value,
      moment.state.cell? scope.id cell = some (.filled (.ok value)) ∧ scope.Admits value cell := by
  have agreeing := lawful.mono (fun _ _ all => ⟨all.1, all.2.1⟩ : ∀ moment entry, _ →
    (Conduct.orderly.and (Conduct.growing.and (Conduct.keeping.and
      (Conduct.agreeing functions)))) moment entry)
  have settles : ∀ (moment : Moment U) entry, (Conduct.orderly.and
      (Conduct.meaningful functions)) moment entry → Conduct.settling moment entry :=
    fun _ _ all => Conduct.settling_of_keeping all.2.1.2.1
  cases found : moment.state.cell? scope.id cell with
  | none => exact .inl rfl
  | some content =>
      cases content with
      | filling =>
          exact absurd found (lawful.cell?_ne_filling settles (fun _ _ all => all.1)
            (fun _ _ all => all.2.2) quiet scope.id cell)
      | filled outcome =>
          have settled := (lawful.cellSound settles scope.id cell).filled found
          cases outcome with
          | error error =>
              obtain ⟨id, ⟨closer, did⟩ | ⟨context, reason, did⟩⟩ :=
                agreeing.left (fun _ _ all => all) settled honest
              · obtain ⟨other, closers, shut⟩ := lawful.refused did
                rw [((lawful.closed scope.id).2 other closers shut).1] at opened
                cases opened
              · exact absurd did (usable id context reason)
          | ok value =>
              refine .inr ⟨value, rfl, ?_⟩
              have vouched := agreeing.vouched (fun _ _ all => all.2.2.1) settled
              cases cell with
              | shown recipe key => exact vouched.1
              | made id =>
                  obtain ⟨recipe, home, same, kept, houses, type, _⟩ := vouched
                  intro key binding bound isRecipe kept'
                  have grow := agreeing.grow (within_keeping fun _ _ all => all)
                  have built := (isScope.grown grow).built
                  have here : moment.Houses ⟨scope.id, binding.recipe⟩ scope :=
                    ⟨isScope, rfl, key, binding, bound, rfl⟩
                  have recipes := (here.unique grow houses rfl (isRecipe.trans same.symm) kept').2
                  exact type.trans (congrArg Recipe.produces recipes).symm

/-- When all requests have ended, a scope is calm as long as it and the scopes above are open. -/
theorem Moment.Lawful.calm {world : World U σ} {context : ContextId}
    (lawful : moment.Lawful (Conduct.orderly.and (Conduct.meaningful functions)))
    (honest : moment.Honest functions) (quiet : moment.Quiet) (alwaysUsable : moment.AlwaysUsable)
    {scope : Scope U} (isScope : moment.IsScope scope) (state : moment.state = world.state)
    (usable : world.state.contexts.error? context = none)
    (opened : ∀ id ∈ scope.lineage, (world.state.scope id).closed = false) :
    world.Calm scope context where
  usable := usable
  opened := opened
  cells := by
    intro above isAbove cell
    have growing := lawful.grow fun _ _ all => ⟨all.1, all.2.1.1, all.2.1.2.1⟩
    have distinct := (isScope.grown growing).built.sound.distinct
    have known := isScope.ancestor growing (isAbove.ancestor?_eq distinct)
    have isOpen := opened _ isAbove.id_mem
    rw [← state] at isOpen ⊢
    exact lawful.settled_cell honest quiet alwaysUsable known isOpen cell

section Served

variable {behaviour : Behaviour U σ} {next : Moment U} {demand : Demand U}
  {reply : Except Error (Reply U)} {world : World U σ} {id : RequestId}
  (computes : behaviour.Computes functions)
  (history : next.history =
    (demand.trace behaviour reply world).map (Entry.mk id) ++ moment.history)

include computes history

/-- What was done once a request ran alone. -/
theorem Moment.did_of_served {other : RequestId} {event : Event U} (did : next.Did other event) :
    moment.Did other event ∨ event.GivenBy functions world.state.contexts ∨
      event = .finished reply ∨ event = .started demand := by
  unfold Moment.Did at did
  rw [history] at did
  rcases List.mem_append.mp did with now | before
  · obtain ⟨_, traced, same⟩ := List.mem_map.mp now
    cases same
    rcases List.mem_cons.mp traced with ends | traced
    · exact .inr (.inr (.inl ends))
    · rcases List.mem_append.mp traced with runs | begins
      · exact .inr (.inl (Program.givenBy_of_mem_trace computes runs))
      · exact .inr (.inr (.inr (List.mem_singleton.mp begins)))
  · exact .inl before

/-- Functions that did what is said of them do so in a request that runs alone, too. -/
theorem Moment.Honest.served (honest : moment.Honest functions)
    (described : ∀ parent registrations, demand = .build parent registrations →
      ∀ registration ∈ registrations, registration.Described) :
    next.Honest functions := by
  constructor
  · intro other parent registrations began
    rcases did_of_served computes history began with before | impossible | impossible | now
    · exact honest.registers other parent registrations before
    · exact impossible.elim
    · cases impossible
    · exact described parent registrations (Event.started.inj now).symm
  · intro other call answer returned
    rcases did_of_served computes history returned with before | fair | impossible | impossible
    · exact honest.answers before
    · exact fair
    · cases impossible
    · cases impossible

/-- A request that runs alone while all contexts are usable finds none done. -/
theorem Moment.AlwaysUsable.served (alwaysUsable : moment.AlwaysUsable)
    (usable : ∀ context, world.state.contexts.error? context = none) : next.AlwaysUsable := by
  intro other context reason did
  rcases did_of_served computes history did with before | given | impossible | impossible
  · exact alwaysUsable other context reason before
  · have given : some reason = world.state.contexts.error? context := given
    rw [usable] at given
    cases given
  · cases impossible
  · cases impossible

end Served

end Moments

/-- Whatever was resolved before, as long as all of it has ended, the scopes from one to the root
are open and the functions of the client do what is said of them: a request for a key of the scope
succeeds if the dependencies of the key end, and its value is what the key means. -/
theorem resolve_computes_meaning {behaviour : Behaviour U σ} {functions : Functions U}
    (computes : behaviour.Computes functions) {activity : Activity U}
    (reachable : activity.Reachable) (honest : activity.moment.Honest functions)
    (quiet : activity.moment.Quiet) (alwaysUsable : activity.moment.AlwaysUsable)
    {scope : Scope U} (isScope : activity.moment.IsScope scope) {world : World U σ}
    (state : activity.moment.state = world.state) {context : ContextId}
    (usable : world.state.contexts.error? context = none)
    (opened : ∀ id ∈ scope.lineage, (world.state.scope id).closed = false) {key : Key}
    {rank : Key → Nat} (grounded : scope.Grounded key rank) :
    ∃ value last, (resolve scope context key).alone behaviour world = some (.ok value, last) ∧
      value.type = key.type ∧
        functions.meaning (rank key + 1) scope key = some value.content := by
  have lawful := reachable.lawful (kept_meaningful functions)
  have growing := lawful.grow fun _ _ all => ⟨all.1, all.2.1.1, all.2.1.2.1⟩
  have built := (isScope.grown growing).built
  have calm := lawful.calm honest quiet alwaysUsable isScope state usable opened
  obtain ⟨value, last, runs, typed, _⟩ := grounded.succeeds built computes calm
  refine ⟨value, last, runs, typed, ?_⟩
  -- The request is made in the activity that led here, so that its value is a reply of that.
  let demand : Demand U := .resolve scope context key
  have replies : demand.request.run.run behaviour world = some (.ok (.resolved value), last) :=
    Request.alone_bind_ok runs
  have allowed : demand.Allowed activity.moment := by
    intro named member
    rw [List.mem_singleton.mp member]
    exact isScope
  obtain ⟨id, fresh⟩ := activity.moment.exists_fresh
  obtain ⟨next, reachable', _, history⟩ :=
    reachable.alone computes.detached replies fresh allowed state
  have did : ∀ event ∈ demand.trace behaviour (.ok (.resolved value)) world,
      next.moment.Did id event := by
    intro event traced
    unfold Moment.Did
    rw [history]
    exact List.mem_append_left _ (List.mem_map_of_mem traced)
  have began := did (.started demand)
    (List.mem_cons_of_mem _ (List.mem_append_right _ List.mem_cons_self))
  have ended := did (.finished (.ok (.resolved value))) List.mem_cons_self
  have honest' := honest.served computes history nofun
  have asks : demand.Asks scope key := .resolve scope context key
  exact grounded.meaning_eq built (resolved_means reachable' honest' began ended asks)

/-- Demands that each ran alone have ended. -/
theorem Activity.Served.quiet {behaviour : Behaviour U σ} {world : World U σ}
    {served : List (Demand U × Except Error (Reply U))} {activity : Activity U}
    (isServed : activity.Served behaviour served world) : activity.moment.Quiet := by
  intro id demand began
  have inside := isServed.known ⟨_, began, rfl⟩
  exact ⟨served[id.index].2, (isServed.did id.index (List.getElem?_eq_getElem inside)).2⟩

namespace Nested

/-- A constructor lists the services it is passed, and a decorator lists its target and those. -/
def functions : Functions Client.obliging where
  construct := fun _ _ services => .list (services.map Value.content)
  decorate := fun _ _ _ target services => .list (target :: services.map Value.content)
  convert := fun _ _ _ content => content

/-- A client whose functions do that. -/
def behaviour : Behaviour Client.obliging Unit := fun call world =>
  match call with
  | .construct site make arguments =>
      some (.ok (functions.construct site make (servicesOf arguments)), world)
  | .decorate site key transform target arguments =>
      some (.ok (functions.decorate site key transform target (servicesOf arguments)), world)
  | call => Behaviour.obliging call world

/-- The functions of the client answer as they should. -/
theorem computes : behaviour.Computes functions := by
  intro call world
  cases call with
  | close => exact ⟨_, (), rfl, trivial⟩
  | enact => exact ⟨_, (), rfl, trivial⟩
  | report => exact ⟨_, (), rfl, trivial⟩
  | _ => exact ⟨_, (), rfl, rfl⟩

/-- The key of a singleton of the parent. -/
def part : Key := .of (.concrete "sample" "Part")

/-- The key of a service of the child that needs two of them. -/
def whole : Key := .of (.concrete "sample" "Whole")

/-- A service without parameters. -/
def parentRegistrations : List (Registration Client.obliging) :=
  [.service (.factory part.type () [])]

/-- A service that is made anew for each request, with a decorator. -/
def childRegistrations : List (Registration Client.obliging) :=
  [.service ((Offer.factory whole.type () [.service part, .service part]).withLifetime .transient),
    .decorator { target := whole, params := [.service part], transform := () }]

/-- The parent scope. -/
def parent : Scope Client.obliging :=
  ((Builder.root ⟨1⟩).addAll parentRegistrations).scope

/-- The child scope. -/
def child : Scope Client.obliging :=
  ((Builder.child ⟨2⟩ parent).addAll childRegistrations).scope

/-- The world after the parent is built. -/
def withParent : World Client.obliging Unit :=
  (Demand.build none parentRegistrations).afterwards behaviour { state := {}, memory := () }

/-- The world after the child is built. -/
def withChild : World Client.obliging Unit :=
  (Demand.build (some parent) childRegistrations).afterwards behaviour withParent

/-- The world after the part was asked for. -/
def withPart : World Client.obliging Unit :=
  (Demand.resolve child ⟨0⟩ part).afterwards behaviour withChild

/-- The part. -/
def value : Value Client.obliging :=
  { type := part.type, content := .list [] }

/-- The child was built below the parent, and its whole was resolved. -/
theorem served : ∃ activity : Activity Client.obliging,
    activity.Served behaviour
      [(.build none parentRegistrations, .ok (.built parent)),
        (.build (some parent) childRegistrations, .ok (.built child)),
        (.resolve child ⟨0⟩ part, .ok (.resolved value))] withPart ∧
      activity.moment.Honest functions ∧ activity.moment.AlwaysUsable := by
  have buildsParent : (Demand.build none parentRegistrations).request.run.run behaviour
      { state := {}, memory := () } = some (.ok (.built parent), withParent) := rfl
  have buildsChild : (Demand.build (some parent) childRegistrations).request.run.run behaviour
      withParent = some (.ok (.built child), withChild) := rfl
  have makesPart : (Demand.resolve child ⟨0⟩ part).request.run.run behaviour withChild =
      some (.ok (.resolved value), withPart) := rfl
  have detached := computes.detached
  obtain ⟨_, first, history⟩ := (Activity.Served.initial ()).next detached buildsParent nofun
  obtain ⟨_, second, history'⟩ := first.nextOn detached buildsChild rfl List.mem_cons_self
  obtain ⟨activity, third, history''⟩ :=
    second.nextOn detached makesPart rfl (List.mem_cons_of_mem _ List.mem_cons_self)
  have honest : ({} : Moment Client.obliging).Honest functions := ⟨nofun, nofun⟩
  have alwaysUsable : ({} : Moment Client.obliging).AlwaysUsable := nofun
  refine ⟨activity, third, ?_, ?_⟩
  · refine ((honest.served computes history ?_).served computes history' ?_).served computes
      history'' nofun
    · rintro _ _ ⟨⟩ registration member
      obtain rfl := List.mem_singleton.mp member
      exact .factory _ _ _
    · rintro _ _ ⟨⟩ registration member
      rcases List.mem_cons.mp member with rfl | last
      · exact .withLifetime _ (.factory _ _ _)
      · rw [List.mem_singleton.mp last]
        trivial
  · exact ((alwaysUsable.served computes history fun _ => rfl).served computes history'
      fun _ => rfl).served computes history'' fun _ => rfl

/-- A rank that falls from the whole to its parts. -/
def rank (key : Key) : Nat :=
  if key = whole then 1 else 0

/-- The binding of the whole. -/
def boundWhole : Binding Client.obliging where
  recipe := ((Offer.factory whole.type () [.service part, .service part]).withLifetime
    .transient).recipe (.registration ⟨2⟩ 0)
  registered := whole
  owner := ⟨2⟩
  cast := none

/-- The binding of the part. -/
def boundPart : Binding Client.obliging where
  recipe := (Offer.factory part.type () []).recipe (.registration ⟨1⟩ 0)
  registered := part
  owner := ⟨1⟩
  cast := none

variable {lower home : Scope Client.obliging} {wanted needed : Key}
  {binding : Binding Client.obliging}

/-- The whole needs its part only. -/
theorem eq_part_of_needs (needs : boundWhole.Needs child needed) : needed = part := by
  rcases needs with member | ⟨decorator, member, asks⟩
  · rcases List.mem_cons.mp member with same | last
    · exact Param.service.inj same
    · exact Param.service.inj (List.mem_singleton.mp last)
  · obtain rfl := List.mem_singleton.mp member
    exact Param.service.inj (List.mem_singleton.mp asks)

/-- The part needs nothing. -/
theorem not_needs_part : ¬ boundPart.Needs parent needed := by
  rintro (member | ⟨decorator, member, _⟩)
  · exact absurd member List.not_mem_nil
  · exact absurd member List.not_mem_nil

/-- The whole has its home in the child. -/
theorem finds_whole (finds : child.Finds whole binding home) :
    binding = boundWhole ∧ home = child := by
  obtain rfl : boundWhole = binding := Option.some.inj finds.bound
  exact ⟨rfl, (Option.some.inj finds.home).symm⟩

/-- The part has its home in the parent. -/
theorem finds_part (finds : child.Finds part binding home) :
    binding = boundPart ∧ home = parent := by
  obtain rfl : boundPart = binding := Option.some.inj finds.bound
  exact ⟨rfl, (Option.some.inj finds.home).symm⟩

/-- A request for the whole asks for it and its part only. -/
theorem requests_whole (requests : child.Requests whole lower wanted) :
    lower = child ∧ (wanted = whole ∨ wanted = part) := by
  induction requests with
  | here => exact ⟨rfl, .inl rfl⟩
  | step _ finds needs ih =>
      obtain ⟨rfl, rfl | rfl⟩ := ih
      · obtain ⟨rfl, rfl⟩ := finds_whole finds
        exact ⟨rfl, .inr (eq_part_of_needs needs)⟩
      · obtain ⟨rfl, rfl⟩ := finds_part finds
        exact absurd needs not_needs_part

/-- The whole is grounded, as the part ranks below it. -/
theorem grounded : child.Grounded whole rank where
  registered := by
    intro lower wanted requests
    obtain ⟨rfl, rfl | rfl⟩ := requests_whole requests
    · exact ⟨boundWhole, rfl⟩
    · exact ⟨boundPart, rfl⟩
  below := by
    intro lower wanted binding requests bound _ perScope
    obtain ⟨rfl, rfl | rfl⟩ := requests_whole requests
    · obtain rfl : boundWhole = binding := Option.some.inj bound
      cases perScope
    · obtain rfl : boundPart = binding := Option.some.inj bound
      cases perScope
  falls := by
    intro lower wanted binding home needed requests finds needs
    obtain ⟨rfl, rfl | rfl⟩ := requests_whole requests
    · obtain ⟨rfl, rfl⟩ := finds_whole finds
      rw [eq_part_of_needs needs]
      decide
    · obtain ⟨rfl, rfl⟩ := finds_part finds
      exact absurd needs not_needs_part

end Nested

/-- The whole is made and decorated with the one part that the parent keeps, and comes to what it
means. -/
theorem whole_means_its_parts : ∃ activity : Activity Client.obliging, activity.Reachable ∧
    activity.moment.state = Nested.withPart.state ∧ ∃ value last,
      (resolve Nested.child ⟨0⟩ Nested.whole).alone Nested.behaviour Nested.withPart =
          some (.ok value, last) ∧
        value.type = Nested.whole.type ∧
          value.content = .list [.list [.list [], .list []], .list []] := by
  obtain ⟨activity, served, honest, alwaysUsable⟩ := Nested.served
  have opened : ∀ id ∈ Nested.child.lineage,
      (Nested.withPart.state.scope id).closed = false := by
    intro id member
    rcases List.mem_cons.mp member with rfl | last
    · rfl
    · rw [List.mem_singleton.mp last]
      rfl
  have usable : Nested.withPart.state.contexts.error? ⟨0⟩ = none := rfl
  obtain ⟨value, last, runs, typed, means⟩ := resolve_computes_meaning Nested.computes
    served.reachable honest served.quiet alwaysUsable ⟨_, (served.did 1 rfl).2⟩ served.state
    usable opened Nested.grounded
  refine ⟨activity, served.reachable, served.state, value, last, runs, typed, ?_⟩
  exact (Option.some.inj means).symm

end Provision
