import Provision.Proofs.Instances.KeptInstances
import Provision.Proofs.Resolution.RequestsTerminate

/-!
# Cells that are filled and requests that wait for them

A request that comes to a cell that another is filling has to wait.  Whoever fills a cell does not
wait itself: it enters no other cell until it has settled that one.  So however requests act in
between each other, they never wait in a circle.  Whoever enters a cell settles it before its
request ends, also if making the value failed, so when all requests have ended, nothing is being
filled.

Main statements: `Lawful.cell?_ne_filling` and `Activity.Reachable.goesOn`.
-/

namespace Provision

open Moment

variable {U : Client}

namespace Moment

/-- A request settled all cells that it entered. -/
def Tidy (moment : Moment U) (id : RequestId) : Prop :=
  ∀ scope cell, moment.Entered id scope cell →
    ∃ outcome, moment.Did id (.performed (.settle scope cell outcome) ())

/-- Every request that was made has ended. -/
def Quiet (moment : Moment U) : Prop :=
  ∀ id demand, moment.Did id (.started demand) → ∃ reply, moment.Did id (.finished reply)

end Moment

/-- An event that enters no cell. -/
def Event.Unentering (event : Event U) : Prop :=
  ∀ scope cell, event ≠ .performed (.enter scope cell) none

/-- Making values enters no cell. -/
theorem Event.Making.unentering {event : Event U} (making : event.Making) : event.Unentering := by
  rintro scope cell rfl
  exact making

/-- Requests that do not resolve enter no cell. -/
theorem Event.Tending.unentering {event : Event U} (tending : event.Tending) :
    event.Unentering := by
  rintro scope cell rfl
  exact tending

/-- A request stays tidy as long as it enters no cell. -/
theorem Moment.Tidy.stable {rely : Conduct U} {id : RequestId} {own : Event U → Prop}
    (unentering : ∀ event, own event → event.Unentering) :
    Stable rely id own fun moment => moment.Tidy id := by
  intro moment next passage tidy scope cell entered
  rcases passage.did entered with before | now
  · exact (tidy scope cell before).imp fun _ did => passage.suffix.mem did
  · exact absurd rfl (unentering _ now scope cell)

/-- A request that ends has settled all cells that it entered. -/
def Conduct.tidying : Conduct U :=
  Duties.conduct { ends := fun moment id _ => moment.Tidy id }

section Kept

variable {rely : Conduct U} {id : RequestId} {start : Moment U}

/-- A cell that is entered is settled, whatever making the value comes to. -/
theorem keeps_keepIf_tidy {kept : Bool} {scope : ScopeId} {cell : CacheKey}
    {create : Request U (Value U)} (tidy : start.Tidy id)
    (making : Request.Only Event.Making (fun _ => True) create) :
    Request.Keeps rely Conduct.tidying id (fun _ moment => moment.Tidy id)
      (keepIf kept scope cell create) start := by
  have harmless : ∀ (moment : Moment U) (event : Event U), event.Making →
      Conduct.tidying moment ⟨id, event⟩ := fun _ _ making =>
    Duties.conduct_of_aside making.aside
  have stays : ∀ {first last : Moment U}, Interference rely id first last → first.Tidy id →
      last.Tidy id := fun passage => Tidy.stable (fun _ => False.elim) passage
  refine Request.keeps_keepIf ?_ (fun _ _ _ _ _ => trivial) ?_ ?_
  · exact fun _ => (Program.Only.upholds making (Tidy.stable fun _ => Event.Making.unentering)
      (fun moment event _ => harmless moment event) tidy).mono fun _ _ _ reached => reached.2
  · intro _ before outcome after passage _ recorded last passage' _
    have unentering : (Event.performed (.enter scope cell) (some outcome) : Event U).Unentering :=
      fun _ _ => nofun
    exact stays passage' (Tidy.stable (fun _ unentering => unentering)
      (.own passage.ofInterference recorded unentering) tidy)
  · intro _ before after passage _ recorded
    refine (making.keeps fun moment event _ _ => harmless moment event).mono ?_
    rintro outcome settling _ ⟨_, since⟩
    refine ⟨trivial, fun settled recorded' last passage' _ => stays passage' ?_⟩
    intro other wanted entered
    rcases recorded'.did_iff.mp entered with ⟨_, now⟩ | earlier
    · cases now
    rcases since.did earlier with entering | making
    · rcases recorded.did_iff.mp entering with ⟨_, now⟩ | before
      · cases now
        exact ⟨outcome, recorded'.did⟩
      · exact (stays passage tidy other wanted before).imp fun _ did =>
          recorded'.suffix.mem (since.suffix.mem (recorded.suffix.mem did))
    · exact making.elim

/-- Making and keeping a value leaves a request tidy. -/
theorem keeps_produceFrom_tidy (home : Scope U) (context : ContextId) (key : Key)
    (binding : Binding U) (inputs : Inputs U) (tidy : start.Tidy id) :
    Request.Keeps rely Conduct.tidying id (fun _ moment => moment.Tidy id)
      (produceFrom home context key binding inputs) start := by
  have makes := (only_construct home.id context binding.recipe inputs.arguments inputs.flag
    binding.cast.isSome).mono (fun _ making => making) fun _ _ => trivial
  refine Request.keeps_bind (keeps_keepIf_tidy tidy makes) (fun _ _ _ tidy => tidy) ?_
  intro made moment _ tidy
  exact keeps_keepIf_tidy tidy ((only_finish home.id context key binding inputs.stages made).mono
    (fun _ making => making) fun _ _ => trivial)

/-- Requests for keys leave no cell unsettled, whether they fail or not. -/
def tidiness (rely : Conduct U) (id : RequestId) : Upkeep rely Conduct.tidying id where
  holds := fun moment => moment.Tidy id
  among := fun _ => True
  yields := fun _ _ _ _ => True
  failed := fun moment _ _ _ _ => moment.Tidy id
  stable := Tidy.stable fun _ idle => idle.making.unentering
  harmless := fun _ _ _ idle => Duties.conduct_of_aside idle.making.aside
  ancestor := fun _ _ => trivial
  lasts := fun _ _ => trivial
  plain := fun tidy _ => tidy
  cycle := fun tidy _ _ => tidy
  dependency := fun _ _ _ tidy => tidy
  recalled := by
    rintro _ _ _ _ _ _ (error | value) _ _ _ _ _ tidy _ passage _
    · exact Tidy.stable (fun _ idle => idle.making.unentering) passage tidy
    · trivial
  convert := by
    intro start scope key binding content _ _ _ _ _ tidy
    refine (Program.Only.upholds (only_convert binding scope.id key _) (Tidy.stable
      fun _ serving => serving.making.unentering) (fun _ _ _ serving =>
        Duties.conduct_of_aside serving.making.aside) tidy).mono ?_
    rintro (error | value) _ _ ⟨_, tidy⟩
    · exact tidy
    · exact ⟨tidy, trivial⟩
  produce := by
    intro start scope key binding home inputs context _ _ _ _ tidy _
    refine (keeps_produceFrom_tidy home context key binding inputs tidy).mono ?_
    rintro (error | value) _ _ tidy
    · exact tidy
    · exact ⟨tidy, trivial⟩

/-- All requests are tidy. -/
theorem kept_tidying : Conduct.Kept rely Conduct.tidying where
  started := fun _ _ _ _ _ => trivial
  follows := by
    intro moment id demand after _ orderly recorded
    have tidy : after.Tidy id := by
      exact fun scope cell entered => absurd ⟨_, recorded.before entered nofun, rfl⟩ orderly.1
    by_cases resolves : demand.Resolves
    · refine ((tidiness _ id).asking resolves (fun _ _ => trivial) tidy).mono ?_
      rintro (error | reply) last _ ends
      · rcases ends with ⟨tidy, _⟩ | ⟨_, _, _, tidy⟩
        · exact tidy
        · exact tidy
      · exact ends.1
    · exact (Program.Only.upholds (Demand.only_tending resolves)
        (Tidy.stable fun _ => Event.Tending.unentering)
        (fun _ _ _ tending => Duties.conduct_of_aside tending.aside) tidy).mono
          fun _ _ _ reached => reached.2

end Kept

namespace Moment

variable {conduct : Conduct U} {moment : Moment U} (lawful : moment.Lawful conduct)
  (settles : ∀ moment entry, conduct moment entry → Conduct.settling moment entry)

include lawful settles

/-- A cell is being filled by a request that entered it and did not settle it. -/
theorem Lawful.fills {scope : ScopeId} {cell : CacheKey}
    (filling : moment.state.cell? scope cell = some .filling) :
    ∃ id, moment.Fills id scope cell := by
  induction lawful with
  | initial => cases filling
  | contexts contexts _ ih => exact (ih filling).imp fun id fills => ⟨fills.1, fills.2⟩
  | @records moment next entry lawful recorded _ ih =>
      obtain ⟨request, event⟩ := entry
      rcases recorded.state.cell? scope cell with
        ⟨enters, empty, _⟩ | ⟨outcome, _, filled⟩ | ⟨same, _, unsettled⟩
      · cases enters
        have sound := lawful.cellSound settles scope cell
        refine ⟨request, recorded.did, fun outcome did => ?_⟩
        exact sound.empty empty request (sound.settled (recorded.before did nofun)).1
      · rw [filled] at filling
        cases filling
      · obtain ⟨id, fills⟩ := ih (same.symm.trans filling)
        refine ⟨id, recorded.suffix.mem fills.entered, fun outcome did => ?_⟩
        rcases recorded.did_iff.mp did with ⟨_, now⟩ | before
        · exact unsettled outcome now.symm
        · exact fills.unsettled outcome before

/-- When all requests have ended, no cell is being filled. -/
theorem Lawful.cell?_ne_filling (orderly : ∀ moment entry, conduct moment entry →
      Conduct.orderly moment entry)
    (tidies : ∀ moment entry, conduct moment entry → Conduct.tidying moment entry)
    (quiet : moment.Quiet) (scope : ScopeId) (cell : CacheKey) :
    moment.state.cell? scope cell ≠ some .filling := by
  intro filling
  obtain ⟨id, fills⟩ := lawful.fills settles filling
  obtain ⟨start, _, grows, allowed⟩ := lawful.allowed fills.entered
  obtain ⟨demand, began⟩ := (orderly _ _ allowed).1
  obtain ⟨reply, ended⟩ := quiet id demand (grows.mem began)
  obtain ⟨later, earlier, split⟩ := List.append_of_mem ended
  have suffix : (⟨id, .finished reply⟩ : Entry U) :: earlier <:+ moment.history :=
    ⟨later, split.symm⟩
  obtain ⟨before, _, rfl, allowed⟩ := lawful.allowed_at suffix
  rcases (lawful.mono orderly).before_finished suffix fills.entered with now | did
  · cases now
  · obtain ⟨outcome, settled⟩ := tidies _ _ allowed scope cell did
    exact fills.unsettled outcome (suffix.mem (List.mem_cons_of_mem _ settled))

end Moment

/-! ## Requests that wait -/

/-- What is left to do ends, whatever operations and functions answer. -/
def Task.Terminates : Task U → Held → Prop
  | .running program, held => program.Terminates held
  | .waiting _ next, held => ∀ answer, (next answer).Terminates held

/-- A request can go on: it does not stand before a cell that is being filled.  One that waits for
a function of the client goes on when the function returns. -/
def Task.Ready (state : State U) : Task U → Prop
  | .running (.perform operation _) =>
      ∃ answer next, operation.perform state = some (answer, next)
  | .running .never => False
  | _ => True

/-- Who holds a cell can go on. -/
theorem Task.Terminates.ready {task : Task U} {scope : ScopeId} {cell : CacheKey}
    (terminates : task.Terminates (some (scope, cell))) (state : State U) : task.Ready state := by
  cases task with
  | waiting call next => trivial
  | running program =>
      cases program with
      | perform operation next =>
          apply Operation.exists_perform
          rintro other wanted rfl
          cases terminates.1
      | never => exact terminates.elim
      | _ => trivial

namespace Moment

/-- Cells are filled only by who has something left to do, and no other cells than the one that is
held then. -/
def Attends (moment : Moment U) (id : RequestId) : Option (Task U) → Prop
  | some task => ∃ held, task.Terminates held ∧
      ∀ scope cell, moment.Fills id scope cell → held = some (scope, cell)
  | none => ∀ scope cell, ¬ moment.Fills id scope cell

variable {moment next : Moment U} {id other : RequestId} {event : Event U} {scope : ScopeId}
  {cell : CacheKey}

/-- A cell that a request fills was just entered, or it was being filled and was not settled. -/
theorem Records.fills (recorded : moment.Records ⟨id, event⟩ next)
    (fills : next.Fills id scope cell) :
    event = .performed (.enter scope cell) none ∨
      (moment.Fills id scope cell ∧
        ∀ outcome, event ≠ .performed (.settle scope cell outcome) ()) := by
  rcases recorded.did_iff.mp fills.entered with ⟨_, now⟩ | before
  · exact .inl now.symm
  · refine .inr ⟨⟨before, fun outcome did => ?_⟩, fun outcome now => ?_⟩
    · exact fills.unsettled outcome (recorded.suffix.mem did)
    · exact fills.unsettled outcome (recorded.did_iff.mpr (.inl ⟨rfl, now.symm⟩))

/-- Others fill no cell on account of a request. -/
theorem Records.fills_of_ne (recorded : moment.Records ⟨id, event⟩ next) (differs : other ≠ id)
    (fills : next.Fills other scope cell) : moment.Fills other scope cell where
  entered := by
    rcases recorded.did_iff.mp fills.entered with ⟨same, _⟩ | before
    · exact absurd same differs
    · exact before
  unsettled := fun outcome did => fills.unsettled outcome (recorded.suffix.mem did)

theorem Attends.mono {task : Option (Task U)} (attends : moment.Attends id task)
    (fewer : ∀ scope cell, next.Fills id scope cell → moment.Fills id scope cell) :
    next.Attends id task := by
  cases task with
  | none => exact fun scope cell fills => attends scope cell (fewer scope cell fills)
  | some task =>
      obtain ⟨held, terminates, owns⟩ := attends
      exact ⟨held, terminates, fun scope cell fills => owns scope cell (fewer scope cell fills)⟩

end Moment

/-- All requests attend to the cells that they fill. -/
def Activity.Attended (activity : Activity U) : Prop :=
  ∀ id, activity.moment.Attends id (activity.tasks id)

namespace Activity

variable {activity next : Activity U} {id : RequestId} {event : Event U} {after : Moment U}
  {task : Option (Task U)}

/-- One request did something; all others fill what they did before. -/
theorem Attended.advance (attended : activity.Attended)
    (recorded : activity.moment.Records ⟨id, event⟩ after) (attends : after.Attends id task) :
    (activity.withTask after id task).Attended := by
  intro other
  by_cases same : other = id
  · subst same
    rw [withTask_tasks_self]
    exact attends
  · rw [withTask_tasks_of_ne _ _ _ same]
    exact (attended other).mono fun _ _ => recorded.fills_of_ne same

/-- An event that neither enters nor settles a cell leaves the cell that is held. -/
theorem Attended.continues (attended : activity.Attended) {left right : Task U}
    (found : activity.tasks id = some left)
    (recorded : activity.moment.Records ⟨id, event⟩ after) (cellless : event.Cellless)
    (terminates : ∀ held, left.Terminates held → right.Terminates held) :
    (activity.withTask after id (some right)).Attended := by
  apply attended.advance recorded
  have before := attended id
  rw [found] at before
  obtain ⟨held, ends, owns⟩ := before
  refine ⟨held, terminates held ends, fun scope cell fills => ?_⟩
  rcases recorded.fills fills with rfl | ⟨filled, _⟩
  · exact cellless.elim
  · exact owns scope cell filled

/-- An operation in turn. -/
theorem Attended.performs (attended : activity.Attended) {operation : Operation U}
    {rest : operation.Answer → Program U (Except Error (Reply U))} {answer : operation.Answer}
    (found : activity.tasks id = some (.running (.perform operation rest)))
    (recorded : activity.moment.Records ⟨id, .performed operation answer⟩ after) :
    (activity.withTask after id (some (.running (rest answer)))).Attended := by
  apply attended.advance recorded
  have before := attended id
  rw [found] at before
  obtain ⟨held, ⟨inTurn, ends⟩, owns⟩ := before
  refine ⟨operation.holding held answer, ends answer, fun scope cell fills => ?_⟩
  rcases recorded.fills fills with enters | ⟨filled, unsettled⟩
  · cases enters
    rfl
  · obtain rfl := owns scope cell filled
    apply Operation.holding_of_unsettled inTurn
    rintro outcome rfl
    exact unsettled outcome rfl

/-- One step, of whichever request. -/
theorem Attended.step (attended : activity.Attended) (step : Step activity next)
    (built : ∀ scope, activity.moment.IsScope scope → scope.Built) : next.Attended := by
  cases step with
  | start fresh allowed recorded =>
      apply attended.advance recorded
      refine ⟨none, Demand.terminates fun scope named => built scope (allowed scope named), ?_⟩
      intro scope cell fills
      rcases recorded.fills fills with enters | ⟨filled, _⟩
      · cases enters
      · exact absurd ⟨_, filled.entered, rfl⟩ fresh
  | perform found recorded => exact attended.performs found recorded
  | call found recorded => exact attended.continues found recorded trivial fun _ ends => ends
  | @resume _ _ _ answer _ found recorded =>
      exact attended.continues found recorded trivial fun _ ends => ends answer
  | @finish id reply _ found recorded =>
      apply attended.advance recorded
      have before := attended id
      rw [found] at before
      obtain ⟨held, ends, owns⟩ := before
      obtain rfl : held = none := ends
      intro scope cell fills
      rcases recorded.fills fills with enters | ⟨filled, _⟩
      · cases enters
      · cases owns scope cell filled
  | contexts contexts =>
      exact fun id => (attended id).mono fun _ _ fills => ⟨fills.entered, fills.unsettled⟩

/-- Whoever fills a cell can go on. -/
theorem Attended.exists_ready (attended : activity.Attended) {scope : ScopeId} {cell : CacheKey}
    (fills : activity.moment.Fills id scope cell) :
    ∃ task, activity.tasks id = some task ∧ task.Ready activity.moment.state := by
  have attends := attended id
  cases found : activity.tasks id with
  | none =>
      rw [found] at attends
      exact absurd fills (attends scope cell)
  | some task =>
      rw [found] at attends
      obtain ⟨held, ends, owns⟩ := attends
      obtain rfl := owns scope cell fills
      exact ⟨task, rfl, ends.ready _⟩

/-- In every reachable activity those who fill cells attend to them. -/
theorem Reachable.attended (reachable : activity.Reachable) : activity.Attended := by
  induction reachable with
  | initial => exact fun id scope cell fills => nomatch fills.entered
  | step reachable step ih =>
      have lawful := reachable.lawful kept_growing
      exact ih.step step fun scope isScope => (isScope.grown lawful).built

/-- While requests are under way, one of them can go on: they do not wait for each other in a
circle, and none waits for itself. -/
theorem Reachable.goesOn (reachable : activity.Reachable) {left : Task U}
    (underway : activity.tasks id = some left) :
    ∃ other task, activity.tasks other = some task ∧ task.Ready activity.moment.state := by
  have lawful := reachable.keeping
  have settles : ∀ moment entry, (Conduct.orderly.and (Conduct.growing.and Conduct.keeping))
      moment entry → Conduct.settling (U := U) moment entry :=
    fun _ _ all => Conduct.settling_of_keeping all.2.2
  by_cases ready : left.Ready activity.moment.state
  · exact ⟨id, left, underway, ready⟩
  -- It stands before a cell, and whoever fills that cell can go on.
  have waits : ∃ scope cell, activity.moment.state.cell? scope cell = some .filling := by
    by_contra quiet
    have attends := reachable.attended id
    rw [underway] at attends
    obtain ⟨held, ends, _⟩ := attends
    apply ready
    cases left with
    | waiting call next => trivial
    | running program =>
        cases program with
        | perform operation rest =>
            exact Operation.exists_perform fun scope cell _ filling => quiet ⟨scope, cell, filling⟩
        | never => exact ends.elim
        | _ => trivial
  obtain ⟨scope, cell, filling⟩ := waits
  obtain ⟨other, fills⟩ := lawful.fills settles filling
  exact ⟨other, reachable.attended.exists_ready fills⟩

end Activity

end Provision
