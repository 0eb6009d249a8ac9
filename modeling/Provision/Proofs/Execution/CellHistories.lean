import Provision.Proofs.Execution.Moments
import Provision.Proofs.Execution.RequestConduct

/-!
# Histories of cells

A cell is entered by one request, which settles it once.  Whoever looks into it from then on sees
that one outcome.

Main statement: `Lawful.cellSound`, which holds as long as a cell is settled only by a request that
entered it and did not settle it before.
-/

namespace Provision

variable {U : Client}

namespace Moment

/-- A request found a cell empty and is the one to fill it. -/
def Entered (moment : Moment U) (id : RequestId) (scope : ScopeId) (cell : CacheKey) : Prop :=
  moment.Did id (.performed (.enter scope cell) none)

/-- A cell was filled with an outcome. -/
def Settled (moment : Moment U) (scope : ScopeId) (cell : CacheKey) (outcome : Outcome U) : Prop :=
  ∃ id, moment.Did id (.performed (.settle scope cell outcome) ())

theorem Settled.mono {moment next : Moment U} {scope : ScopeId} {cell : CacheKey}
    {outcome : Outcome U} (settled : moment.Settled scope cell outcome)
    (grows : moment.history <:+ next.history) : next.Settled scope cell outcome :=
  settled.imp fun _ did => grows.mem did

/-- A request entered a cell and did not settle it yet. -/
structure Fills (moment : Moment U) (id : RequestId) (scope : ScopeId) (cell : CacheKey) :
    Prop where
  entered : moment.Entered id scope cell
  unsettled : ∀ outcome, ¬ moment.Did id (.performed (.settle scope cell outcome) ())

end Moment

/-- Only who entered a cell settles it, and only once. -/
def Conduct.settling : Conduct U := fun moment entry =>
  match entry.event with
  | .performed (.settle scope cell _) _ => moment.Fills entry.request scope cell
  | _ => True

namespace Moment

/-- What is known of a cell. -/
structure CellSound (moment : Moment U) (scope : ScopeId) (cell : CacheKey) : Prop where
  entered : ∀ {id other}, moment.Entered id scope cell → moment.Entered other scope cell →
    id = other
  settled : ∀ {id outcome}, moment.Did id (.performed (.settle scope cell outcome) ()) →
    moment.Entered id scope cell ∧ moment.state.cell? scope cell = some (.filled outcome)
  empty : moment.state.cell? scope cell = none → ∀ id, ¬ moment.Entered id scope cell
  filled : ∀ {outcome}, moment.state.cell? scope cell = some (.filled outcome) →
    moment.Settled scope cell outcome

variable {conduct : Conduct U} {moment : Moment U} {scope : ScopeId} {cell : CacheKey}

namespace CellSound

variable {next : Moment U} {request : RequestId} (sound : moment.CellSound scope cell)

include sound

/-- An empty cell is entered. -/
theorem enter
    (recorded : moment.Records ⟨request, .performed (.enter scope cell) none⟩ next) :
    next.CellSound scope cell := by
  obtain ⟨empty, filling⟩ := Operation.perform_enter_none recorded.state
  have only : ∀ {id}, next.Entered id scope cell → id = request := by
    intro id entered
    rcases recorded.did_iff.mp entered with ⟨same, _⟩ | before
    · exact same
    · exact absurd before (sound.empty empty id)
  refine ⟨?_, ?_, ?_, ?_⟩
  · intro id other entered entered'
    rw [only entered, only entered']
  · intro id outcome settled
    rcases recorded.did_iff.mp settled with ⟨_, now⟩ | before
    · cases now
    · have filled := (sound.settled before).2
      rw [empty] at filled
      cases filled
  · intro isEmpty
    rw [filling] at isEmpty
    cases isEmpty
  · intro outcome filled
    rw [filling] at filled
    cases filled

/-- A cell is settled by the request that entered it. -/
theorem settle {outcome : Outcome U} (fills : moment.Fills request scope cell)
    (recorded : moment.Records ⟨request, .performed (.settle scope cell outcome) ()⟩ next) :
    next.CellSound scope cell := by
  have filled := Operation.perform_settle recorded.state
  have earlier : ∀ {id}, next.Entered id scope cell → moment.Entered id scope cell := by
    intro id entered
    exact recorded.before entered nofun
  refine ⟨fun entered entered' => sound.entered (earlier entered) (earlier entered'), ?_, ?_, ?_⟩
  · intro id other settled
    rcases recorded.did_iff.mp settled with ⟨same, now⟩ | before
    · cases now
      exact ⟨same ▸ recorded.suffix.mem fills.entered, filled⟩
    · obtain rfl := sound.entered (sound.settled before).1 fills.entered
      exact absurd before (fills.unsettled other)
  · intro isEmpty
    rw [filled] at isEmpty
    cases isEmpty
  · intro other isFilled
    rw [filled] at isFilled
    cases isFilled
    exact ⟨request, recorded.did⟩

/-- Nothing else concerns a cell. -/
theorem other {event : Event U} (recorded : moment.Records ⟨request, event⟩ next)
    (same : next.state.cell? scope cell = moment.state.cell? scope cell)
    (unentered : event ≠ .performed (.enter scope cell) none)
    (unsettled : ∀ outcome, event ≠ .performed (.settle scope cell outcome) ()) :
    next.CellSound scope cell := by
  have earlier : ∀ {id}, next.Entered id scope cell → moment.Entered id scope cell := by
    intro id entered
    rcases recorded.did_iff.mp entered with ⟨_, now⟩ | before
    · exact absurd now.symm unentered
    · exact before
  refine ⟨fun entered entered' => sound.entered (earlier entered) (earlier entered'), ?_, ?_, ?_⟩
  · intro id outcome settled
    rcases recorded.did_iff.mp settled with ⟨_, now⟩ | before
    · exact absurd now.symm (unsettled outcome)
    · obtain ⟨entered, filled⟩ := sound.settled before
      exact ⟨recorded.suffix.mem entered, same.trans filled⟩
  · exact fun isEmpty id entered => sound.empty (same.symm.trans isEmpty) id (earlier entered)
  · exact fun filled => (sound.filled (same.symm.trans filled)).mono recorded.suffix

end CellSound

section Lawful

variable (lawful : moment.Lawful conduct)
  (settles : ∀ moment entry, conduct moment entry → Conduct.settling moment entry)

include lawful settles

theorem Lawful.cellSound (scope : ScopeId) (cell : CacheKey) : moment.CellSound scope cell := by
  induction lawful with
  | initial => exact ⟨nofun, nofun, fun _ _ => nofun, nofun⟩
  | contexts contexts _ ih => exact ⟨ih.entered, ih.settled, ih.empty, ih.filled⟩
  | @records moment next entry _ recorded allowed ih =>
      obtain ⟨request, event⟩ := entry
      rcases recorded.state.cell? scope cell with
        ⟨enters, _⟩ | ⟨outcome, isSettle, _⟩ | ⟨same, unentered, unsettled⟩
      · cases enters
        exact ih.enter recorded
      · cases isSettle
        exact ih.settle (settles _ _ allowed) recorded
      · exact ih.other recorded same unentered unsettled

/-- All outcomes of one cell are the same. -/
theorem Lawful.settled_once {outcome other : Outcome U} (first : moment.Settled scope cell outcome)
    (second : moment.Settled scope cell other) : outcome = other := by
  obtain ⟨_, first⟩ := first
  obtain ⟨_, second⟩ := second
  have sound := lawful.cellSound settles scope cell
  have same := (sound.settled first).2.symm.trans (sound.settled second).2
  cases same
  rfl

/-- Whoever sees an outcome in a cell sees the one with which it was settled. -/
theorem Lawful.peeked {id : RequestId} {outcome : Outcome U}
    (peeked : moment.Did id (.performed (.peek scope cell) (some outcome))) :
    moment.Settled scope cell outcome := by
  induction lawful with
  | initial => cases peeked
  | contexts contexts _ ih => exact ih peeked
  | @records moment next entry lawful recorded _ ih =>
      obtain ⟨request, event⟩ := entry
      rcases recorded.did_iff.mp peeked with ⟨_, now⟩ | before
      · subst now
        obtain ⟨kept, _⟩ := Operation.perform_peek recorded.state
        have sound := lawful.cellSound settles scope cell
        exact (sound.filled (State.kept?_eq_some.mp kept)).mono recorded.suffix
      · exact (ih before).mono recorded.suffix

/-- Whoever comes to a cell that another fills is told the outcome with which it was settled. -/
theorem Lawful.awaited {id : RequestId} {outcome : Outcome U}
    (awaited : moment.Did id (.performed (.enter scope cell) (some outcome))) :
    moment.Settled scope cell outcome := by
  induction lawful with
  | initial => cases awaited
  | contexts contexts _ ih => exact ih awaited
  | @records moment next entry lawful recorded _ ih =>
      obtain ⟨request, event⟩ := entry
      rcases recorded.did_iff.mp awaited with ⟨_, now⟩ | before
      · subst now
        have sound := lawful.cellSound settles scope cell
        exact (sound.filled (Operation.perform_enter_some recorded.state).1).mono recorded.suffix
      · exact (ih before).mono recorded.suffix

end Lawful

end Moment

end Provision
