import Provision.Proofs.Closing.PaidClosers

/-!
# Closing while others resolve

A scope may be closed at any time while requests hand closers to it.  Every closer is run once,
either with all others by the request that shuts its scope or by the one that came too late with
it, which then fails.

Main statement: `closers_run_once`.
-/

namespace Provision

open Moment

variable {U : Client}

/-- What a request may do that has closers to run: run them, and report. -/
def Event.Settling : Event U → Prop
  | .called (.close _ _ _ _) => True
  | .called (.report _) => True
  | .returned _ _ => True
  | _ => False

/-- How the closers of a scope fare. -/
structure Moment.ClosesOnce (moment : Moment U) (scope : ScopeId) : Prop where
  /-- No closer is run more often than it was handed over. -/
  atMostOnce : (moment.ran scope).Subperm (moment.handed scope)
  /-- Once the scope is closed and whoever took over closers is done, all have run. -/
  settled : (moment.state.scope scope).closed = true →
    (∀ id closer, moment.Took id scope closer → ∃ reply, moment.Did id (.finished reply)) →
      (moment.handed scope).Perm (moment.ran scope)
  /-- A closer that the scope took is run by whoever shuts it. -/
  shutOnce : ∀ id closers, moment.Did id (.performed (.shut scope) (some closers)) →
    (moment.promised scope).Perm closers ∧
      ∀ other more, moment.Did other (.performed (.shut scope) (some more)) →
        other = id ∧ more = closers
  /-- Nobody runs a closer that it did not take over, or runs it twice. -/
  ranByTaker : ∀ id,
    (ranBy moment.history id scope).Subperm (takenOver moment.history id scope)
  /-- A request that is done has run all that it took over. -/
  finished : ∀ id reply, moment.Did id (.finished reply) →
    (takenOver moment.history id scope).Perm (ranBy moment.history id scope)
  /-- A request that has closers to run does that at once. -/
  prompt : ∀ id event earlier, ⟨id, event⟩ :: earlier <:+ moment.history →
    ¬ (takenOver earlier id scope).Perm (ranBy earlier id scope) → event.Settling
  /-- A request whose closer came too late fails because a scope is closed. -/
  refused : ∀ id closer, moment.Did id (.performed (.attach scope closer) false) →
    (∃ other closers, moment.Did other (.performed (.shut scope) (some closers))) ∧
      ∀ reply, moment.Did id (.finished reply) → ∃ error, reply = .error error ∧ error.root = .closed
  /-- No closer is added to the scope after it was shut. -/
  notLate : ∀ id closer earlier,
    ⟨id, .performed (.attach scope closer) true⟩ :: earlier <:+ moment.history →
      ∀ other closers, ⟨other, .performed (.shut scope) (some closers)⟩ ∉ earlier
  /-- A request to close the scope shuts it, or fails and runs nothing as another one shut it. -/
  closes : ∀ id node context reply, node.id = scope → moment.Did id (.started (.close node context)) →
    moment.Did id (.finished reply) → moment.Shuts id scope reply

/-- Nobody owes a scope anything if no debt is for it. -/
theorem Moment.owedTo_eq_nil {moment : Moment U} {scope : ScopeId}
    (paid : ∀ debt ∈ moment.debts, debt.scope ≠ scope) : moment.owedTo scope = [] := by
  unfold Moment.owedTo owedAmong
  rw [List.filter_eq_nil_iff.mpr fun debt owed => by simpa using paid debt owed, List.map_nil]

section Lawful

variable {moment : Moment U}
  (lawful : moment.Lawful (Conduct.orderly.and (Conduct.growing.and Conduct.paying)))

include lawful

/-- A request that has finished owes nothing. -/
theorem Moment.Lawful.owedBy_finished {id : RequestId} {reply : Except Error (Reply U)}
    (ended : moment.Did id (.finished reply)) : moment.owedBy id = [] := by
  unfold Moment.owedBy
  rw [List.filter_eq_nil_iff]
  intro debt owed mine
  have goesOn := (lawful.debt (fun _ _ both => both.1) (fun _ _ both => both.2.2) owed).2
  rw [of_decide_eq_true mine] at goesOn
  exact goesOn reply ended

/-- A request that has closers to run does nothing else but report. -/
theorem Moment.Lawful.prompt {id : RequestId} {event : Event U} {earlier : List (Entry U)}
    {scope : ScopeId} (done : ⟨id, event⟩ :: earlier <:+ moment.history)
    (owing : ¬ (takenOver earlier id scope).Perm (ranBy earlier id scope)) : event.Settling := by
  obtain ⟨before, lawful', rfl, orderly, _, pays⟩ := lawful.allowed_at done
  have owes : before.owedBy id ≠ [] := by
    intro paid
    have repaid := lawful'.repaid (fun _ _ both => both.2.2) id scope
    rw [paid] at repaid
    exact owing repaid
  cases event with
  | performed operation answer => exact absurd pays owes
  | finished reply => exact absurd pays.1 owes
  | returned call answer => trivial
  | started demand =>
      obtain ⟨debt, rest, owed⟩ := List.exists_cons_of_ne_nil owes
      have isOwed : debt ∈ before.owedBy id := owed ▸ List.mem_cons_self
      obtain ⟨inside, mine⟩ := List.mem_filter.mp isOwed
      exact absurd (of_decide_eq_true mine ▸ knows_of_debt inside) orderly.1
  | called call =>
      cases runs : call.closer? with
      | some closer => cases call <;> first | exact trivial | cases runs
      | none =>
          rcases pays.2 runs with paid | ⟨notice, rfl⟩
          · exact absurd paid owes
          · trivial

/-- What a request did before it ended, and how it ended. -/
theorem Moment.Lawful.ended {id : RequestId} {reply : Except Error (Reply U)}
    (ended : moment.Did id (.finished reply)) :
    ∃ before, before.history <:+ moment.history ∧
      Conduct.paying before ⟨id, .finished reply⟩ ∧
        ∀ event, moment.Did id event → event = .finished reply ∨ before.Did id event := by
  obtain ⟨later, earlier, split⟩ := List.append_of_mem ended
  have suffix : (⟨id, .finished reply⟩ : Entry U) :: earlier <:+ moment.history :=
    ⟨later, split.symm⟩
  obtain ⟨before, _, rfl, _, _, pays⟩ := lawful.allowed_at suffix
  refine ⟨before, (List.suffix_cons _ _).trans suffix, pays, fun event did => ?_⟩
  exact (lawful.mono fun _ _ both => both.1).before_finished suffix did

/-- A closer that a closed scope refused was run by who offered it. -/
theorem Moment.Lawful.refusal {id : RequestId} {scope : ScopeId} {closer : PendingCloser U}
    (refused : moment.Did id (.performed (.attach scope closer) false))
    {reply : Except Error (Reply U)} (ended : moment.Did id (.finished reply)) :
    ∃ error, reply = .error error ∧ error.root = .closed := by
  obtain ⟨before, _, pays, earlier⟩ := lawful.ended ended
  rcases earlier _ refused with impossible | did
  · cases impossible
  · exact pays.2.1 ⟨scope, closer, did⟩

/-- Whoever closed a scope ran all of its closers. -/
theorem Moment.Lawful.closing {id : RequestId} {scope : Scope U} {context : ContextId}
    (began : moment.Did id (.started (.close scope context))) {reply : Except Error (Reply U)}
    (ended : moment.Did id (.finished reply)) : moment.Shuts id scope.id reply := by
  obtain ⟨before, grows, ⟨_, _, demand, began', shuts⟩, earlier⟩ := lawful.ended ended
  have isClose := (lawful.mono fun _ _ both => both.1).started_once (grows.mem began') began
  rcases shuts scope context isClose with ⟨closers, shut⟩ | ⟨closed, ⟨other, closers, shut⟩, none⟩
  · exact .inl ⟨closers, grows.mem shut⟩
  · refine .inr ⟨closed, ⟨other, closers, grows.mem shut⟩, fun call called => ?_⟩
    rcases earlier _ called with impossible | did
    · cases impossible
    · exact none call did

/-- Every closer of a scope is run at most once, and as soon as it is due. -/
theorem Moment.Lawful.closesOnce (scope : ScopeId) : moment.ClosesOnce scope where
  atMostOnce := by
    have balanced := lawful.balanced (fun _ _ both => both.2.2) scope
    exact (List.sublist_append_right _ _).subperm.trans balanced.symm.subperm
  settled := by
    intro closed done
    have balanced := lawful.balanced (fun _ _ both => both.2.2) scope
    obtain ⟨id, closers, shut⟩ := (lawful.closed scope).1 closed
    have none := ((lawful.closed scope).2 id closers shut).2.1
    have paid : moment.owedTo scope = [] := by
      refine Moment.owedTo_eq_nil fun debt owed same => ?_
      obtain ⟨took, goesOn⟩ :=
        lawful.debt (fun _ _ both => both.1) (fun _ _ both => both.2.2) owed
      obtain ⟨reply, ended⟩ := done debt.request debt.closer (same ▸ took)
      exact goesOn reply ended
    rw [none, paid] at balanced
    exact balanced
  shutOnce := fun id closers shut =>
    ⟨(lawful.promised scope).2 id closers shut ▸ List.reverse_perm _,
      ((lawful.closed scope).2 id closers shut).2.2⟩
  ranByTaker := fun id =>
    (List.sublist_append_right _ _).subperm.trans
      (lawful.repaid (fun _ _ both => both.2.2) id scope).symm.subperm
  finished := by
    intro id reply ended
    have repaid := lawful.repaid (fun _ _ both => both.2.2) id scope
    rw [lawful.owedBy_finished ended] at repaid
    exact repaid
  prompt := fun _ _ _ => lawful.prompt
  refused := fun _ _ refused => ⟨lawful.refused refused, fun _ => lawful.refusal refused⟩
  notLate := fun _ _ _ => lawful.not_shut_before
  closes := by
    rintro id node context reply rfl began ended
    exact lawful.closing began ended

end Lawful

/-- In every reachable activity requests pay what they owe. -/
theorem Activity.Reachable.lawful_paying {activity : Activity U} (reachable : activity.Reachable) :
    activity.moment.Lawful (Conduct.orderly.and (Conduct.growing.and Conduct.paying)) :=
  reachable.lawful (kept_growing.and (kept_paying fun _ _ both => ⟨both.1, both.2.1⟩))

/-- In whatever order requests to close scopes and others go, every closer that is handed to a
scope is run exactly once when the scope is closed. -/
theorem closers_run_once {activity : Activity U} (reachable : activity.Reachable)
    (scope : ScopeId) : activity.moment.ClosesOnce scope :=
  reachable.lawful_paying.closesOnce scope

namespace Closed

/-- A service that has to be closed. -/
def registrations : List (Registration Client.obliging) :=
  [.service ((Offer.factory (.concrete "sample" "A") () []).closeWith ())]

/-- The scope that keeps it. -/
def scope : Scope Client.obliging :=
  ((Builder.root ⟨1⟩).addAll registrations).scope

/-- The key of the service. -/
def key : Key := .of (.concrete "sample" "A")

/-- The world once the scope is built. -/
def built : World Client.obliging Unit :=
  (Demand.build none registrations).afterwards Behaviour.obliging { state := {}, memory := () }

/-- The world once the service is made. -/
def made : World Client.obliging Unit :=
  (Demand.resolve scope ⟨0⟩ key).afterwards Behaviour.obliging built

/-- The service. -/
def value : Value Client.obliging :=
  { type := key.type, content := .object () }

/-- A scope was closed after its service was resolved. -/
theorem served : ∃ activity : Activity Client.obliging, Activity.Served Behaviour.obliging
    [(.build none registrations, .ok (.built scope)),
      (.resolve scope ⟨0⟩ key, .ok (.resolved value)),
      (.close scope ⟨0⟩, .ok .nothing)]
    ((Demand.close scope ⟨0⟩).afterwards Behaviour.obliging made) activity := by
  have builds : (Demand.build none registrations).request.run.run Behaviour.obliging
      { state := {}, memory := () } = some (.ok (.built scope), built) := rfl
  have makes : (Demand.resolve scope ⟨0⟩ key).request.run.run Behaviour.obliging built =
      some (.ok (.resolved value), made) := rfl
  have closes : (Demand.close scope ⟨0⟩).request.run.run Behaviour.obliging made =
      some (.ok .nothing, (Demand.close scope ⟨0⟩).afterwards Behaviour.obliging made) := rfl
  have detached := Behaviour.obliging_detached
  obtain ⟨_, first, _⟩ := (Activity.Served.initial ()).next detached builds nofun
  obtain ⟨_, second, _⟩ := first.nextOn detached makes rfl List.mem_cons_self
  obtain ⟨activity, third, _⟩ := second.nextOn detached closes rfl List.mem_cons_self
  exact ⟨activity, third⟩

end Closed

/-- A scope that was closed after a service was made in it. -/
theorem closed_scope_ran_closers : ∃ activity : Activity Client.obliging,
    activity.Reachable ∧ (Closed.made.state.scope ⟨1⟩).closers.length = 1 ∧
      (activity.moment.state.scope ⟨1⟩).closed = true ∧ activity.moment.ClosesOnce ⟨1⟩ := by
  obtain ⟨activity, served⟩ := Closed.served
  refine ⟨activity, served.reachable, rfl, ?_, closers_run_once served.reachable ⟨1⟩⟩
  rw [served.state]
  rfl

end Provision
