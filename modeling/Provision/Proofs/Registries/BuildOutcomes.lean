import Provision.Proofs.Closing.ClosersRunOnce
import Provision.Proofs.Registries.RegistrationOrder
import Provision.Proofs.Resolution.KeyLookup

/-!
# How builds go

A build numbers its scope, reports each registration that it binds, looks whether the parent of the
scope is closed, and either promises the closers of fixed values in their order and hands out the
scope, or fails with everything that is wrong with the registrations.

Main statements: `Builder.does_build`, and `Reachable.answered` which tells how a build is answered.
-/

namespace Provision

open Moment

variable {U : Client} {events : List (Event U)}

/-! ## What a build does -/

theorem Event.Idle.hands {event : Event U} (idle : event.Idle) (scope : ScopeId) :
    event.hands scope = [] := by
  cases event with
  | performed operation answer => cases operation <;> first | rfl | exact idle.elim
  | _ => rfl

theorem hands_of_idle (scope : ScopeId) (idle : ∀ event ∈ events, event.Idle) :
    events.flatMap (Event.hands scope) = [] :=
  List.flatMap_eq_nil_iff.mpr fun event member => (idle event member).hands scope

namespace Builder

/-- Closers are handed over in their order. -/
theorem does_attachAll {scope : ScopeId} {closers : List (PendingCloser U)}
    {outcome : Except Error Unit} (does : Request.Does (attachAll scope closers) events outcome) :
    outcome = .ok () ∧ events.flatMap (Event.hands scope) = closers := by
  induction closers generalizing events with
  | nil =>
      obtain ⟨rfl, rfl⟩ := Request.does_pure.mp does
      exact ⟨rfl, rfl⟩
  | cons closer rest ih =>
      obtain ⟨answer, _, rfl, reports⟩ := Request.does_bind_act.mp does
      obtain ⟨_, events, rfl, goes⟩ := Request.does_bind_call.mp reports
      obtain ⟨same, handed⟩ := ih goes
      refine ⟨same, ?_⟩
      simpa [Event.hands] using handed

/-- A builder hands over the closers of fixed values and then the scope, or reports what is
wrong. -/
theorem does_complete {builder : Builder U} {outcome : Except Error (Scope U)}
    (does : Request.Does builder.complete events outcome) :
    (builder.issues = [] ∧ outcome = .ok builder.scope ∧
        events.flatMap (Event.hands builder.id) = builder.closers) ∨
      (builder.issues ≠ [] ∧ outcome = .error (.invalid builder.issues)) := by
  by_cases sound : builder.issues = []
  · rw [complete_of_sound sound] at does
    rcases Request.does_bind.mp does with ⟨error, rfl, fails⟩ | ⟨first, _, _, rfl, goes, ends⟩
    · cases (does_attachAll fails).1
    · obtain ⟨_, handed⟩ := does_attachAll goes
      obtain ⟨_, rest, rfl, done⟩ := Request.does_bind_call.mp ends
      obtain ⟨rfl, rfl⟩ := Request.does_pure.mp done
      refine .inl ⟨sound, rfl, ?_⟩
      simpa [Event.hands] using handed
  · rw [complete_of_wrong sound] at does
    obtain ⟨rfl, rfl⟩ := Request.does_fail.mp does
    exact .inr ⟨sound, rfl⟩

/-- A builder finds the parent closed, or hands over the closers of fixed values and then the scope,
or reports what is wrong. -/
theorem does_build {builder : Builder U} {outcome : Except Error (Scope U)}
    (does : Request.Does builder.build events outcome) :
    (outcome = .error .closed ∧ ∃ parent, builder.parent = some parent ∧
        .performed (.isClosed parent.id) true ∈ events) ∨
      (builder.issues = [] ∧ outcome = .ok builder.scope ∧
        events.flatMap (Event.hands builder.id) = builder.closers) ∨
      (builder.issues ≠ [] ∧ outcome = .error (.invalid builder.issues)) := by
  cases above : builder.parent with
  | none =>
      rw [build_of_root above] at does
      exact .inr (does_complete does)
  | some parent =>
      rw [build_of_child above] at does
      rcases Request.does_bind.mp does with ⟨error, rfl, fails⟩ | ⟨first, _, rest, rfl, looks, ends⟩
      · rcases does_ensureOpen.mp fails with ⟨_, impossible⟩ | ⟨rfl, same⟩
        · cases impossible
        · cases same
          exact .inl ⟨rfl, parent, rfl, List.mem_singleton_self _⟩
      · rcases does_ensureOpen.mp looks with ⟨rfl, _⟩ | ⟨_, impossible⟩
        · refine .inr ((does_complete ends).imp_left ?_)
          rintro ⟨sound, same, handed⟩
          refine ⟨sound, same, ?_⟩
          simpa [Event.hands] using handed
        · cases impossible

end Builder

/-- A build numbers the scope and reports its registrations before it settles what to answer. -/
theorem does_buildScope {parent : Option (Scope U)} {registrations : List (Registration U)}
    {outcome : Except Error (Scope U)}
    (does : Request.Does (buildScope parent registrations) events outcome) :
    ∃ (scope : ScopeId) (reports rest : List (Event U)),
      events = .performed .newScope scope :: (reports ++ rest) ∧
      (∀ event ∈ reports, event.Idle) ∧
        Request.Does ((Builder.start scope parent).addAll registrations).build rest outcome := by
  unfold buildScope at does
  rcases Request.does_bind.mp does with ⟨_, _, fails⟩ | ⟨first, builder, rest, rfl, numbers, does⟩
  · obtain ⟨_, impossible, _⟩ := Request.does_lift.mp fails
    cases impossible
  obtain ⟨_, same, numbers⟩ := Request.does_lift.mp numbers
  cases same
  rw [newBuilder_eq] at numbers
  obtain ⟨scope, others, rfl, starts⟩ := Program.does_perform.mp numbers
  obtain ⟨rfl, rfl⟩ := Program.does_done.mp starts
  rcases Request.does_bind.mp does with
    ⟨_, _, fails⟩ | ⟨reports, builder, rest, rfl, registers, ends⟩
  · obtain ⟨_, impossible, _⟩ := Request.does_lift.mp fails
    cases impossible
  obtain ⟨_, same, registers⟩ := Request.does_lift.mp registers
  cases same
  obtain ⟨idle, rfl⟩ := (Builder.only_register registrations _).does registers
  exact ⟨scope, reports, rest, rfl, idle, ends⟩

/-! ## How builds are answered -/

namespace Moment

variable {moment : Moment U}

/-- Some request shut a scope. -/
def WasShut (moment : Moment U) (scope : ScopeId) : Prop :=
  ∃ id closers, moment.Did id (.performed (.shut scope) (some closers))

/-- Only a scope that was shut is found closed. -/
theorem Lawful.found_closed {conduct : Conduct U} (lawful : moment.Lawful conduct)
    {id : RequestId} {scope : ScopeId}
    (found : moment.Did id (.performed (.isClosed scope) true)) : moment.WasShut scope := by
  induction lawful with
  | initial => cases found
  | contexts contexts _ ih => exact ih found
  | @records moment next entry lawful recorded _ ih =>
      obtain ⟨request, event⟩ := entry
      have shut : moment.WasShut scope := by
        rcases recorded.did_iff.mp found with ⟨_, now⟩ | before
        · subst now
          have looks : some ((moment.state.scope scope).closed, moment.state) =
              some (true, next.state) := recorded.state
          cases closed : (moment.state.scope scope).closed with
          | false => rw [closed] at looks; cases looks
          | true => exact (lawful.closed scope).1 closed
        · exact ih before
      obtain ⟨other, closers, shut⟩ := shut
      exact ⟨other, closers, recorded.suffix.mem shut⟩

end Moment

namespace Activity.Reachable

variable {activity : Activity U} (reachable : activity.Reachable) {id : RequestId}
  {parent : Option (Scope U)} {registrations : List (Registration U)}

include reachable

/-- What a build did until it was answered. -/
theorem build_does (began : activity.moment.Did id (.started (.build parent registrations)))
    {reply : Except Error (Reply U)} (ended : activity.moment.Did id (.finished reply)) :
    ∃ events outcome, activity.moment.doings id =
        .started (.build parent registrations) :: events ++ [.finished reply] ∧
      Request.Does (buildScope parent registrations) events outcome ∧
        reply = outcome.map Reply.built := by
  obtain ⟨events, doings, goes⟩ := reachable.went began ended
  rcases Request.does_bind.mp goes with ⟨error, rfl, fails⟩ | ⟨_, built, rest, rfl, builds, ends⟩
  · exact ⟨events, .error error, doings, fails, rfl⟩
  · obtain ⟨rfl, rfl⟩ := Request.does_pure.mp ends
    rw [List.append_nil] at doings
    exact ⟨_, .ok built, doings, builds, rfl⟩

/-- A build is refused because the parent was shut, or answered with the scope if its builder found
nothing wrong, and otherwise with everything that it found. -/
theorem answered (began : activity.moment.Did id (.started (.build parent registrations)))
    {reply : Except Error (Reply U)} (ended : activity.moment.Did id (.finished reply)) :
    (reply = .error .closed ∧ ∃ above, parent = some above ∧ activity.moment.WasShut above.id) ∨
      ∃ scope, (((Builder.start scope parent).addAll registrations).issues = [] ∧
          reply = .ok (.built ((Builder.start scope parent).addAll registrations).scope)) ∨
        (((Builder.start scope parent).addAll registrations).issues ≠ [] ∧
          reply =
            .error (.invalid ((Builder.start scope parent).addAll registrations).issues)) := by
  obtain ⟨events, outcome, doings, builds, rfl⟩ := reachable.build_does began ended
  obtain ⟨scope, reports, rest, rfl, _, builds⟩ := does_buildScope builds
  rcases Builder.does_build builds with ⟨rfl, above, isAbove, looked⟩ | ⟨sound, rfl, _⟩ |
    ⟨unsound, rfl⟩
  · rw [Builder.addAll_parent, Builder.start_parent] at isAbove
    refine .inl ⟨rfl, above, isAbove, ?_⟩
    have did : activity.moment.Did id (.performed (.isClosed above.id) true) := by
      rw [← mem_doings, doings]
      simp [looked]
    exact (reachable.lawful kept_growing).found_closed did
  · exact .inr ⟨scope, .inl ⟨sound, rfl⟩⟩
  · exact .inr ⟨scope, .inr ⟨unsound, rfl⟩⟩

end Activity.Reachable

end Provision
