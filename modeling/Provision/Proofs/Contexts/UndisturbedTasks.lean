import Provision.Proofs.Contexts.Wakeups

/-!
# Tasks that nobody disturbs

A task that takes its steps one after another, with nothing else in between, does what the operation
does that it stands for: a cancellation marks what `Contexts.cancel` marks, a derivation makes what
`Contexts.derive` makes, and a poll tells what `Contexts.poll` tells.

Main statements: `Contexts.cancel_undisturbed`, `Contexts.derive_undisturbed` and
`ContextActivity.poll_undisturbed`.
-/

namespace Provision

open Relation

/-- A task gets from one point to another on its own. -/
def ContextTask.Undisturbed : ContextTask × Contexts → ContextTask × Contexts → Prop :=
  ReflTransGen fun before after =>
    before.1.isOver = false ∧ after = before.1.advance before.2

namespace ContextTask.Undisturbed

variable {task : ContextTask} {contexts : Contexts} {final : ContextTask × Contexts}

/-- The next step of a task, and what comes after it. -/
theorem step (left : task.isOver = false)
    (rest : ContextTask.Undisturbed (task.advance contexts) final) :
    ContextTask.Undisturbed (task, contexts) final :=
  ReflTransGen.head ⟨left, rfl⟩ rest

/-- What a cancellation lets go of first. -/
theorem leave {source id : ContextId} {marked : List ContextId} {stages : List CancelStage}
    (rest : ContextTask.Undisturbed (.cancellation source marked stages, contexts) final) :
    ContextTask.Undisturbed (.cancellation source marked (.leave id :: stages), contexts) final :=
  step rfl rest

end ContextTask.Undisturbed

open ContextTask (Undisturbed)

/-! ### Cancellations -/

/-- The contexts that a cancellation is still to reach, besides those that it is to let go of. -/
inductive CancelStage.Reaches : List CancelStage → List ContextId → Prop where
  | done : Reaches [] []
  | leave {id : ContextId} {stages : List CancelStage} {pending : List ContextId} :
      Reaches stages pending → Reaches (.leave id :: stages) pending
  | reach {id : ContextId} {stages : List CancelStage} {pending : List ContextId} :
      Reaches stages pending → Reaches (.reach id :: stages) (id :: pending)

namespace CancelStage.Reaches

variable {stages : List CancelStage} {pending : List ContextId}

/-- Links that are to be reached come before what is pending. -/
theorem append (reaches : CancelStage.Reaches stages pending) (links : List ContextId) :
    CancelStage.Reaches (links.map .reach ++ stages) (links ++ pending) := by
  induction links with
  | nil => exact reaches
  | cons id rest ih => exact .reach ih

/-- A cancellation with nothing pending runs to its end. -/
theorem finish {source : ContextId} {marked : List ContextId} {contexts : Contexts}
    (reaches : CancelStage.Reaches stages []) :
    Undisturbed (.cancellation source marked stages, contexts)
      (.cancellation source marked [], contexts) := by
  generalize none : ([] : List ContextId) = pending at reaches
  induction reaches with
  | done => exact .refl
  | leave _ ih => exact .leave (ih none)
  | reach => cases none

/-- The first context that is to be reached is, after some others were let go of. -/
theorem next {id : ContextId} (reaches : CancelStage.Reaches stages (id :: pending))
    (source : ContextId) (marked : List ContextId) (contexts : Contexts) :
    ∃ rest, CancelStage.Reaches rest pending ∧
      Undisturbed (.cancellation source marked stages, contexts)
        (.cancellation source marked (.reach id :: rest), contexts) := by
  generalize first : id :: pending = all at reaches
  induction reaches with
  | done => cases first
  | leave _ ih =>
      obtain ⟨rest, reaches, alone⟩ := ih first
      exact ⟨rest, reaches, .leave alone⟩
  | reach reaches =>
      obtain ⟨rfl, rfl⟩ := List.cons.inj first
      exact ⟨_, reaches, .refl⟩

end CancelStage.Reaches

namespace Contexts

/-- Visiting a context changes nothing in who is held. -/
theorem isHeld_visit (contexts : Contexts) (id other : ContextId) :
    (contexts.visit id).2.isHeld other = contexts.isHeld other := by
  rcases contexts.visit_cases id with ⟨passed, -⟩ | ⟨node, visited, found, -, step, -, after⟩
  · rw [passed]
  · rw [step, isHeld, after, isHeld]
    by_cases here : id = other
    · subst here
      simp [found]
    · rw [if_neg here]

/-- The links that a visit hands over are held. -/
theorem isHeld_of_mem_visit {contexts : Contexts} {id other : ContextId}
    (member : other ∈ (contexts.visit id).1) : contexts.isHeld other = true := by
  rcases contexts.visit_cases id with ⟨passed, -⟩ | ⟨_, _, -, -, step, -, -⟩
  · rw [passed] at member
    cases member
  · rw [step] at member
    exact (List.mem_filter.1 member).2

/-- A cancellation that is about to mark a context pays it a visit. -/
theorem visit_undisturbed (contexts : Contexts) (source id : ContextId) (marked : List ContextId)
    (rest : List CancelStage) : ∃ now,
      Undisturbed (.cancellation source marked (.mark id :: rest), contexts)
        (.cancellation source now ((contexts.visit id).1.map .reach ++ .leave id :: rest),
          (contexts.visit id).2) := by
  cases marking : contexts.mark id with
  | mk news changed =>
      cases news with
      | false =>
          refine ⟨marked, .step rfl ?_⟩
          simp only [ContextTask.advance, visit, marking]
          exact .refl
      | true =>
          refine ⟨id :: marked, .step rfl ?_⟩
          simp only [ContextTask.advance, visit, marking]
          exact .step rfl (.step rfl .refl)

/-- A cancellation that nobody disturbs does what canceling all does. -/
theorem cancelAll_undisturbed (contexts : Contexts) (pending : List ContextId)
    (held : ∀ id ∈ pending, contexts.isHeld id = true) (source : ContextId)
    (marked : List ContextId) {stages : List CancelStage}
    (reaches : CancelStage.Reaches stages pending) :
    ∃ now, Undisturbed (.cancellation source marked stages, contexts)
      (.cancellation source now [], contexts.cancelAll pending) := by
  induction contexts, pending using Contexts.cancelAll.induct generalizing marked stages with
  | case1 contexts =>
      rw [cancelAll]
      exact ⟨marked, reaches.finish⟩
  | case2 contexts id rest links visited step ih =>
      obtain ⟨later, reachesRest, alone⟩ := reaches.next source marked contexts
      obtain ⟨now, visit⟩ := contexts.visit_undisturbed source id marked later
      have heldLater : ∀ other ∈ links ++ rest, visited.isHeld other = true := by
        intro other member
        have same := contexts.isHeld_visit id other
        rw [step] at same
        rw [same]
        rcases List.mem_append.1 member with link | waits
        · exact isHeld_of_mem_visit (by rwa [step])
        · exact held other (List.mem_cons_of_mem _ waits)
      rw [step] at visit
      obtain ⟨last, more⟩ :=
        ih heldLater now ((CancelStage.Reaches.leave reachesRest).append links)
      refine ⟨last, alone.trans (Undisturbed.step rfl ?_)⟩
      rw [ContextTask.advance, if_pos (held id List.mem_cons_self), cancelAll, step]
      exact visit.trans more

/-- A cancellation that nobody disturbs marks what is reached from its source. -/
theorem cancel_undisturbed {contexts : Contexts} {source : ContextId}
    (held : contexts.isHeld source = true) :
    ∃ marked, Undisturbed (.cancellation source [] [.mark source], contexts)
      (.cancellation source marked [], contexts.cancel source) := by
  obtain ⟨marked, alone⟩ :=
    contexts.cancelAll_undisturbed [source] (by simpa using held) source [] (.reach .done)
  rcases ReflTransGen.cases_head alone with same | ⟨next, ⟨-, rfl⟩, rest⟩
  · cases congrArg Prod.fst same
  · rw [ContextTask.advance, if_pos held] at rest
    exact ⟨marked, rest⟩

/-! ### Derivations -/

/-- A derivation with its link is a derivation. -/
theorem link_eq_derive (contexts : Contexts) (origin : ContextId) (deadline : Option Int) :
    contexts.link origin (contexts.isCanceled origin) deadline =
      contexts.derive origin deadline := by
  unfold link derive
  cases found : contexts.nodes.get? origin with
  | none => rfl
  | some node => simp [isCanceled, found]

/-- A derivation that nobody disturbs makes a context that is canceled if its origin is. -/
theorem derive_undisturbed (contexts : Contexts) (origin : ContextId) (requested : Option Int) :
    Undisturbed (.derivation origin requested .look, contexts)
      (.derivation origin requested
        (.made (contexts.derive origin (contexts.inherited origin requested)).1),
        (contexts.derive origin (contexts.inherited origin requested)).2) := by
  refine .step rfl (.step rfl ?_)
  rw [ContextTask.advance, link_eq_derive]
  exact .refl

/-! ### Polls -/

/-- A watch that waits was not woken. -/
theorem isWoken_await {contexts : Contexts} {watch : WatchId} {found : Watch}
    (known : contexts.watches.get? watch = some found) :
    (contexts.await watch).isWoken watch = false := by
  simp [isWoken, get?_await, known]

/-- A poll that enters its watch. -/
theorem enter_undisturbed {contexts : Contexts} {watch : WatchId} {found : Watch}
    (known : contexts.watches.get? watch = some found) : ∃ result after,
      contexts.poll watch = some (result, after) ∧
        Undisturbed (.poll watch found.context .enter, contexts)
          (.poll watch found.context (.ended result.outcome), after) := by
  have asleep := isWoken_await known
  have entered : ∀ {final}, Undisturbed (.poll watch found.context .look, contexts.await watch)
      final → Undisturbed (.poll watch found.context .enter, contexts) final :=
    fun rest => .step rfl rest
  simp only [poll, known]
  generalize contexts.await watch = waiting at asleep entered
  rw [error?_eq_ite]
  cases canceled : waiting.isCanceled found.context with
  | true =>
      refine ⟨_, _, rfl, entered (.step rfl ?_)⟩
      rw [ContextTask.advance, if_pos canceled]
      exact .refl
  | false =>
      have looked : ∀ {final}, Undisturbed (.poll watch found.context .time, waiting) final →
          Undisturbed (.poll watch found.context .enter, contexts) final := by
        intro final rest
        refine entered (.step rfl ?_)
        rwa [ContextTask.advance, canceled]
      cases overdue : waiting.isOverdue found.context with
      | true =>
          refine ⟨_, _, rfl, looked (.step rfl ?_)⟩
          rw [ContextTask.advance, if_pos overdue]
          exact .refl
      | false =>
          refine ⟨_, _, rfl, looked (.step rfl ?_)⟩
          rw [ContextTask.advance, overdue]
          refine Undisturbed.step rfl ?_
          rw [ContextTask.advance, rouses, asleep, overdue]
          exact .refl

/-- A poll that nobody disturbs tells whether its context is canceled or ends, if its watch does not
wait for a context that is canceled already. -/
theorem poll_undisturbed {contexts : Contexts} {watch : WatchId} {found : Watch}
    (known : contexts.watches.get? watch = some found)
    (heard : found.phase = .waiting → contexts.isCanceled found.context = false) :
    ∃ result after, contexts.poll watch = some (result, after) ∧
      Undisturbed
        (.poll watch found.context (if found.phase = .fresh then .enter else .rest), contexts)
        (.poll watch found.context (.ended result.outcome), after) := by
  obtain ⟨result, after, polled, entered⟩ := enter_undisturbed known
  have roused : contexts.rouses watch found.context = true →
      Undisturbed (.poll watch found.context .rest, contexts)
        (.poll watch found.context (.ended result.outcome), after) := by
    intro roused
    refine .step rfl ?_
    rwa [ContextTask.advance, if_pos roused]
  obtain ⟨context, phase⟩ := found
  cases phase with
  | fresh => exact ⟨result, after, polled, entered⟩
  | woken => exact ⟨result, after, polled, roused (by simp [rouses, isWoken, known])⟩
  | waiting =>
      cases overdue : contexts.isOverdue context with
      | true => exact ⟨result, after, polled, roused (by simp [rouses, overdue])⟩
      | false =>
          -- entering a watch that waits already changes nothing
          have same : contexts.await watch = contexts := by
            simp only [await, known, Table.put_self known]
          have usable : contexts.error? context = none := by
            simp [error?_eq_ite, heard rfl, overdue]
          have calm : contexts.rouses watch context = false := by
            simp [rouses, isWoken, known, overdue]
          refine ⟨⟨false, none⟩, contexts, by simp [poll, known, same, usable], ?_⟩
          change Undisturbed (.poll watch context .rest, contexts) _
          refine .step rfl ?_
          rw [ContextTask.advance, calm]
          exact .refl

end Contexts

/-- In use by many at once, a poll that nobody disturbs tells what `Contexts.poll` tells, unless the
watches of its context are just being woken. -/
theorem ContextActivity.poll_undisturbed {activity : ContextActivity}
    (reachable : activity.Reachable) {watch : WatchId} {found : Watch}
    (known : activity.contexts.watches.get? watch = some found)
    (idle : activity.isIdle watch = true)
    (told : ∀ {task : ContextTask}, task ∈ activity.tasks → task.wakes found.context = false) :
    ∃ result after, activity.contexts.poll watch = some (result, after) ∧
      Undisturbed
        (.poll watch found.context (if found.phase = .fresh then .enter else .rest),
          activity.contexts)
        (.poll watch found.context (.ended result.outcome), after) := by
  refine Contexts.poll_undisturbed known fun waits => Bool.eq_false_iff.2 fun canceled => ?_
  obtain ⟨_, runs⟩ := reachable
  obtain ⟨context, phase⟩ := found
  subst waits
  obtain ⟨_, polls⟩ := (runs.attentive .initial).heard ⟨canceled, told⟩ known
  rw [polls.not_idle] at idle
  cases idle

end Provision
