import Provision.Proofs.Contexts.ConfinedCancellation

/-!
# Contexts in use by many at once

Cancelling a context, deriving one and polling a watch take several steps, and between these others
come in.  A cancellation marks a context, wakes its watches, takes its links and goes on along them,
holding each context for as long as it works on it.  A derivation has the links of its origin to
itself from its look at the mark until it has added the new one.  A poll enters its watch among the
waiting ones before it looks at the context, and goes to rest only if it was not woken meanwhile.

`ContextActivity` is what all who work with contexts have in hand, and how far each cancellation,
derivation and poll has come.  `ContextTask.Step` and `ContextActivity.Turn` list what a step of a
task and a move of anybody can do; all invariants are derived from these two.
-/

namespace Provision

/-- What a cancellation does with one context.  It takes hold of a linked context if somebody holds
it still, marks it, wakes its watches, takes its links, and lets go of it after these. -/
inductive CancelStage where
  | reach (id : ContextId)
  | mark (id : ContextId)
  | wake (id : ContextId)
  | take (id : ContextId)
  | leave (id : ContextId)
  deriving DecidableEq, Repr

/-- How far a derivation has come: it is about to look at the mark of its origin, it has seen the
mark and is about to add the context, or it is done. -/
inductive DeriveStage where
  | look
  | link (canceled : Bool)
  | made (id : ContextId)
  deriving DecidableEq, Repr

/-- How far a poll has come: it is about to enter the watch among the waiting ones, to look at the
mark of the context, to look at the time or to see whether the watch was woken; or it has ended. -/
inductive PollStage where
  | enter
  | look
  | time
  | rest
  | ended (outcome : Option ContextError)
  deriving DecidableEq, Repr

/-- Something under way or done: a cancellation, with the contexts that it marked and what is left
to do; a derivation, with the deadline that was asked for if any was; or a poll of a watch. -/
inductive ContextTask where
  | cancellation (source : ContextId) (marked : List ContextId) (stages : List CancelStage)
  | derivation (origin : ContextId) (requested : Option Int) (stage : DeriveStage)
  | poll (watch : WatchId) (context : ContextId) (stage : PollStage)
  deriving DecidableEq, Repr

namespace Contexts

/-- The deadline of a context derived from `origin`, for which a deadline may have been asked. -/
def inherited (contexts : Contexts) (origin : ContextId) (requested : Option Int) : Option Int :=
  match requested with
  | none => contexts.deadline? origin
  | some deadline => some (earlier (contexts.deadline? origin) deadline)

/-- Add a context derived from `origin`, of which it was seen whether it is canceled. -/
def link (contexts : Contexts) (origin : ContextId) (canceled : Bool) (deadline : Option Int) :
    ContextId × Contexts :=
  match contexts.nodes.get? origin with
  | none => contexts.create { canceled := false, deadline }
  | some node =>
      if canceled then
        contexts.create { canceled := true, deadline }
      else
        let (id, contexts) := contexts.create { canceled := false, deadline }
        (id, contexts.setNode origin
          { node with derived := node.derived.filter contexts.isHeld ++ [id] })

/-- Whether the deadline of a context has come. -/
def isOverdue (contexts : Contexts) (id : ContextId) : Bool :=
  (contexts.deadline? id).any fun deadline => decide (deadline ≤ contexts.now)

/-- Whether a watch was woken since it was last entered among the waiting ones. -/
def isWoken (contexts : Contexts) (watch : WatchId) : Bool :=
  (contexts.watches.get? watch).any fun found => decide (found.phase = .woken)

/-- Whether a watch on a context has reason to look again. -/
def rouses (contexts : Contexts) (watch : WatchId) (context : ContextId) : Bool :=
  contexts.isWoken watch || contexts.isOverdue context

end Contexts

namespace ContextTask

/-- One step of a task. -/
def advance (contexts : Contexts) : ContextTask → ContextTask × Contexts
  | .cancellation source marked (.reach id :: rest) =>
      (.cancellation source marked (if contexts.isHeld id then .mark id :: rest else rest),
        contexts)
  | .cancellation source marked (.mark id :: rest) =>
      match contexts.mark id with
      | (true, changed) => (.cancellation source (id :: marked) (.wake id :: rest), changed)
      | (false, _) => (.cancellation source marked (.leave id :: rest), contexts)
  | .cancellation source marked (.wake id :: rest) =>
      (.cancellation source marked (.take id :: rest), contexts.wake id)
  | .cancellation source marked (.take id :: rest) =>
      let (links, changed) := contexts.takeLinks id
      (.cancellation source marked (links.map .reach ++ .leave id :: rest), changed)
  | .cancellation source marked (.leave _ :: rest) => (.cancellation source marked rest, contexts)
  | .derivation origin requested .look =>
      (.derivation origin requested (.link (contexts.isCanceled origin)), contexts)
  | .derivation origin requested (.link canceled) =>
      let (id, changed) := contexts.link origin canceled (contexts.inherited origin requested)
      (.derivation origin requested (.made id), changed)
  | .poll watch context .enter => (.poll watch context .look, contexts.await watch)
  | .poll watch context .look =>
      if contexts.isCanceled context then
        (.poll watch context (.ended (some .canceled)), contexts.unwatch watch)
      else (.poll watch context .time, contexts)
  | .poll watch context .time =>
      if contexts.isOverdue context then
        (.poll watch context (.ended (some .deadlineExceeded)), contexts.unwatch watch)
      else (.poll watch context .rest, contexts)
  | .poll watch context .rest =>
      (.poll watch context (if contexts.rouses watch context then .enter else .ended none),
        contexts)
  | task => (task, contexts)

/-- Whether there is nothing left to do of a task. -/
def isOver : ContextTask → Bool
  | .cancellation _ _ stages => stages.isEmpty
  | .derivation _ _ (.made _) => true
  | .poll _ _ (.ended _) => true
  | _ => false

/-- The context whose links a task has to itself. -/
def keeps? : ContextTask → Option ContextId
  | .derivation origin _ (.link _) => some origin
  | _ => none

/-- The context whose links a task needs for its next step. -/
def needs? : ContextTask → Option ContextId
  | .derivation origin _ .look => some origin
  | .cancellation _ _ (.take id :: _) => some id
  | _ => none

/-- The contexts that a task holds. -/
def holds : ContextTask → List ContextId
  | .cancellation _ _ stages => stages.filterMap fun
      | .reach _ => none
      | .mark id | .wake id | .take id | .leave id => some id
  | .derivation origin _ .look | .derivation origin _ (.link _) => [origin]
  | _ => []

/-- The context that a derivation has made. -/
def made? : ContextTask → Option ContextId
  | .derivation _ _ (.made id) => some id
  | _ => none

/-- The cancel handle that comes with the context that a derivation has made: there is one if no
deadline was asked for. -/
def handle? : ContextTask → Option ContextId
  | .derivation _ none (.made id) => some id
  | _ => none

end ContextTask

/-- What happens next: somebody begins an operation, begins to watch a context, gives up a watch or
begins to poll it; or a task takes a step. -/
inductive ContextMove where
  | begin (act : ContextAct)
  | watch (context : ContextId)
  | unwatch (watch : WatchId)
  | poll (watch : WatchId)
  | advance (number : Nat)
  deriving DecidableEq, Repr

/-- What all have in hand and are at.  Tasks stay on record when they are over, and `roots` are the
contexts that were not derived from any. -/
structure ContextActivity where
  contexts : Contexts := {}
  copies : List ContextId := []
  handles : List ContextId := []
  tasks : List ContextTask := []
  roots : List ContextId := []

namespace ContextActivity

/-- All that somebody refers to. -/
def held (activity : ContextActivity) : List ContextId :=
  activity.copies ++ activity.handles ++ activity.contexts.watches.values.map Watch.context
    ++ activity.tasks.flatMap ContextTask.holds

/-- Let go of all contexts that nobody refers to. -/
def tidy (activity : ContextActivity) : ContextActivity :=
  { activity with contexts := activity.contexts.releaseUnheld activity.held }

/-- Begin a task. -/
def start (activity : ContextActivity) (task : ContextTask) : ContextActivity :=
  { activity with tasks := activity.tasks ++ [task] }

/-- What a move does, apart from what is then let go of. -/
def act (activity : ContextActivity) : ContextMove → ContextActivity
  | .begin .background =>
      let made := activity.contexts.background
      { activity with
        contexts := made.2, copies := made.1 :: activity.copies, roots := made.1 :: activity.roots }
  | .begin (.withCancel origin) => activity.start (.derivation origin none .look)
  | .begin (.withDeadline origin deadline) =>
      activity.start (.derivation origin (some deadline) .look)
  | .begin (.withTimeout origin timeout) =>
      activity.start (.derivation origin (some (activity.contexts.now + timeout)) .look)
  | .begin (.clone context) => { activity with copies := context :: activity.copies }
  | .begin (.dropContext context) => { activity with copies := activity.copies.erase context }
  | .begin (.dropHandle context) => { activity with handles := activity.handles.erase context }
  | .begin (.cancel source) => activity.start (.cancellation source [] [.mark source])
  | .begin (.wait duration) =>
      { activity with
        contexts := { activity.contexts with now := activity.contexts.now + duration } }
  | .watch context => { activity with contexts := (activity.contexts.watch context).2 }
  | .unwatch watch => { activity with contexts := activity.contexts.unwatch watch }
  | .poll watch =>
      match activity.contexts.watches.get? watch with
      | none => activity
      | some found =>
          activity.start (.poll watch found.context
            (if found.phase = .fresh then .enter else .rest))
  | .advance number =>
      match activity.tasks[number]? with
      | none => activity
      | some task =>
          let (next, contexts) := task.advance activity.contexts
          { activity with
            contexts
            copies := next.made?.toList ++ activity.copies
            handles := next.handle?.toList ++ activity.handles
            tasks := activity.tasks.set number next }

/-- What a move does. -/
def perform (activity : ContextActivity) (move : ContextMove) : ContextActivity :=
  (activity.act move).tidy

/-- Whether no poll of a watch is under way. -/
def isIdle (activity : ContextActivity) (watch : WatchId) : Bool :=
  activity.tasks.all fun task =>
    match task with
    | .poll other _ _ => task.isOver || decide (other ≠ watch)
    | _ => true

/-- Whether a move is possible.  An operation needs the context or the handle that it is called on,
a watch is polled by one at a time, and a task that needs links waits until they are free. -/
def allows (activity : ContextActivity) : ContextMove → Bool
  | .begin .background | .begin (.wait _) => true
  | .begin (.withCancel context) | .begin (.withDeadline context _)
  | .begin (.withTimeout context _) | .begin (.clone context) | .begin (.dropContext context) =>
      decide (context ∈ activity.copies)
  | .begin (.dropHandle context) | .begin (.cancel context) => decide (context ∈ activity.handles)
  | .watch context => decide (context ∈ activity.copies)
  | .unwatch watch | .poll watch =>
      activity.contexts.watches.contains watch && activity.isIdle watch
  | .advance number =>
      (activity.tasks[number]?).any fun task =>
        !task.isOver && task.needs?.all fun id =>
          activity.tasks.all fun other => decide (other.keeps? ≠ some id)

/-- Moves in their order, each of them possible when its turn comes. -/
inductive Runs (activity : ContextActivity) : List ContextMove → ContextActivity → Prop where
  | none : Runs activity [] activity
  | snoc {moves : List ContextMove} {move : ContextMove} {next : ContextActivity} :
      Runs activity moves next → next.allows move = true →
        Runs activity (moves ++ [move]) (next.perform move)

/-- What moves lead to from nothing at all. -/
def Reachable (activity : ContextActivity) : Prop :=
  ∃ moves, Runs {} moves activity

/-- Whether all moves are possible, one after another. -/
def permits (activity : ContextActivity) : List ContextMove → Bool
  | [] => true
  | move :: rest => activity.allows move && (activity.perform move).permits rest

section Runs

variable {activity next later : ContextActivity} {moves : List ContextMove}

theorem Runs.trans {first second : List ContextMove} (runs : activity.Runs first next)
    (more : next.Runs second later) : activity.Runs (first ++ second) later := by
  induction more with
  | none => rwa [List.append_nil]
  | snoc _ allowed ih => exact List.append_assoc .. ▸ ih.snoc allowed

/-- What every possible move preserves holds after a run if it held before. -/
theorem Runs.preserves {holds : ContextActivity → Prop} (runs : activity.Runs moves later)
    (step : ∀ {before : ContextActivity} {move : ContextMove}, holds before →
      before.allows move = true → holds (before.perform move)) (first : holds activity) :
    holds later := by
  induction runs with
  | none => exact first
  | snoc _ allowed ih => exact step ih allowed

/-- Moves that are permitted one after another are a run. -/
theorem runs_of_permits (permitted : activity.permits moves = true) :
    activity.Runs moves (moves.foldl perform activity) := by
  induction moves generalizing activity with
  | nil => exact .none
  | cons move rest ih =>
      obtain ⟨allowed, later⟩ := Bool.and_eq_true_iff.1 permitted
      exact (Runs.none.snoc allowed).trans (ih later)

end Runs

end ContextActivity

/-! ### What a step does -/

namespace Contexts

/-- A new context is there. -/
theorem contains_create (contexts : Contexts) (node : ContextNode) :
    (contexts.create node).2.nodes.contains (contexts.create node).1 = true :=
  Option.isSome_iff_exists.2 ⟨node, (contexts.get?_create node _).trans (if_pos rfl)⟩

/-- A derived context is there. -/
theorem contains_link (contexts : Contexts) (origin : ContextId) (canceled : Bool)
    (deadline : Option Int) : (contexts.link origin canceled deadline).2.nodes.contains
      (contexts.link origin canceled deadline).1 = true := by
  unfold link
  cases contexts.nodes.get? origin with
  | none => exact contexts.contains_create _
  | some node =>
      cases canceled with
      | true => exact contexts.contains_create _
      | false =>
          simp only [Bool.false_eq_true, if_false, Table.contains, get?_setNode]
          split
          · rfl
          · exact contexts.contains_create _

/-- A link is to the next context, and touches nothing but what is known of contexts. -/
theorem link_eq (contexts : Contexts) (origin : ContextId) (canceled : Bool)
    (deadline : Option Int) : ∃ nodes, contexts.link origin canceled deadline =
      (⟨contexts.nextContext⟩,
        { contexts with nodes, nextContext := contexts.nextContext + 1 }) := by
  unfold link
  cases contexts.nodes.get? origin <;> cases canceled <;> exact ⟨_, rfl⟩

/-- Taking links changes contexts only. -/
theorem takeLinks_eq (contexts : Contexts) (id : ContextId) :
    ∃ nodes, (contexts.takeLinks id).2 = { contexts with nodes } := by
  unfold takeLinks
  cases contexts.nodes.get? id <;> exact ⟨_, rfl⟩

/-- Marking changes contexts only. -/
theorem mark_eq {contexts changed : Contexts} {id : ContextId}
    (news : contexts.mark id = (true, changed)) : ∃ nodes, changed = { contexts with nodes } := by
  unfold mark at news
  split at news
  · cases news
  · split at news
    · cases news
    · exact ⟨_, (Prod.mk.inj news).2.symm⟩

/-- Leaving a watch removes this one only. -/
theorem get?_unwatch (contexts : Contexts) (watch other : WatchId) :
    (contexts.unwatch watch).watches.get? other =
      if watch = other then none else contexts.watches.get? other :=
  Table.get?_erase _ _ _

/-- Waking a context wakes the watches that wait for it. -/
theorem get?_wake (contexts : Contexts) (id : ContextId) (watch : WatchId) :
    (contexts.wake id).watches.get? watch = (contexts.watches.get? watch).map fun found =>
      if found.context = id ∧ found.phase = .waiting then { found with phase := .woken }
      else found :=
  Table.get?_mapValues _ _ _

/-- A watch that waits is no longer fresh. -/
theorem get?_await (contexts : Contexts) (watch other : WatchId) :
    (contexts.await watch).watches.get? other =
      if watch = other then
        (contexts.watches.get? other).map fun found => { found with phase := .waiting }
      else contexts.watches.get? other := by
  unfold await
  by_cases here : watch = other
  · subst here
    cases found : contexts.watches.get? watch <;> simp [found]
  · cases contexts.watches.get? watch <;> simp [Table.get?_put, here]

end Contexts

namespace ContextTask

/-- The steps of a task, one by one. -/
inductive Step (contexts : Contexts) : ContextTask → ContextTask → Contexts → Prop where
  | reach {source id : ContextId} {marked : List ContextId} {rest : List CancelStage} :
      Step contexts (.cancellation source marked (.reach id :: rest))
        (.cancellation source marked (if contexts.isHeld id then .mark id :: rest else rest))
        contexts
  | mark {source id : ContextId} {marked : List ContextId} {rest : List CancelStage}
      {changed : Contexts} (news : contexts.mark id = (true, changed)) :
      Step contexts (.cancellation source marked (.mark id :: rest))
        (.cancellation source (id :: marked) (.wake id :: rest)) changed
  | pass {source id : ContextId} {marked : List ContextId} {rest : List CancelStage}
      (known : (contexts.mark id).1 = false) :
      Step contexts (.cancellation source marked (.mark id :: rest))
        (.cancellation source marked (.leave id :: rest)) contexts
  | wake {source id : ContextId} {marked : List ContextId} {rest : List CancelStage} :
      Step contexts (.cancellation source marked (.wake id :: rest))
        (.cancellation source marked (.take id :: rest)) (contexts.wake id)
  | take {source id : ContextId} {marked : List ContextId} {rest : List CancelStage} :
      Step contexts (.cancellation source marked (.take id :: rest))
        (.cancellation source marked ((contexts.takeLinks id).1.map .reach ++ .leave id :: rest))
        (contexts.takeLinks id).2
  | leave {source id : ContextId} {marked : List ContextId} {rest : List CancelStage} :
      Step contexts (.cancellation source marked (.leave id :: rest))
        (.cancellation source marked rest) contexts
  | see {origin : ContextId} {requested : Option Int} :
      Step contexts (.derivation origin requested .look)
        (.derivation origin requested (.link (contexts.isCanceled origin))) contexts
  | link {origin id : ContextId} {requested : Option Int} {canceled : Bool} {changed : Contexts}
      (made : contexts.link origin canceled (contexts.inherited origin requested) = (id, changed)) :
      Step contexts (.derivation origin requested (.link canceled))
        (.derivation origin requested (.made id)) changed
  | enter {watch : WatchId} {context : ContextId} :
      Step contexts (.poll watch context .enter) (.poll watch context .look) (contexts.await watch)
  | canceled {watch : WatchId} {context : ContextId}
      (canceled : contexts.isCanceled context = true) :
      Step contexts (.poll watch context .look) (.poll watch context (.ended (some .canceled)))
        (contexts.unwatch watch)
  | usable {watch : WatchId} {context : ContextId}
      (usable : contexts.isCanceled context = false) :
      Step contexts (.poll watch context .look) (.poll watch context .time) contexts
  | overdue {watch : WatchId} {context : ContextId}
      (overdue : contexts.isOverdue context = true) :
      Step contexts (.poll watch context .time)
        (.poll watch context (.ended (some .deadlineExceeded))) (contexts.unwatch watch)
  | early {watch : WatchId} {context : ContextId}
      (early : contexts.isOverdue context = false) :
      Step contexts (.poll watch context .time) (.poll watch context .rest) contexts
  | rouse {watch : WatchId} {context : ContextId}
      (roused : contexts.rouses watch context = true) :
      Step contexts (.poll watch context .rest) (.poll watch context .enter) contexts
  | sleep {watch : WatchId} {context : ContextId}
      (calm : contexts.rouses watch context = false) :
      Step contexts (.poll watch context .rest) (.poll watch context (.ended none)) contexts

/-- A task that is left goes on by a step. -/
theorem step_advance (contexts : Contexts) {task : ContextTask} (left : task.isOver = false) :
    Step contexts task (task.advance contexts).1 (task.advance contexts).2 := by
  match task with
  | .cancellation source marked [] => cases left
  | .cancellation source marked (.reach id :: rest) => exact .reach
  | .cancellation source marked (.mark id :: rest) =>
      match marking : contexts.mark id with
      | (true, changed) => simpa [advance, marking] using Step.mark marking
      | (false, _) => simpa [advance, marking] using Step.pass (congrArg Prod.fst marking)
  | .cancellation source marked (.wake id :: rest) => exact .wake
  | .cancellation source marked (.take id :: rest) => exact .take
  | .cancellation source marked (.leave id :: rest) => exact .leave
  | .derivation origin requested .look => exact .see
  | .derivation origin requested (.link canceled) => exact .link rfl
  | .derivation origin requested (.made id) => cases left
  | .poll watch context .enter => exact .enter
  | .poll watch context .look =>
      cases seen : contexts.isCanceled context with
      | true => simpa [advance, seen] using Step.canceled seen
      | false => simpa [advance, seen] using Step.usable seen
  | .poll watch context .time =>
      cases due : contexts.isOverdue context with
      | true => simpa [advance, due] using Step.overdue due
      | false => simpa [advance, due] using Step.early due
  | .poll watch context .rest =>
      cases roused : contexts.rouses watch context with
      | true => simpa [advance, roused] using Step.rouse roused
      | false => simpa [advance, roused] using Step.sleep roused
  | .poll watch context (.ended outcome) => cases left

namespace Step

variable {contexts after : Contexts} {task next : ContextTask}

/-- What is over takes no step. -/
theorem left (step : Step contexts task next after) : task.isOver = false := by
  cases step <;> rfl

/-- What a step has made is known from then on. -/
theorem made (step : Step contexts task next after) {id : ContextId}
    (made : next.made? = some id) : after.nodes.contains id = true := by
  cases step with
  | @link origin _ requested canceled _ linked =>
      obtain rfl := Option.some.inj made
      have known := contexts.contains_link origin canceled (contexts.inherited origin requested)
      rwa [linked] at known
  | _ => cases made

/-- No step begins a watch, and a step makes one context at most. -/
theorem numbers (step : Step contexts task next after) :
    after.nextWatch = contexts.nextWatch ∧
      (after.nextContext = contexts.nextContext ∨ next.made? = some ⟨contexts.nextContext⟩ ∧
        after.nextContext = contexts.nextContext + 1) := by
  cases step with
  | mark news =>
      obtain ⟨_, rfl⟩ := Contexts.mark_eq news
      exact ⟨rfl, .inl rfl⟩
  | take =>
      obtain ⟨_, same⟩ := contexts.takeLinks_eq _
      rw [same]
      exact ⟨rfl, .inl rfl⟩
  | link made =>
      obtain ⟨_, same⟩ := contexts.link_eq _ _ _
      obtain ⟨rfl, rfl⟩ := Prod.mk.inj (made.symm.trans same)
      exact ⟨rfl, .inr ⟨rfl, rfl⟩⟩
  | enter =>
      unfold Contexts.await
      split <;> exact ⟨rfl, .inl rfl⟩
  | reach | pass | wake | leave | see | canceled | usable | overdue | early | rouse | sleep =>
      exact ⟨rfl, .inl rfl⟩

/-- Most steps leave the watches alone; the others wake those of a context, or enter or give up the
one that is polled. -/
theorem watches (step : Step contexts task next after) :
    after.watches = contexts.watches ∨
    (∃ id, after = contexts.wake id) ∨
    (∃ watch context, task = .poll watch context .enter ∧ next = .poll watch context .look ∧
      after = contexts.await watch) ∨
    ∃ watch context stage, task = .poll watch context stage ∧ after = contexts.unwatch watch := by
  cases step with
  | mark news =>
      obtain ⟨_, rfl⟩ := Contexts.mark_eq news
      exact .inl rfl
  | take =>
      obtain ⟨_, same⟩ := contexts.takeLinks_eq _
      exact .inl (by rw [same])
  | link made =>
      obtain ⟨_, same⟩ := contexts.link_eq _ _ _
      obtain ⟨-, rfl⟩ := Prod.mk.inj (made.symm.trans same)
      exact .inl rfl
  | wake => exact .inr (.inl ⟨_, rfl⟩)
  | enter => exact .inr (.inr (.inl ⟨_, _, rfl, rfl, rfl⟩))
  | canceled | overdue => exact .inr (.inr (.inr ⟨_, _, _, rfl, rfl⟩))
  | reach | pass | leave | see | usable | early | rouse | sleep => exact .inl rfl

variable {watch : WatchId} {found : Watch}

/-- A watch that is known after a step was known before, and was the same unless it was entered
among the waiting ones or woken. -/
theorem watched (step : Step contexts task next after)
    (known : after.watches.get? watch = some found) :
    contexts.watches.get? watch = some found ∨
    (∃ context phase, contexts.watches.get? watch = some { found with phase } ∧
      found.phase = .waiting ∧ task = .poll watch context .enter ∧
      next = .poll watch context .look) ∨
    (contexts.watches.get? watch = some { found with phase := .waiting } ∧
      found.phase = .woken) := by
  rcases step.watches with
    same | ⟨id, rfl⟩ | ⟨other, context, rfl, rfl, rfl⟩ | ⟨other, _, _, rfl, rfl⟩
  · exact .inl (same ▸ known)
  · rw [Contexts.get?_wake, Option.map_eq_some_iff] at known
    obtain ⟨before, there, rfl⟩ := known
    by_cases woken : before.context = id ∧ before.phase = .waiting
    · rw [if_pos woken]
      exact .inr (.inr ⟨by rw [there, ← woken.2], rfl⟩)
    · rw [if_neg woken]
      exact .inl there
  · rw [Contexts.get?_await] at known
    by_cases here : other = watch
    · subst here
      rw [if_pos rfl, Option.map_eq_some_iff] at known
      obtain ⟨before, there, rfl⟩ := known
      exact .inr (.inl ⟨context, before.phase, there, rfl, rfl, rfl⟩)
    · rw [if_neg here] at known
      exact .inl known
  · rw [Contexts.get?_unwatch] at known
    split at known
    · cases known
    · exact .inl known

/-- A watch stays as it is unless it is woken or a poll of it takes the step. -/
theorem watch_kept (step : Step contexts task next after)
    (known : contexts.watches.get? watch = some found) :
    after.watches.get? watch = some found ∨
    (found.phase = .waiting ∧ after.watches.get? watch = some { found with phase := .woken }) ∨
    ∃ context stage, task = .poll watch context stage := by
  rcases step.watches with
    same | ⟨id, rfl⟩ | ⟨other, context, rfl, rfl, rfl⟩ | ⟨other, context, stage, rfl, rfl⟩
  · exact .inl (same ▸ known)
  · rw [Contexts.get?_wake, known, Option.map_some]
    by_cases woken : found.context = id ∧ found.phase = .waiting
    · rw [if_pos woken]
      exact .inr (.inl ⟨woken.2, rfl⟩)
    · rw [if_neg woken]
      exact .inl rfl
  · by_cases here : other = watch
    · subst here
      exact .inr (.inr ⟨context, _, rfl⟩)
    · rw [Contexts.get?_await, if_neg here]
      exact .inl known
  · by_cases here : other = watch
    · subst here
      exact .inr (.inr ⟨context, stage, rfl⟩)
    · rw [Contexts.get?_unwatch, if_neg here]
      exact .inl known

end Step

end ContextTask

/-! ### What a move does -/

namespace ContextActivity

variable {activity : ContextActivity}

/-- A task at its beginning. -/
inductive Begins (activity : ContextActivity) : ContextTask → Prop where
  | derive {origin : ContextId} {requested : Option Int} (inHand : origin ∈ activity.copies) :
      Begins activity (.derivation origin requested .look)
  | cancel {source : ContextId} : Begins activity (.cancellation source [] [.mark source])
  | poll {watch : WatchId} {found : Watch}
      (known : activity.contexts.watches.get? watch = some found)
      (idle : activity.isIdle watch = true) :
      Begins activity (.poll watch found.context (if found.phase = .fresh then .enter else .rest))

/-- The contexts and tasks after a move, apart from what is then let go of. -/
inductive Turn (activity : ContextActivity) : ContextMove → Contexts → List ContextTask → Prop where
  | still {act : ContextAct} {contexts : Contexts}
      (same : contexts = { activity.contexts with now := contexts.now })
      (now : activity.contexts.now ≤ contexts.now) :
      Turn activity (.begin act) contexts activity.tasks
  | background :
      Turn activity (.begin .background) activity.contexts.background.2 activity.tasks
  | watch {context : ContextId} (inHand : context ∈ activity.copies) :
      Turn activity (.watch context) (activity.contexts.watch context).2 activity.tasks
  | unwatch {watch : WatchId} (idle : activity.isIdle watch = true) :
      Turn activity (.unwatch watch) (activity.contexts.unwatch watch) activity.tasks
  | start {move : ContextMove} {task : ContextTask} (begins : activity.Begins task)
      (other : ∀ number, move ≠ .advance number) :
      Turn activity move activity.contexts (activity.tasks ++ [task])
  | advance {number : Nat} {task next : ContextTask} {contexts : Contexts}
      (found : activity.tasks[number]? = some task)
      (step : ContextTask.Step activity.contexts task next contexts) :
      Turn activity (.advance number) contexts (activity.tasks.set number next)

/-- Every move that is allowed is one of the turns. -/
theorem turn {move : ContextMove} (allowed : activity.allows move = true) :
    activity.Turn move (activity.act move).contexts (activity.act move).tasks := by
  match move with
  | .begin .background => exact .background
  | .begin (.withCancel origin) => exact .start (.derive (of_decide_eq_true allowed)) nofun
  | .begin (.withDeadline origin deadline) =>
      exact .start (.derive (of_decide_eq_true allowed)) nofun
  | .begin (.withTimeout origin timeout) =>
      exact .start (.derive (of_decide_eq_true allowed)) nofun
  | .begin (.clone context) => exact .still rfl (Int.le_refl _)
  | .begin (.dropContext context) => exact .still rfl (Int.le_refl _)
  | .begin (.dropHandle context) => exact .still rfl (Int.le_refl _)
  | .begin (.cancel source) => exact .start .cancel nofun
  | .begin (.wait duration) => exact .still rfl (Int.le_add_of_nonneg_right (Int.natCast_nonneg _))
  | .watch context => exact .watch (of_decide_eq_true allowed)
  | .unwatch watch => exact .unwatch (Bool.and_eq_true_iff.mp allowed).2
  | .poll watch =>
      obtain ⟨known, idle⟩ := Bool.and_eq_true_iff.mp allowed
      obtain ⟨found, known⟩ := Option.isSome_iff_exists.mp known
      have started : activity.Turn (.poll watch) _ _ := .start (.poll known idle) nofun
      simpa [act, known, start] using started
  | .advance number =>
      rw [allows, Option.any_eq_true] at allowed
      obtain ⟨task, found, ready⟩ := allowed
      have left : task.isOver = false := by simpa using (Bool.and_eq_true_iff.mp ready).1
      simpa [act, found] using Turn.advance found (task.step_advance _ left)

namespace Turn

variable {move : ContextMove} {contexts : Contexts} {tasks : List ContextTask} {number : Nat}
  {task : ContextTask}

/-- A task that goes on takes its place among the tasks. -/
theorem advances (turn : activity.Turn (.advance number) contexts tasks) :
    ∃ task next, activity.tasks[number]? = some task ∧ tasks = activity.tasks.set number next ∧
      ContextTask.Step activity.contexts task next contexts := by
  cases turn with
  | start _ other => exact absurd rfl (other number)
  | advance found step => exact ⟨_, _, found, rfl, step⟩

/-- A task that is there after a move was there before, or has taken a step, or has just begun. -/
theorem found (turn : activity.Turn move contexts tasks) (there : tasks[number]? = some task) :
    (move ≠ .advance number ∧ activity.tasks[number]? = some task) ∨
    (∃ before, move = .advance number ∧ activity.tasks[number]? = some before ∧
      ContextTask.Step activity.contexts before task contexts) ∨
    (number = activity.tasks.length ∧ activity.Begins task ∧ contexts = activity.contexts) := by
  cases turn with
  | start begins other =>
      by_cases before : number < activity.tasks.length
      · exact .inl ⟨other number, (List.getElem?_append_left before).symm.trans there⟩
      · rw [List.getElem?_append_right (Nat.le_of_not_lt before), List.getElem?_singleton] at there
        obtain ⟨last, same⟩ := Option.ite_none_right_eq_some.1 there
        obtain rfl := Option.some.inj same
        exact .inr (.inr ⟨by omega, begins, rfl⟩)
  | @advance stepped before after _ found step =>
      by_cases here : stepped = number
      · subst here
        obtain ⟨below, -⟩ := List.getElem?_eq_some_iff.1 found
        rw [List.getElem?_set_self below] at there
        obtain rfl := Option.some.inj there
        exact .inr (.inl ⟨before, rfl, found, step⟩)
      · rw [List.getElem?_set_ne here] at there
        exact .inl ⟨fun same => here (ContextMove.advance.inj same), there⟩
  | still | background | watch | unwatch => exact .inl ⟨nofun, there⟩

/-- Every task was there before, or went on, or begins. -/
theorem mem (turn : activity.Turn move contexts tasks) (member : task ∈ tasks) :
    task ∈ activity.tasks ∨
    (∃ before ∈ activity.tasks, ContextTask.Step activity.contexts before task contexts) ∨
    activity.Begins task := by
  obtain ⟨number, there⟩ := List.mem_iff_getElem?.1 member
  rcases turn.found there with ⟨-, before⟩ | ⟨before, -, found, step⟩ | ⟨-, begins, -⟩
  · exact .inl (List.mem_of_getElem? before)
  · exact .inr (.inl ⟨before, List.mem_of_getElem? found, step⟩)
  · exact .inr (.inr begins)

/-- Tasks stay on record. -/
theorem length_le (turn : activity.Turn move contexts tasks) :
    activity.tasks.length ≤ tasks.length := by
  cases turn with
  | start => simp
  | advance => simp
  | still | background | watch | unwatch => exact Nat.le_refl _

/-- A task stays as it is unless it takes a step. -/
theorem task_kept (turn : activity.Turn move contexts tasks)
    (there : activity.tasks[number]? = some task) (still : move ≠ .advance number) :
    tasks[number]? = some task := by
  obtain ⟨below, -⟩ := List.getElem?_eq_some_iff.1 there
  cases turn with
  | start => exact (List.getElem?_append_left below).trans there
  | @advance stepped =>
      have apart : stepped ≠ number := fun same => still (congrArg ContextMove.advance same)
      exact (List.getElem?_set_ne apart).trans there
  | still | background | watch | unwatch => exact there

/-- What is over stays. -/
theorem stays (turn : activity.Turn move contexts tasks) (member : task ∈ activity.tasks)
    (done : task.isOver = true) : task ∈ tasks := by
  obtain ⟨number, there⟩ := List.mem_iff_getElem?.1 member
  refine List.mem_of_getElem? (turn.task_kept there fun moved => ?_)
  subst moved
  obtain ⟨_, _, found, -, step⟩ := turn.advances
  obtain rfl := Option.some.inj (found.symm.trans there)
  rw [step.left] at done
  cases done

/-- Numbers of watches only grow. -/
theorem nextWatch (turn : activity.Turn move contexts tasks) :
    activity.contexts.nextWatch ≤ contexts.nextWatch := by
  cases turn with
  | still same _ => exact Nat.le_of_eq (congrArg Contexts.nextWatch same).symm
  | watch => exact Nat.le_succ _
  | advance _ step => exact Nat.le_of_eq step.numbers.1.symm
  | background | unwatch | start => exact Nat.le_refl _

variable {watch : WatchId} {found : Watch}

/-- A watch that is known after a move was known before, and was the same unless it was entered
among the waiting ones or woken; or it has just begun. -/
theorem watched (turn : activity.Turn move contexts tasks)
    (known : contexts.watches.get? watch = some found) :
    activity.contexts.watches.get? watch = some found ∨
    (∃ context phase, activity.contexts.watches.get? watch = some { found with phase } ∧
      found.phase = .waiting ∧ .poll watch context .look ∈ tasks) ∨
    (activity.contexts.watches.get? watch = some { found with phase := .waiting } ∧
      found.phase = .woken) ∨
    (found.context ∈ activity.copies ∧ watch = ⟨activity.contexts.nextWatch⟩ ∧
      found.phase = .fresh ∧ contexts.nextWatch = activity.contexts.nextWatch + 1) := by
  cases turn with
  | still same _ =>
      rw [same] at known
      exact .inl known
  | @watch context inHand =>
      simp only [Contexts.watch, Table.get?_put] at known
      by_cases here : (⟨activity.contexts.nextWatch⟩ : WatchId) = watch
      · rw [if_pos here, Option.some.injEq] at known
        subst known
        exact .inr (.inr (.inr ⟨inHand, here.symm, rfl, rfl⟩))
      · rw [if_neg here] at known
        exact .inl known
  | unwatch =>
      rw [Contexts.get?_unwatch] at known
      split at known
      · cases known
      · exact .inl known
  | @advance number _ _ _ stepped step =>
      refine (step.watched known).imp_right (.imp (fun entered => ?_) .inl)
      obtain ⟨context, phase, before, waiting, rfl, rfl⟩ := entered
      obtain ⟨below, -⟩ := List.getElem?_eq_some_iff.1 stepped
      exact ⟨context, phase, before, waiting, List.mem_set below _⟩
  | background | start => exact .inl known

/-- A watch stays as it is unless it is woken, or given up, or a poll of it takes a step. -/
theorem watch_kept (turn : activity.Turn move contexts tasks)
    (known : activity.contexts.watches.get? watch = some found)
    (below : watch.index < activity.contexts.nextWatch) :
    contexts.watches.get? watch = some found ∨
    (found.phase = .waiting ∧
      contexts.watches.get? watch = some { found with phase := .woken }) ∨
    activity.isIdle watch = true ∨
    ∃ number context stage, move = .advance number ∧
      activity.tasks[number]? = some (.poll watch context stage) ∧
      ContextTask.isOver (.poll watch context stage) = false := by
  cases turn with
  | still same _ =>
      rw [same]
      exact .inl known
  | watch =>
      have apart : (⟨activity.contexts.nextWatch⟩ : WatchId) ≠ watch := by
        intro same
        subst same
        exact Nat.lt_irrefl _ below
      exact .inl ((Table.get?_put_of_ne _ _ apart).trans known)
  | @unwatch other idle =>
      by_cases here : other = watch
      · exact .inr (.inr (.inl (here ▸ idle)))
      · rw [Contexts.get?_unwatch, if_neg here]
        exact .inl known
  | @advance number _ _ _ stepped step =>
      refine (step.watch_kept known).imp_right (.imp_right fun polled => .inr ?_)
      obtain ⟨context, stage, rfl⟩ := polled
      exact ⟨number, context, stage, rfl, stepped, step.left⟩
  | background | start => exact .inl known

end Turn

end ContextActivity

end Provision
