import Provision.Proofs.Contexts.ContextAging

/-!
# Watches and those who wake them

What the parties to a wake-up rely on.  `ContextActivity.Marking` says what cancellations have done
so far: each context is marked by one of them at most, and its watches are woken after that.
`ContextActivity.Polling` says that a poll has its watch to itself, so that meanwhile the watch can
only be woken.
-/

namespace Provision

/-! ### Who is canceled by what -/

namespace Contexts

/-- A mark that is news marks one context and no other. -/
theorem isCanceled_mark {contexts changed : Contexts} {id : ContextId}
    (news : contexts.mark id = (true, changed)) : contexts.isCanceled id = false ∧
      ∀ other, changed.isCanceled other = true ↔ id = other ∨ contexts.isCanceled other = true := by
  unfold mark at news
  split at news
  · cases news
  · next node found =>
      split at news
      · cases news
      · next usable =>
          obtain rfl := (Prod.mk.inj news).2
          refine ⟨by simpa [isCanceled, found] using usable, fun other => ?_⟩
          by_cases here : id = other <;> simp [isCanceled, get?_setNode, here]

/-- Changing the links of a context cancels nothing. -/
theorem isCanceled_relink {contexts : Contexts} {id : ContextId} {node : ContextNode}
    (found : contexts.nodes.get? id = some node) (links : List ContextId) (other : ContextId) :
    (contexts.setNode id { node with derived := links }).isCanceled other =
      contexts.isCanceled other := by
  rw [isCanceled_eq, marks?_relink found, ← isCanceled_eq]

/-- Taking the links of a context cancels nothing. -/
theorem isCanceled_takeLinks (contexts : Contexts) (id other : ContextId) :
    (contexts.takeLinks id).2.isCanceled other = contexts.isCanceled other := by
  unfold takeLinks
  cases found : contexts.nodes.get? id with
  | none => rfl
  | some node => exact isCanceled_relink found _ _

/-- Deriving a context changes nothing in who was canceled. -/
theorem isCanceled_create {contexts : Contexts} {id : ContextId}
    (below : id.index < contexts.nextContext) (node : ContextNode) :
    (contexts.create node).2.isCanceled id = contexts.isCanceled id := by
  rw [isCanceled, isCanceled, get?_create, if_neg (ne_next below)]

/-- Deriving a context with its link changes nothing in who was canceled. -/
theorem isCanceled_link {contexts : Contexts} (numbered : contexts.Numbered) {id : ContextId}
    (below : id.index < contexts.nextContext) (origin : ContextId) (canceled : Bool)
    (deadline : Option Int) :
    (contexts.link origin canceled deadline).2.isCanceled id = contexts.isCanceled id := by
  unfold link
  cases found : contexts.nodes.get? origin with
  | none => exact isCanceled_create below _
  | some node =>
      cases canceled with
      | true => exact isCanceled_create below _
      | false =>
          have apart := ne_next (numbered (Option.isSome_iff_exists.2 ⟨node, found⟩))
          have there := (contexts.get?_create { canceled := false, deadline } origin).trans
            ((if_neg apart).trans found)
          exact (isCanceled_relink there _ _).trans (isCanceled_create below _)

end Contexts

/-! ### What cancellations have done -/

namespace ContextTask

/-- The contexts that a cancellation has marked. -/
def marks : ContextTask → List ContextId
  | .cancellation _ marked _ => marked
  | _ => []

/-- Whether a cancellation has the watches of a context still to wake. -/
def wakes (id : ContextId) : ContextTask → Bool
  | .cancellation _ _ stages => decide (.wake id ∈ stages)
  | _ => false

namespace Step

variable {contexts after : Contexts} {task next : ContextTask} {id : ContextId}

/-- A context that a step marks was not canceled, and is now. -/
theorem marks (step : ContextTask.Step contexts task next after) (marked : id ∈ next.marks) :
    id ∈ task.marks ∨ contexts.isCanceled id = false ∧ after.isCanceled id = true := by
  cases step with
  | mark news =>
      obtain ⟨usable, canceled⟩ := Contexts.isCanceled_mark news
      rcases List.mem_cons.1 marked with rfl | before
      · exact .inr ⟨usable, (canceled _).2 (.inl rfl)⟩
      · exact .inl before
  | reach | pass | wake | take | leave => exact .inl marked
  | see | link | enter | canceled | usable | overdue | early | rouse | sleep => cases marked

theorem marks_subset (step : ContextTask.Step contexts task next after)
    (marked : id ∈ task.marks) : id ∈ next.marks := by
  cases step with
  | mark => exact List.mem_cons_of_mem _ marked
  | reach | pass | wake | take | leave => exact marked
  | see | link | enter | canceled | usable | overdue | early | rouse | sleep => cases marked

/-- A context is canceled by a step that marks it and has its watches to wake then. -/
theorem isCanceled (step : ContextTask.Step contexts task next after)
    (numbered : contexts.Numbered) (known : contexts.nodes.contains id = true)
    (canceled : after.isCanceled id = true) :
    contexts.isCanceled id = true ∨ next.wakes id = true := by
  cases step with
  | mark news =>
      refine (((Contexts.isCanceled_mark news).2 id).1 canceled).symm.imp_right fun same => ?_
      subst same
      exact decide_eq_true List.mem_cons_self
  | take => exact .inl ((contexts.isCanceled_takeLinks _ id).symm.trans canceled)
  | @link origin _ requested flag _ made =>
      have same := Contexts.isCanceled_link numbered (numbered known) origin flag
        (contexts.inherited origin requested)
      rw [made] at same
      exact .inl (same.symm.trans canceled)
  | enter =>
      unfold Contexts.await at canceled
      split at canceled <;> exact .inl canceled
  | reach | pass | wake | leave | see | canceled | usable | overdue | early | rouse | sleep =>
      exact .inl canceled

/-- The watches of a context are to be woken once it is marked and only then. -/
theorem wakes (step : ContextTask.Step contexts task next after) (waking : next.wakes id = true) :
    task.wakes id = true ∨ id ∈ next.marks ∧ contexts.isCanceled id = false := by
  cases step with
  | mark news =>
      rcases List.mem_cons.1 (of_decide_eq_true waking) with same | before
      · obtain rfl := CancelStage.wake.inj same
        exact .inr ⟨List.mem_cons_self, (Contexts.isCanceled_mark news).1⟩
      · exact .inl (decide_eq_true (List.mem_cons_of_mem _ before))
  | reach =>
      refine .inl ?_
      split at waking <;> simpa [ContextTask.wakes] using waking
  | pass | take | leave => exact .inl (by simpa [ContextTask.wakes] using waking)
  | wake =>
      have left := (List.mem_cons.1 (of_decide_eq_true waking)).resolve_left nofun
      exact .inl (decide_eq_true (List.mem_cons_of_mem _ left))
  | see | link | enter | canceled | usable | overdue | early | rouse | sleep => cases waking

/-- What is to be woken stays so until it is woken. -/
theorem wakes_or_wake (step : ContextTask.Step contexts task next after)
    (waking : task.wakes id = true) : next.wakes id = true ∨ after = contexts.wake id := by
  cases step with
  | @wake _ other =>
      rcases List.mem_cons.1 (of_decide_eq_true waking) with same | later
      · obtain rfl := CancelStage.wake.inj same
        exact .inr rfl
      · exact .inl (decide_eq_true (List.mem_cons_of_mem _ later))
  | reach =>
      refine .inl ?_
      split <;> simpa [ContextTask.wakes] using waking
  | mark =>
      have left := (List.mem_cons.1 (of_decide_eq_true waking)).resolve_left nofun
      exact .inl (decide_eq_true (List.mem_cons_of_mem _ left))
  | pass | take | leave => exact .inl (by simpa [ContextTask.wakes] using waking)
  | see | link | enter | canceled | usable | overdue | early | rouse | sleep => cases waking

/-- A poll goes on as a poll. -/
theorem poll {watch : WatchId} {context : ContextId} {stage : PollStage}
    (step : ContextTask.Step contexts task (.poll watch context stage) after) :
    ∃ before, task = .poll watch context before := by
  cases step <;> exact ⟨_, rfl⟩

/-- A poll that enters goes on to look, and its watch waits. -/
theorem enters {watch : WatchId} {context : ContextId}
    (step : ContextTask.Step contexts (.poll watch context .enter) next after) :
    next = .poll watch context .look ∧ after = contexts.await watch := by
  cases step
  exact ⟨rfl, rfl⟩

/-- A poll that looks and ends saw a cancellation. -/
theorem looks {watch : WatchId} {context : ContextId}
    (step : ContextTask.Step contexts (.poll watch context .look) next after) :
    contexts.isCanceled context = true ∧ next = .poll watch context (.ended (some .canceled)) ∧
        after = contexts.unwatch watch ∨
      contexts.isCanceled context = false ∧ next = .poll watch context .time ∧
        after = contexts := by
  cases step with
  | canceled canceled => exact .inl ⟨canceled, rfl, rfl⟩
  | usable usable => exact .inr ⟨usable, rfl, rfl⟩

/-- The watch of a poll that goes on stays, and waits if the poll enters it now. -/
theorem watch_of_poll {watch : WatchId} {context : ContextId} {before stage : PollStage}
    (step : ContextTask.Step contexts (.poll watch context before) (.poll watch context stage)
      after)
    (left : ContextTask.isOver (.poll watch context stage) = false) {found : Watch}
    (known : contexts.watches.get? watch = some found) :
    after.watches.get? watch =
      some { found with phase := if before = .enter then .waiting else found.phase } := by
  cases step with
  | enter => rw [Contexts.get?_await, if_pos rfl, known, Option.map_some, if_pos rfl]
  | canceled | overdue | sleep => cases left
  | usable | early | rouse => exact known

end Step

end ContextTask

namespace ContextActivity

variable {activity : ContextActivity} {move : ContextMove}

/-- What cancellations have marked: each context at most once, and before its watches are woken. -/
structure Marking (activity : ContextActivity) : Prop where
  canceled : ∀ {task : ContextTask} {id}, task ∈ activity.tasks → id ∈ task.marks →
    activity.contexts.isCanceled id = true
  once : ∀ {number other : Nat} {task next : ContextTask} {id},
    activity.tasks[number]? = some task → activity.tasks[other]? = some next →
      id ∈ task.marks → id ∈ next.marks → number = other
  wakes : ∀ {task : ContextTask} {id}, task ∈ activity.tasks → task.wakes id = true →
    id ∈ task.marks

/-- A task that begins has marked nothing. -/
theorem Begins.marks {task : ContextTask} (begins : activity.Begins task) : task.marks = [] := by
  cases begins <;> rfl

/-- A task that begins has nobody to wake. -/
theorem Begins.wakes {task : ContextTask} (begins : activity.Begins task) (id : ContextId) :
    task.wakes id = false := by
  cases begins <;> rfl

/-- A cancellation that has marked a context had done so before, or does so now. -/
theorem Turn.marks {contexts : Contexts} {tasks : List ContextTask}
    (turn : activity.Turn move contexts tasks) {number : Nat} {task : ContextTask} {id : ContextId}
    (there : tasks[number]? = some task) (marked : id ∈ task.marks) :
    (∃ before, activity.tasks[number]? = some before ∧ id ∈ before.marks) ∨
      move = .advance number ∧ activity.contexts.isCanceled id = false ∧
        contexts.isCanceled id = true := by
  rcases turn.found there with ⟨-, before⟩ | ⟨before, moved, found, step⟩ | ⟨-, begins, -⟩
  · exact .inl ⟨task, before, marked⟩
  · rcases step.marks marked with earlier | ⟨usable, canceled⟩
    · exact .inl ⟨before, found, earlier⟩
    · exact .inr ⟨moved, usable, canceled⟩
  · rw [begins.marks] at marked
    cases marked

namespace Marking

/-- No cancellation has done anything to begin with. -/
theorem initial : Marking {} where
  canceled member := by cases member
  once there := by cases there
  wakes member := by cases member

section Perform

variable (marking : activity.Marking)
  (allowed : activity.allows move = true) {number other : Nat} {task next : ContextTask}
  {id : ContextId}

include marking allowed

/-- What a task marked is canceled after every move. -/
theorem canceled_perform (orderly : activity.Orderly)
    (member : task ∈ (activity.perform move).tasks) (marked : id ∈ task.marks) :
    (activity.perform move).contexts.isCanceled id = true := by
  obtain ⟨number, there⟩ := List.mem_iff_getElem?.1 member
  rcases (turn allowed).marks there marked with ⟨before, found, earlier⟩ | ⟨-, -, canceled⟩
  · have already := marking.canceled (List.mem_of_getElem? found) earlier
    exact (ages_perform orderly allowed).isCanceled already
  · exact (Contexts.isCanceled_releaseUnheld ..).trans canceled

/-- A context that is marked already is not marked again. -/
theorem once_perform (there : (activity.perform move).tasks[number]? = some task)
    (found : (activity.perform move).tasks[other]? = some next)
    (one : id ∈ task.marks) (two : id ∈ next.marks) : number = other := by
  have before : ∀ {number : Nat} {task : ContextTask}, activity.tasks[number]? = some task →
      id ∈ task.marks → activity.contexts.isCanceled id ≠ false :=
    fun there marked usable =>
      Bool.noConfusion (usable.symm.trans (marking.canceled (List.mem_of_getElem? there) marked))
  rcases (turn allowed).marks there one with ⟨_, first, marked⟩ | ⟨moved, usable, -⟩ <;>
    rcases (turn allowed).marks found two with ⟨_, second, again⟩ | ⟨moves, unmarked, -⟩
  · exact marking.once first second marked again
  · exact absurd unmarked (before first marked)
  · exact absurd usable (before second again)
  · exact ContextMove.advance.inj (moved.symm.trans moves)

/-- After every move tasks are to wake only what they marked. -/
theorem wakes_perform (member : task ∈ (activity.perform move).tasks)
    (waking : task.wakes id = true) : id ∈ task.marks := by
  rcases (turn allowed).mem member with earlier | ⟨before, found, step⟩ | begins
  · exact marking.wakes earlier waking
  · rcases step.wakes waking with waited | ⟨marked, -⟩
    · exact step.marks_subset (marking.wakes found waited)
    · exact marked
  · rw [begins.wakes] at waking
    cases waking

/-- Every move that is allowed keeps what cancellations have done. -/
theorem perform (orderly : activity.Orderly) : (activity.perform move).Marking where
  canceled := marking.canceled_perform allowed orderly
  once := marking.once_perform allowed
  wakes := marking.wakes_perform allowed

end Perform

end Marking

/-- A context that was there is canceled by a move only if its watches are to be woken then. -/
theorem Turn.isCanceled {contexts : Contexts} {tasks : List ContextTask}
    (turn : activity.Turn move contexts tasks) (numbered : activity.contexts.Numbered)
    {id : ContextId} (known : activity.contexts.nodes.contains id = true)
    (canceled : contexts.isCanceled id = true) :
    activity.contexts.isCanceled id = true ∨ ∃ task ∈ tasks, task.wakes id = true := by
  cases turn with
  | still same _ =>
      rw [same] at canceled
      exact .inl canceled
  | background => exact .inl ((Contexts.isCanceled_create (numbered known) _).symm.trans canceled)
  | @advance number _ next _ found step =>
      refine (step.isCanceled numbered known canceled).imp_right fun waking => ?_
      obtain ⟨below, -⟩ := List.getElem?_eq_some_iff.1 found
      exact ⟨next, List.mem_set below _, waking⟩
  | watch | unwatch | start => exact .inl canceled

/-- Watches that are to be woken are so until they are woken. -/
theorem Turn.wakes {contexts : Contexts} {tasks : List ContextTask}
    (turn : activity.Turn move contexts tasks) {task : ContextTask} {id : ContextId}
    (member : task ∈ activity.tasks) (waking : task.wakes id = true) :
    (∃ next ∈ tasks, next.wakes id = true) ∨ contexts = activity.contexts.wake id := by
  obtain ⟨number, there⟩ := List.mem_iff_getElem?.1 member
  by_cases moved : move = .advance number
  · subst moved
    obtain ⟨_, next, found, rfl, step⟩ := turn.advances
    obtain rfl := Option.some.inj (found.symm.trans there)
    obtain ⟨below, -⟩ := List.getElem?_eq_some_iff.1 found
    exact (step.wakes_or_wake waking).imp_left fun later => ⟨next, List.mem_set below _, later⟩
  · exact .inl ⟨task, List.mem_of_getElem? (turn.task_kept there moved), waking⟩

/-! ### What polls rely on -/

/-- A poll of a watch is under way. -/
structure Polls (activity : ContextActivity) (number : Nat) (watch : WatchId) (context : ContextId)
    (stage : PollStage) : Prop where
  there : activity.tasks[number]? = some (.poll watch context stage)
  left : ContextTask.isOver (.poll watch context stage) = false

section Polls

variable {number other : Nat} {watch : WatchId} {found : Watch} {context another : ContextId}
  {stage next : PollStage}

/-- Nobody polls an idle watch. -/
theorem Polls.not_idle (polls : activity.Polls number watch context stage) :
    activity.isIdle watch = false := by
  refine Bool.eq_false_iff.2 fun idle => ?_
  have done := List.all_eq_true.1 idle _ (List.mem_of_getElem? polls.there)
  simp [polls.left] at done

/-- A poll that is under way after a move was so before, or has just begun. -/
theorem Polls.before (allowed : activity.allows move = true)
    (polls : (activity.perform move).Polls number watch context stage) :
    (move ≠ .advance number ∧ activity.Polls number watch context stage) ∨
    (∃ before, move = .advance number ∧ activity.Polls number watch context before ∧
      ContextTask.Step activity.contexts (.poll watch context before) (.poll watch context stage)
        (activity.act move).contexts) ∨
    (activity.Begins (.poll watch context stage) ∧ number = activity.tasks.length ∧
      (activity.act move).contexts = activity.contexts) := by
  rcases (turn allowed).found polls.there with
    ⟨still, there⟩ | ⟨task, moved, there, step⟩ | ⟨last, begins, same⟩
  · exact .inl ⟨still, there, polls.left⟩
  · obtain ⟨before, rfl⟩ := step.poll
    exact .inr (.inl ⟨before, moved, ⟨there, step.left⟩, step⟩)
  · exact .inr (.inr ⟨begins, last, same⟩)

/-- A poll under way has a watch of its own, which is fresh only as long as no poll has entered it
among the waiting ones. -/
structure Polling (activity : ContextActivity) : Prop where
  known : ∀ {number watch context stage}, activity.Polls number watch context stage →
    ∃ phase, activity.contexts.watches.get? watch = some ⟨context, phase⟩
  single : ∀ {number other watch context another stage next},
    activity.Polls number watch context stage → activity.Polls other watch another next →
      number = other
  fresh : ∀ {watch : WatchId} {found : Watch} {context stage},
    activity.contexts.watches.get? watch = some found → found.phase = .fresh →
      ContextTask.poll watch context stage ∈ activity.tasks → stage = .enter
  numbered : ∀ {watch : WatchId} {context stage},
    ContextTask.poll watch context stage ∈ activity.tasks →
      watch.index < activity.contexts.nextWatch

namespace Polling

/-- Nobody polls to begin with. -/
theorem initial : Polling {} where
  known polls := by cases polls.there
  single polls := by cases polls.there
  fresh there := by simp [Table.get?, Table.find?] at there
  numbered member := by cases member

section Perform

variable (polling : activity.Polling) (allowed : activity.allows move = true)

include polling allowed

/-- As long as a poll goes on, nobody else touches its watch but to wake it. -/
theorem kept (polls : activity.Polls number watch context stage) (still : move ≠ .advance number)
    (known : activity.contexts.watches.get? watch = some found) :
    (activity.perform move).contexts.watches.get? watch = some found ∨ found.phase = .waiting ∧
      (activity.perform move).contexts.watches.get? watch =
        some { found with phase := .woken } := by
  have below := polling.numbered (List.mem_of_getElem? polls.there)
  rw [ContextActivity.perform, tidy, Contexts.watches_releaseUnheld]
  rcases (turn allowed).watch_kept known below with
    same | woken | idle | ⟨other, another, next, rfl, there, left⟩
  · exact .inl same
  · exact .inr woken
  · rw [polls.not_idle] at idle
    cases idle
  · exact absurd (congrArg ContextMove.advance (polling.single ⟨there, left⟩ polls)) still

/-- A watch that was woken stays so while its poll stands still. -/
theorem isWoken (polls : activity.Polls number watch context stage)
    (still : move ≠ .advance number) (woken : activity.contexts.isWoken watch = true) :
    (activity.perform move).contexts.isWoken watch = true := by
  obtain ⟨found, known, phase⟩ := (Option.any_eq_true ..).1 woken
  rcases polling.kept allowed polls still known with same | ⟨waits, -⟩
  · simp [Contexts.isWoken, same, of_decide_eq_true phase]
  · rw [of_decide_eq_true phase] at waits
    cases waits

/-- After every move the watch of a poll is there, for its context. -/
theorem known_perform (polls : (activity.perform move).Polls number watch context stage) :
    ∃ phase, (activity.perform move).contexts.watches.get? watch = some ⟨context, phase⟩ := by
  have watches : (activity.perform move).contexts.watches =
      (activity.act move).contexts.watches := Contexts.watches_releaseUnheld ..
  rcases polls.before allowed with
    ⟨still, before⟩ | ⟨before, rfl, polled, step⟩ | ⟨begins, -, same⟩
  · obtain ⟨phase, known⟩ := polling.known before
    rcases polling.kept allowed before still known with same | ⟨-, woken⟩
    · exact ⟨phase, same⟩
    · exact ⟨_, woken⟩
  · obtain ⟨phase, known⟩ := polling.known polled
    exact ⟨_, watches ▸ step.watch_of_poll polls.left known⟩
  · cases begins with
    | @poll _ found known _ => exact ⟨found.phase, by rw [watches, same]; exact known⟩

/-- Nobody begins to poll a watch that is being polled. -/
theorem single_perform (first : (activity.perform move).Polls number watch context stage)
    (second : (activity.perform move).Polls other watch another next) : number = other := by
  have earlier : ∀ {number context stage},
      (activity.perform move).Polls number watch context stage →
        (∃ before, activity.Polls number watch context before) ∨
          activity.isIdle watch = true ∧ number = activity.tasks.length := by
    intro number context stage polls
    rcases polls.before allowed with ⟨-, before⟩ | ⟨before, -, polled, -⟩ | ⟨begins, last, -⟩
    · exact .inl ⟨stage, before⟩
    · exact .inl ⟨before, polled⟩
    · cases begins with
      | poll _ idle => exact .inr ⟨idle, last⟩
  rcases earlier first with ⟨_, one⟩ | ⟨idle, last⟩ <;>
    rcases earlier second with ⟨_, two⟩ | ⟨free, final⟩
  · exact polling.single one two
  · exact absurd one.not_idle (Bool.not_eq_false _ ▸ free)
  · exact absurd two.not_idle (Bool.not_eq_false _ ▸ idle)
  · exact last.trans final.symm

/-- A poll has a watch with a number in use. -/
theorem numbered_act (orderly : activity.Orderly)
    (member : .poll watch context stage ∈ (activity.act move).tasks) :
    watch.index < activity.contexts.nextWatch := by
  rcases (turn allowed).mem member with before | ⟨task, before, step⟩ | begins
  · exact polling.numbered before
  · obtain ⟨_, rfl⟩ := step.poll
    exact polling.numbered before
  · cases begins with
    | poll known _ => exact (orderly.watched known).2

/-- After every move only a poll that did not enter has a fresh watch. -/
theorem fresh_perform (orderly : activity.Orderly)
    (there : (activity.perform move).contexts.watches.get? watch = some found)
    (fresh : found.phase = .fresh)
    (member : .poll watch context stage ∈ (activity.perform move).tasks) : stage = .enter := by
  rw [ContextActivity.perform, tidy, Contexts.watches_releaseUnheld] at there
  rcases (turn allowed).watched there with
    known | ⟨_, _, _, waits, _⟩ | ⟨_, woken⟩ | ⟨_, rfl, _⟩
  · rcases (turn allowed).mem member with before | ⟨task, before, step⟩ | begins
    · exact polling.fresh known fresh before
    · -- a poll that enters the watch leaves it waiting
      obtain ⟨stage, rfl⟩ := step.poll
      obtain rfl := polling.fresh known fresh before
      obtain ⟨-, entered⟩ := step.enters
      rw [entered, Contexts.get?_await, if_pos rfl, known] at there
      have waits := congrArg Watch.phase (Option.some.inj there)
      rw [fresh] at waits
      cases waits
    · cases begins with
      | poll same _ =>
          obtain rfl := Option.some.inj (known.symm.trans same)
          exact if_pos fresh
  · rw [fresh] at waits
    cases waits
  · rw [fresh] at woken
    cases woken
  · exact absurd (polling.numbered_act allowed orderly member) (Nat.lt_irrefl _)

/-- Every move that is allowed keeps what polls rely on. -/
theorem perform (orderly : activity.Orderly) : (activity.perform move).Polling where
  known := polling.known_perform allowed
  single := polling.single_perform allowed
  fresh := polling.fresh_perform allowed orderly
  numbered := by
    intro watch context stage member
    rw [ContextActivity.perform, tidy, Contexts.nextWatch_releaseUnheld]
    exact Nat.lt_of_lt_of_le (polling.numbered_act allowed orderly member)
      (turn allowed).nextWatch

end Perform

end Polling

end Polls

end ContextActivity

end Provision
