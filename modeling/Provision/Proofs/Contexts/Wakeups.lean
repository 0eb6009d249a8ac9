import Provision.Proofs.Contexts.WatchedContexts

/-!
# Wake-ups

Whoever waits for the end of a context is told when it is canceled.  A poll enters its watch among
the waiting ones before it looks at the mark, and a cancellation sets the mark before it wakes the
waiting watches, so a watch that a cancellation passes over has a poll that is still to see the
mark.

`ContextActivity.Attentive` is the invariant: no watch waits for what has happened already.

Main statement: `no_wakeup_lost`.
-/

namespace Provision

namespace ContextActivity

variable {activity later : ContextActivity} {move : ContextMove}

/-! ### Nobody waits in vain -/

/-- A context is canceled, and no cancellation has its watches still to wake. -/
structure Announced (activity : ContextActivity) (id : ContextId) : Prop where
  canceled : activity.contexts.isCanceled id = true
  told : ∀ {task : ContextTask}, task ∈ activity.tasks → task.wakes id = false

/-- A watch waits for a context that is canceled and whose watches were woken only while a poll of
it is about to look at the context. -/
structure Attentive (activity : ContextActivity) : Prop where
  orderly : activity.Orderly
  marking : activity.Marking
  polling : activity.Polling
  heard : ∀ {id watch}, activity.Announced id →
    activity.contexts.watches.get? watch = some ⟨id, .waiting⟩ →
      ∃ number, activity.Polls number watch id .look

/-- What was announced before, if a watch still waits for it. -/
theorem Announced.before (orderly : activity.Orderly) (allowed : activity.allows move = true)
    {id : ContextId} (announced : (activity.perform move).Announced id) {watch : WatchId}
    (known : activity.contexts.watches.get? watch = some ⟨id, .waiting⟩)
    (there : (activity.act move).contexts.watches.get? watch = some ⟨id, .waiting⟩) :
    activity.Announced id := by
  have turned := turn allowed
  have canceled := (Contexts.isCanceled_releaseUnheld ..).symm.trans announced.canceled
  constructor
  · rcases turned.isCanceled orderly.numbered (orderly.watched known).1 canceled with
      before | ⟨task, member, waking⟩
    · exact before
    · rw [announced.told member] at waking
      cases waking
  · intro task member
    refine Bool.eq_false_iff.2 fun waking => ?_
    rcases turned.wakes member waking with ⟨next, after, later⟩ | woken
    · rw [announced.told after] at later
      cases later
    · rw [woken, Contexts.get?_wake, known] at there
      simp at there

/-- An activity is attentive to begin with. -/
theorem Attentive.initial : Attentive {} where
  orderly := .initial
  marking := .initial
  polling := .initial
  heard _ there := by simp [Table.get?, Table.find?] at there

/-- Every move that is allowed keeps an activity attentive. -/
theorem Attentive.perform (attentive : activity.Attentive)
    (allowed : activity.allows move = true) : (activity.perform move).Attentive := by
  have turned := turn allowed
  have orderly := attentive.orderly.perform allowed
  have polling := attentive.polling.perform allowed attentive.orderly
  refine ⟨orderly, attentive.marking.perform allowed attentive.orderly, polling, ?_⟩
  intro id watch announced there
  have found := Contexts.watches_releaseUnheld .. ▸ there
  rcases turned.watched found with known | ⟨context, _, _, _, entered⟩ | ⟨_, woken⟩ | new
  · have before := announced.before attentive.orderly allowed known found
    obtain ⟨number, polls⟩ := attentive.heard before known
    by_cases moved : move = .advance number
    · -- the poll that is about to look sees the mark and is done
      subst moved
      obtain ⟨_, _, looks, -, step⟩ := turned.advances
      obtain rfl := Option.some.inj (looks.symm.trans polls.there)
      rcases step.looks with ⟨-, -, gone⟩ | ⟨usable, -⟩
      · rw [gone, Contexts.get?_unwatch, if_pos rfl] at found
        cases found
      · rw [before.canceled] at usable
        cases usable
    · exact ⟨number, turned.task_kept polls.there moved, polls.left⟩
  · obtain ⟨number, looks⟩ := List.mem_iff_getElem?.1 entered
    have polls : (activity.perform move).Polls number watch context .look := ⟨looks, rfl⟩
    obtain ⟨phase, same⟩ := polling.known polls
    obtain rfl : id = context := congrArg Watch.context (Option.some.inj (there.symm.trans same))
    exact ⟨number, polls⟩
  · cases woken
  · cases new.2.2.1

/-- An activity is attentive after any run. -/
theorem Runs.attentive {moves : List ContextMove} (runs : activity.Runs moves later)
    (attentive : activity.Attentive) : later.Attentive :=
  runs.preserves Attentive.perform attentive

/-- What was announced stays so by every move that is allowed. -/
theorem Announced.perform {id : ContextId} (announced : activity.Announced id)
    (attentive : activity.Attentive) (allowed : activity.allows move = true) :
    (activity.perform move).Announced id := by
  have turned := turn allowed
  refine ⟨(ages_perform attentive.orderly allowed).isCanceled announced.canceled, ?_⟩
  intro task member
  refine Bool.eq_false_iff.2 fun waking => ?_
  rcases turned.mem member with before | ⟨before, found, step⟩ | begins
  · rw [announced.told before] at waking
    cases waking
  · rcases step.wakes waking with waited | ⟨-, usable⟩
    · rw [announced.told found] at waited
      cases waited
    · rw [announced.canceled] at usable
      cases usable
  · rw [begins.wakes] at waking
    cases waking

/-- The marks of a cancellation that has returned are announced. -/
theorem Attentive.announced (attentive : activity.Attentive) {call : Nat} {source id : ContextId}
    {marked : List ContextId}
    (called : activity.tasks[call]? = some (.cancellation source marked []))
    (member : id ∈ marked) : activity.Announced id := by
  refine ⟨attentive.marking.canceled (List.mem_of_getElem? called) member, fun there => ?_⟩
  refine Bool.eq_false_iff.2 fun waking => ?_
  obtain ⟨number, found⟩ := List.mem_iff_getElem?.1 there
  have same := attentive.marking.once called found member (attentive.marking.wakes there waking)
  subst same
  obtain rfl := Option.some.inj (called.symm.trans found)
  simp [ContextTask.wakes] at waking

/-- What was announced stays so in any run. -/
theorem Runs.announced {moves : List ContextMove} (runs : activity.Runs moves later)
    (attentive : activity.Attentive) {id : ContextId} (announced : activity.Announced id) :
    later.Announced id := by
  induction runs with
  | none => exact announced
  | snoc before allowed ih => exact ih.perform (before.attentive attentive) allowed

end ContextActivity

/-! ### Polls come to an end -/

/-- How many steps a poll still takes till it sees that its context is canceled.  It looks at the
time or goes to rest only if its watch was woken. -/
inductive PollStage.Settling (woken : Bool) : Nat → PollStage → Prop where
  | canceled : Settling woken 0 (.ended (some .canceled))
  | look : Settling woken 1 .look
  | enter : Settling woken 2 .enter
  | rest : woken = true → Settling woken 3 .rest
  | time : woken = true → Settling woken 4 .time

theorem PollStage.Settling.mono {woken after : Bool} {left : Nat} {stage : PollStage}
    (settling : stage.Settling woken left)
    (stays : woken = true → stage = .rest ∨ stage = .time → after = true) :
    stage.Settling after left := by
  cases settling with
  | canceled => exact .canceled
  | look => exact .look
  | enter => exact .enter
  | rest woken => exact .rest (stays woken (.inl rfl))
  | time woken => exact .time (stays woken (.inr rfl))

/-- Every step brings a poll closer to its end, unless the deadline comes first. -/
theorem PollStage.Settling.step {contexts after : Contexts} {watch : WatchId} {id : ContextId}
    {left : Nat} {stage next : PollStage} (settling : stage.Settling (contexts.isWoken watch) left)
    (canceled : contexts.isCanceled id = true)
    (step : ContextTask.Step contexts (.poll watch id stage) (.poll watch id next) after) :
    (∃ fewer, fewer + 1 = left ∧ next.Settling (after.isWoken watch) fewer) ∨
      left = 4 ∧ next = .ended (some .deadlineExceeded) ∧ contexts.isOverdue id = true := by
  cases settling with
  | canceled => cases step
  | look =>
      cases step with
      | canceled => exact .inl ⟨0, rfl, .canceled⟩
      | usable usable =>
          rw [canceled] at usable
          cases usable
  | enter =>
      cases step
      exact .inl ⟨1, rfl, .look⟩
  | rest woken =>
      cases step with
      | rouse => exact .inl ⟨2, rfl, .enter⟩
      | sleep calm => simp [Contexts.rouses, woken] at calm
  | time woken =>
      cases step with
      | overdue overdue => exact .inr ⟨rfl, rfl, overdue⟩
      | early => exact .inl ⟨3, rfl, .rest woken⟩

namespace ContextActivity

variable {activity later : ContextActivity}

/-- What is known of a poll after some steps of its own. -/
structure Prompt (activity : ContextActivity) (id : ContextId) (number bound count : Nat) :
    Prop where
  unbegun : activity.tasks.length ≤ number → count = 0
  settling : ∀ {watch stage}, activity.tasks[number]? = some (.poll watch id stage) →
    (∃ left, left + count ≤ bound ∧ stage.Settling (activity.contexts.isWoken watch) left) ∨
      4 ≤ bound ∧ stage = .ended (some .deadlineExceeded) ∧
        activity.contexts.isOverdue id = true

namespace Prompt

variable {id : ContextId} {number bound count : Nat}

/-- A poll that did not begin took no steps. -/
theorem of_unbegun (unbegun : activity.tasks.length ≤ number) :
    activity.Prompt id number bound 0 where
  unbegun _ := rfl
  settling there := by
    rw [List.getElem?_eq_none unbegun] at there
    cases there

/-- A poll under way sees the mark soon. -/
theorem of_left (attentive : activity.Attentive) (announced : activity.Announced id)
    {watch : WatchId} {stage : PollStage} (polls : activity.Polls number watch id stage) :
    activity.Prompt id number 4 0 where
  unbegun _ := rfl
  settling := by
    intro other next there
    obtain ⟨rfl, rfl⟩ : watch = other ∧ stage = next := by
      simpa using polls.there.symm.trans there
    refine .inl ?_
    obtain ⟨phase, known⟩ := attentive.polling.known polls
    have member := List.mem_of_getElem? there
    cases phase with
    | fresh =>
        obtain rfl := attentive.polling.fresh known rfl member
        exact ⟨2, by decide, .enter⟩
    | waiting =>
        obtain ⟨other, looking⟩ := attentive.heard announced known
        obtain rfl := attentive.polling.single polls looking
        have same := Option.some.inj (polls.there.symm.trans looking.there)
        obtain rfl : stage = .look := by simpa using same
        exact ⟨1, by decide, .look⟩
    | woken =>
        have woken : activity.contexts.isWoken watch = true := by simp [Contexts.isWoken, known]
        cases stage with
        | enter => exact ⟨2, by decide, .enter⟩
        | look => exact ⟨1, by decide, .look⟩
        | time => exact ⟨4, by decide, .time woken⟩
        | rest => exact ⟨3, by decide, .rest woken⟩
        | ended => cases polls.left

/-- Every move that is allowed keeps a poll prompt. -/
theorem perform (prompt : activity.Prompt id number bound count) (attentive : activity.Attentive)
    (announced : activity.Announced id) (enough : 3 ≤ bound)
    (allowed : activity.allows move = true) :
    (activity.perform move).Prompt id number bound (count + [move].count (.advance number)) := by
  have turned := turn allowed
  have ages := ages_perform attentive.orderly allowed
  have woken : ∀ watch, (activity.perform move).contexts.isWoken watch =
      (activity.act move).contexts.isWoken watch := Contexts.isWoken_releaseUnheld _ _
  refine ⟨fun unbegun => ?_, fun {watch stage} there => ?_⟩
  · have before := Nat.le_trans turned.length_le unbegun
    rw [prompt.unbegun before, Nat.zero_add, List.count_eq_zero, List.mem_singleton]
    intro moved
    subst moved
    obtain ⟨_, _, found, -⟩ := turned.advances
    rw [List.getElem?_eq_none before] at found
    cases found
  · rw [woken]
    rcases turned.found there with
      ⟨still, before⟩ | ⟨before, rfl, found, step⟩ | ⟨rfl, begins, same⟩
    · rw [List.count_eq_zero.2 fun moved => still (List.mem_singleton.1 moved).symm, Nat.add_zero]
      rcases prompt.settling before with ⟨left, bounded, settling⟩ | ⟨four, rfl, overdue⟩
      · refine .inl ⟨left, bounded, settling.mono fun was rests => ?_⟩
        have polls : activity.Polls number watch id stage :=
          ⟨before, by rcases rests with rfl | rfl <;> rfl⟩
        exact woken watch ▸ attentive.polling.isWoken allowed polls still was
      · exact .inr ⟨four, rfl, ages.isOverdue overdue⟩
    · obtain ⟨stage, rfl⟩ := step.poll
      rw [List.count_singleton_self]
      rcases prompt.settling found with ⟨left, bounded, settling⟩ | ⟨-, rfl, -⟩
      · rcases settling.step announced.canceled step with
          ⟨fewer, rfl, settles⟩ | ⟨rfl, rfl, overdue⟩
        · exact .inl ⟨fewer, by omega, settles⟩
        · exact .inr ⟨by omega, rfl, ages.isOverdue overdue⟩
      · cases step
    · rw [prompt.unbegun (Nat.le_refl _), Nat.zero_add, same]
      have first : [move].count (.advance activity.tasks.length) = 0 := by
        refine List.count_eq_zero.2 fun moved => ?_
        obtain rfl := List.mem_singleton.1 moved
        obtain ⟨_, _, found, -⟩ := turned.advances
        simp at found
      rw [first]
      cases begins with
      | @poll _ found known idle =>
          obtain ⟨context, phase⟩ := found
          cases phase with
          | fresh => exact .inl ⟨2, by omega, .enter⟩
          | waiting =>
              -- the context has been announced, so a poll would be about to look
              obtain ⟨_, polls⟩ := attentive.heard announced known
              rw [polls.not_idle] at idle
              cases idle
          | woken =>
              exact .inl ⟨3, by omega, .rest (by simp [Contexts.isWoken, known])⟩

/-- A poll stays prompt in any run. -/
theorem run (prompt : activity.Prompt id number bound 0) (attentive : activity.Attentive)
    (announced : activity.Announced id) (enough : 3 ≤ bound) {moves : List ContextMove}
    (runs : activity.Runs moves later) :
    later.Prompt id number bound (moves.count (.advance number)) := by
  induction runs with
  | none => exact prompt
  | snoc before allowed ih =>
      rw [List.count_append]
      exact ih.perform (before.attentive attentive) (before.announced attentive announced) enough
        allowed

/-- A poll that has not ended can go on, and does not take long. -/
theorem ends (prompt : activity.Prompt id number bound count) {watch : WatchId}
    {stage : PollStage} (there : activity.tasks[number]? = some (.poll watch id stage)) :
    stage = .ended (some .canceled) ∨
      (4 ≤ bound ∧ stage = .ended (some .deadlineExceeded) ∧
        activity.contexts.isOverdue id = true) ∨
      activity.allows (.advance number) = true ∧ count < bound := by
  rcases prompt.settling there with ⟨left, bounded, settling⟩ | overdue
  · cases settling with
    | canceled => exact .inl rfl
    | look | enter | rest | time =>
        refine .inr (.inr ⟨?_, by omega⟩)
        simp [allows, there, ContextTask.isOver, ContextTask.needs?]
  · exact .inr (.inl overdue)

end Prompt

/-- Everybody who watches a context comes to know that it is canceled. -/
structure Heard (activity : ContextActivity) (id : ContextId) : Prop where
  /-- A watch that nobody is polling was woken since its last poll, or was never polled. -/
  idle : ∀ {watch found}, activity.contexts.watches.get? watch = some found →
    found.context = id → activity.isIdle watch = true →
      found.phase = .woken ∨
        found.phase = .fresh ∧ ∀ context stage, .poll watch context stage ∉ activity.tasks
  /-- A poll that begins from now on tells that the context is canceled and nothing else, after
  three steps of its own at most, and nothing keeps it from them. -/
  later : ∀ {moves next}, activity.Runs moves next → ∀ {number watch stage},
    activity.tasks.length ≤ number → next.tasks[number]? = some (.poll watch id stage) →
      stage = .ended (some .canceled) ∨
        next.allows (.advance number) = true ∧ moves.count (.advance number) < 3
  /-- A poll that is under way does so after four more steps at most, unless it sees that the
  deadline has come. -/
  underway : ∀ {moves next}, activity.Runs moves next → ∀ {number watch before stage},
    activity.Polls number watch id before → next.tasks[number]? = some (.poll watch id stage) →
      stage = .ended (some .canceled) ∨
        (stage = .ended (some .deadlineExceeded) ∧ next.contexts.isOverdue id = true) ∨
        next.allows (.advance number) = true ∧ moves.count (.advance number) < 4

/-- What was announced is heard. -/
theorem Announced.heard {id : ContextId} (announced : activity.Announced id)
    (attentive : activity.Attentive) : activity.Heard id := by
  refine ⟨?_, ?_, ?_⟩
  · intro watch found known watches idle
    obtain ⟨context, phase⟩ := found
    subst watches
    cases phase with
    | fresh =>
        refine .inr ⟨rfl, fun context stage member => ?_⟩
        obtain rfl := attentive.polling.fresh known rfl member
        obtain ⟨number, there⟩ := List.mem_iff_getElem?.1 member
        have polls : activity.Polls number watch context .enter := ⟨there, rfl⟩
        rw [polls.not_idle] at idle
        cases idle
    | waiting =>
        obtain ⟨_, polls⟩ := attentive.heard announced known
        rw [polls.not_idle] at idle
        cases idle
    | woken => exact .inl rfl
  · intro moves next runs number watch stage unbegun there
    have prompt := (Prompt.of_unbegun unbegun).run attentive announced (Nat.le_refl 3) runs
    rcases prompt.ends there with canceled | ⟨four, -⟩ | open_
    · exact .inl canceled
    · exact absurd four (by decide)
    · exact .inr open_
  · intro moves next runs number watch before stage polls there
    have prompt := (Prompt.of_left attentive announced polls).run attentive announced
      (by decide) runs
    exact (prompt.ends there).imp_right (.imp_left And.right)

end ContextActivity

/-- However cancellations, derivations and polls interleave: once a cancellation has returned, every
watch on a context that it has marked was woken since its last poll or never polled, and every poll
from then on tells that the context is canceled.  So it is with any canceled context whose watches
are not still to be woken by a cancellation under way. -/
theorem no_wakeup_lost {activity : ContextActivity} (reachable : activity.Reachable) :
    (∀ {call : Nat} {source marked},
      activity.tasks[call]? = some (.cancellation source marked []) →
        ∀ id ∈ marked, activity.Heard id) ∧
    ∀ {id}, activity.Announced id → activity.Heard id := by
  obtain ⟨_, runs⟩ := reachable
  have attentive := runs.attentive .initial
  refine ⟨fun called id member => ?_, fun announced => announced.heard attentive⟩
  exact (attentive.announced called member).heard attentive

/-- Two watches on a context are polled, one of them while a cancellation reaches the context
through the one it was derived from.  That poll looks before the mark is set and goes to rest after
the watch was woken. -/
def canceledWhilePolled : List ContextMove :=
  [.begin .background, .begin (.withCancel ⟨0⟩), .advance 0, .advance 0,
    .begin (.withDeadline ⟨1⟩ 100), .advance 1, .advance 1, .watch ⟨2⟩, .watch ⟨2⟩,
    .poll ⟨0⟩, .advance 2, .advance 2, .advance 2, .advance 2,
    .begin (.cancel ⟨1⟩), .advance 3, .advance 3, .advance 3, .advance 3,
    .poll ⟨1⟩, .advance 4, .advance 4, .advance 3, .advance 4, .advance 3,
    .advance 3, .advance 3, .advance 3]

/-- The watch that was waiting is woken, and a new poll of it tells that the context is canceled. -/
theorem waiting_watch_woken :
    let activity := canceledWhilePolled.foldl ContextActivity.perform {}
    let later := [.poll ⟨0⟩, .advance 5, .advance 5, .advance 5].foldl
      ContextActivity.perform activity
    (∃ found, activity.contexts.watches.get? ⟨0⟩ = some found ∧ found.phase = .woken) ∧
      later.tasks[5]? = some (.poll ⟨0⟩ ⟨2⟩ (.ended (some .canceled))) := by
  intro activity later
  have runs : ContextActivity.Runs {} canceledWhilePolled activity :=
    ContextActivity.runs_of_permits (by decide)
  have more : activity.Runs [.poll ⟨0⟩, .advance 5, .advance 5, .advance 5] later :=
    ContextActivity.runs_of_permits (by decide)
  have returned : activity.tasks[3]? = some (.cancellation ⟨1⟩ [⟨2⟩, ⟨1⟩] []) := by decide
  have heard := (no_wakeup_lost ⟨_, runs⟩).1 returned ⟨2⟩ (by decide)
  refine ⟨?_, ?_⟩
  · obtain ⟨found, known, watches⟩ :
        ∃ found, activity.contexts.watches.get? ⟨0⟩ = some found ∧ found.context = ⟨2⟩ :=
      ⟨⟨⟨2⟩, .woken⟩, rfl, rfl⟩
    rcases heard.idle known watches (by decide) with woken | ⟨-, never⟩
    · exact ⟨found, known, woken⟩
    · have polled : .poll ⟨0⟩ ⟨2⟩ (.ended none) ∈ activity.tasks := by decide
      exact absurd polled (never _ _)
  · obtain ⟨stage, there⟩ : ∃ stage, later.tasks[5]? = some (.poll ⟨0⟩ ⟨2⟩ stage) :=
      ⟨.ended (some .canceled), by decide⟩
    rcases heard.later more (by decide) there with rfl | ⟨-, few⟩
    · exact there
    · exact absurd few (by decide)

end Provision
