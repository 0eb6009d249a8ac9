import Provision.Proofs.Contexts.ContextActivity

/-!
# How contexts get older

Whatever is done with contexts, each keeps its deadline, and its mark once it has one; numbers are
given once, and time goes on.  `Contexts.Ages` says so of the contexts before and after, and
`ContextActivity.Orderly` that what is in hand or watched is there.

Main statements: `ContextActivity.Runs.ages` and `ContextActivity.Reachable.orderly`.
-/

namespace Provision

/-! ### What stays -/

namespace Contexts

/-- Contexts only get older: each keeps its deadline, and its mark once it has one, and new ones are
numbered on. -/
structure Ages (before after : Contexts) : Prop where
  kept : ∀ {id node}, before.nodes.get? id = some node → ∃ later,
    after.nodes.get? id = some later ∧ later.deadline = node.deadline ∧
      (node.canceled = true → later.canceled = true)
  new : ∀ {id node}, after.nodes.get? id = some node → before.nodes.contains id = true ∨
    before.nextContext ≤ id.index ∧ id.index < after.nextContext
  next : before.nextContext ≤ after.nextContext
  now : before.now ≤ after.now

/-- No context has a number that is still to be given. -/
def Numbered (contexts : Contexts) : Prop :=
  ∀ {id}, contexts.nodes.contains id = true → id.index < contexts.nextContext

/-- A number in use is not the next one. -/
theorem ne_next {contexts : Contexts} {id : ContextId} (below : id.index < contexts.nextContext) :
    (⟨contexts.nextContext⟩ : ContextId) ≠ id := by
  rintro rfl
  exact Nat.lt_irrefl _ below

namespace Ages

variable {before between after : Contexts}

/-- With the same contexts at a later time, contexts only get older. -/
theorem of_nodes_eq (nodes : after.nodes = before.nodes)
    (next : after.nextContext = before.nextContext) (now : before.now ≤ after.now) :
    before.Ages after where
  kept found := ⟨_, nodes ▸ found, rfl, fun canceled => canceled⟩
  new found := .inl (Option.isSome_iff_exists.2 ⟨_, nodes ▸ found⟩)
  next := Nat.le_of_eq next.symm
  now := now

theorem refl (contexts : Contexts) : contexts.Ages contexts :=
  of_nodes_eq rfl rfl (Int.le_refl _)

theorem trans (first : before.Ages between) (second : between.Ages after) : before.Ages after where
  kept found := by
    obtain ⟨_, there, deadlineThen, canceledThen⟩ := first.kept found
    obtain ⟨later, here, deadlineNow, canceledNow⟩ := second.kept there
    exact ⟨later, here, deadlineNow.trans deadlineThen,
      fun canceled => canceledNow (canceledThen canceled)⟩
  new found := by
    rcases second.new found with known | new
    · obtain ⟨_, there⟩ := Option.isSome_iff_exists.1 known
      exact (first.new there).imp_right (And.imp_right (Nat.lt_of_lt_of_le · second.next))
    · exact .inr (new.imp_left (Nat.le_trans first.next))
  next := Nat.le_trans first.next second.next
  now := Int.le_trans first.now second.now

/-- What is known of a context changes, but neither its deadline nor a mark that it has. -/
theorem setNode {id : ContextId} {node changed : ContextNode}
    (found : before.nodes.get? id = some node) (deadline : changed.deadline = node.deadline)
    (canceled : node.canceled = true → changed.canceled = true) :
    before.Ages (before.setNode id changed) where
  kept := by
    intro other there known
    by_cases here : id = other
    · subst here
      obtain rfl := Option.some.inj (found.symm.trans known)
      exact ⟨changed, by simp [get?_setNode], deadline, canceled⟩
    · exact ⟨there, by simp [get?_setNode, here, known], rfl, fun marked => marked⟩
  new := by
    intro other there known
    by_cases here : id = other
    · exact .inl (here ▸ Option.isSome_iff_exists.2 ⟨node, found⟩)
    · rw [get?_setNode, if_neg here] at known
      exact .inl (Option.isSome_iff_exists.2 ⟨there, known⟩)
  next := Nat.le_refl _
  now := Int.le_refl _

/-- A new context makes none of the others younger. -/
theorem create (numbered : before.Numbered) (node : ContextNode) :
    before.Ages (before.create node).2 where
  kept := by
    intro id old found
    have known := numbered (Option.isSome_iff_exists.2 ⟨old, found⟩)
    exact ⟨old, by rw [get?_create, if_neg (ne_next known), found], rfl, fun marked => marked⟩
  new := by
    intro id old found
    rw [get?_create] at found
    by_cases here : (⟨before.nextContext⟩ : ContextId) = id
    · exact .inr (here ▸ ⟨Nat.le_refl _, Nat.lt_succ_self _⟩)
    · rw [if_neg here] at found
      exact .inl (Option.isSome_iff_exists.2 ⟨old, found⟩)
  next := Nat.le_succ _
  now := Int.le_refl _

/-- Letting go of a context makes none younger. -/
theorem release (contexts : Contexts) (id : ContextId) : contexts.Ages (contexts.release id) := by
  unfold Contexts.release
  cases found : contexts.nodes.get? id with
  | none => exact refl contexts
  | some node => exact setNode found rfl fun marked => marked

/-- Letting go of all that nobody holds makes none younger. -/
theorem releaseUnheld (contexts : Contexts) (held : List ContextId) :
    contexts.Ages (contexts.releaseUnheld held) := by
  rw [Contexts.releaseUnheld]
  generalize contexts.nodes.keys.filter _ = unheld
  induction unheld generalizing contexts with
  | nil => exact refl contexts
  | cons first rest ih => exact (release contexts first).trans (ih _)

/-- Marking a context makes none younger. -/
theorem mark (contexts : Contexts) (id : ContextId) : contexts.Ages (contexts.mark id).2 := by
  unfold Contexts.mark
  cases found : contexts.nodes.get? id with
  | none => exact refl contexts
  | some node =>
      cases flag : node.canceled with
      | true => simpa [flag] using refl contexts
      | false =>
          have marked : contexts.Ages (contexts.setNode id { node with canceled := true }) :=
            setNode found rfl fun _ => rfl
          simpa [flag] using marked

/-- Taking the links of a context makes none younger. -/
theorem takeLinks (contexts : Contexts) (id : ContextId) :
    contexts.Ages (contexts.takeLinks id).2 := by
  unfold Contexts.takeLinks
  cases found : contexts.nodes.get? id with
  | none => exact refl contexts
  | some node => exact setNode found rfl fun marked => marked

/-- Deriving a context with its link makes none younger. -/
theorem link (numbered : before.Numbered) (origin : ContextId) (canceled : Bool)
    (deadline : Option Int) : before.Ages (before.link origin canceled deadline).2 := by
  unfold Contexts.link
  cases found : before.nodes.get? origin with
  | none => exact create numbered _
  | some node =>
      cases canceled with
      | true => exact create numbered _
      | false =>
          have known := numbered (Option.isSome_iff_exists.2 ⟨node, found⟩)
          have there : (before.create { canceled := false, deadline }).2.nodes.get? origin =
              some node := by
            rw [get?_create, if_neg (ne_next known), found]
          exact (create numbered _).trans (setNode there rfl fun marked => marked)

/-- A context that is known stays known. -/
theorem contains (ages : before.Ages after) {id : ContextId}
    (known : before.nodes.contains id = true) : after.nodes.contains id = true := by
  obtain ⟨node, found⟩ := Option.isSome_iff_exists.1 known
  obtain ⟨later, here, _⟩ := ages.kept found
  exact Option.isSome_iff_exists.2 ⟨later, here⟩

/-- A canceled context stays canceled as it gets older. -/
theorem isCanceled (ages : before.Ages after) {id : ContextId}
    (canceled : before.isCanceled id = true) : after.isCanceled id = true := by
  obtain ⟨node, found, marked⟩ := isCanceled_iff.1 canceled
  obtain ⟨later, here, _, still⟩ := ages.kept found
  exact isCanceled_iff.2 ⟨later, here, still marked⟩

/-- A context keeps its deadline as it gets older. -/
theorem deadline?_eq (ages : before.Ages after) {id : ContextId}
    (known : before.nodes.contains id = true) : after.deadline? id = before.deadline? id := by
  obtain ⟨node, found⟩ := Option.isSome_iff_exists.1 known
  obtain ⟨later, here, same, _⟩ := ages.kept found
  simp [deadline?, found, here, same]

/-- A deadline that has come does not go away. -/
theorem isOverdue (ages : before.Ages after) {id : ContextId}
    (overdue : before.isOverdue id = true) : after.isOverdue id = true := by
  obtain ⟨deadline, due, past⟩ := (Option.any_eq_true ..).1 overdue
  obtain ⟨node, found, _⟩ := Option.bind_eq_some_iff.1 due
  have same := ages.deadline?_eq (Option.isSome_iff_exists.2 ⟨node, found⟩)
  rw [Contexts.isOverdue, same, due, Option.any_some]
  exact decide_eq_true (Int.le_trans (of_decide_eq_true past) ages.now)

/-- As contexts get older they stay numbered. -/
theorem numbered (ages : before.Ages after) (numbered : before.Numbered) : after.Numbered := by
  intro id known
  obtain ⟨node, found⟩ := Option.isSome_iff_exists.1 known
  rcases ages.new found with already | new
  · exact Nat.lt_of_lt_of_le (numbered already) ages.next
  · exact new.2

end Ages

/-- What a context reports, in terms of its mark and of whether its deadline has come. -/
theorem error?_eq_ite (contexts : Contexts) (id : ContextId) :
    contexts.error? id =
      if contexts.isCanceled id then some .canceled
      else if contexts.isOverdue id then some .deadlineExceeded else none := by
  rw [error?_eq, isOverdue]
  cases contexts.deadline? id <;> simp

/-- A context may not be used once it is canceled or its deadline has come. -/
theorem error?_ne_none_iff {contexts : Contexts} {id : ContextId} :
    contexts.error? id ≠ none ↔
      contexts.isCanceled id = true ∨ contexts.isOverdue id = true := by
  rw [error?_eq_ite]
  cases contexts.isCanceled id <;> cases contexts.isOverdue id <;> simp

/-- What is let go of changes nothing but what is known of contexts. -/
theorem releaseUnheld_eq (contexts : Contexts) (held : List ContextId) :
    ∃ nodes, contexts.releaseUnheld held = { contexts with nodes } := by
  rw [releaseUnheld]
  generalize contexts.nodes.keys.filter _ = unheld
  induction unheld generalizing contexts with
  | nil => exact ⟨_, rfl⟩
  | cons first rest ih =>
      obtain ⟨nodes, same⟩ := ih (contexts.release first)
      rw [List.foldl_cons, same]
      unfold release
      cases contexts.nodes.get? first <;> exact ⟨nodes, rfl⟩

/-- Letting go of contexts leaves the watches as they are. -/
@[simp] theorem watches_releaseUnheld (contexts : Contexts) (held : List ContextId) :
    (contexts.releaseUnheld held).watches = contexts.watches := by
  obtain ⟨_, same⟩ := contexts.releaseUnheld_eq held
  rw [same]

/-- Letting go of contexts wakes nobody. -/
@[simp] theorem isWoken_releaseUnheld (contexts : Contexts) (held : List ContextId)
    (watch : WatchId) :
    (contexts.releaseUnheld held).isWoken watch = contexts.isWoken watch := by
  rw [isWoken, watches_releaseUnheld, isWoken]

@[simp] theorem nextContext_releaseUnheld (contexts : Contexts) (held : List ContextId) :
    (contexts.releaseUnheld held).nextContext = contexts.nextContext := by
  obtain ⟨_, same⟩ := contexts.releaseUnheld_eq held
  rw [same]

@[simp] theorem nextWatch_releaseUnheld (contexts : Contexts) (held : List ContextId) :
    (contexts.releaseUnheld held).nextWatch = contexts.nextWatch := by
  obtain ⟨_, same⟩ := contexts.releaseUnheld_eq held
  rw [same]

end Contexts

/-- Every step lets the contexts get older. -/
theorem ContextTask.Step.ages {contexts after : Contexts} {task next : ContextTask}
    (step : ContextTask.Step contexts task next after) (numbered : contexts.Numbered) :
    contexts.Ages after := by
  cases step with
  | @mark _ id _ _ _ news =>
      have ages := Contexts.Ages.mark contexts id
      rwa [news] at ages
  | wake | canceled | overdue => exact .of_nodes_eq rfl rfl (Int.le_refl _)
  | take => exact .takeLinks contexts _
  | @link origin _ requested canceled _ made =>
      have ages := Contexts.Ages.link numbered origin canceled (contexts.inherited origin requested)
      rwa [made] at ages
  | enter =>
      unfold Contexts.await
      split
      · exact .refl contexts
      · exact .of_nodes_eq rfl rfl (Int.le_refl _)
  | reach | pass | leave | see | usable | early | rouse | sleep => exact .refl contexts

/-! ### What is in hand is there -/

namespace ContextActivity

variable {activity later : ContextActivity} {move : ContextMove}

/-- Nothing is promised that is not there: what is in hand or watched is known, and no number is
given twice. -/
structure Orderly (activity : ContextActivity) : Prop where
  numbered : activity.contexts.Numbered
  copies : ∀ {id}, id ∈ activity.copies → activity.contexts.nodes.contains id = true
  watched : ∀ {watch found}, activity.contexts.watches.get? watch = some found →
    activity.contexts.nodes.contains found.context = true ∧
      watch.index < activity.contexts.nextWatch

/-- Contexts get older with every turn of a task. -/
theorem Turn.ages {contexts : Contexts} {tasks : List ContextTask}
    (turn : activity.Turn move contexts tasks) (numbered : activity.contexts.Numbered) :
    activity.contexts.Ages contexts := by
  cases turn with
  | still same now =>
      rw [same]
      exact .of_nodes_eq rfl rfl now
  | background => exact .create numbered _
  | advance _ step => exact step.ages numbered
  | watch | unwatch => exact .of_nodes_eq rfl rfl (Int.le_refl _)
  | start => exact .refl _

/-- Every move lets the contexts get older. -/
theorem ages_perform (orderly : activity.Orderly) (allowed : activity.allows move = true) :
    activity.contexts.Ages (activity.perform move).contexts :=
  ((turn allowed).ages orderly.numbered).trans (.releaseUnheld _ _)

/-- What comes in hand was there or is made by the move. -/
theorem copies_act (allowed : activity.allows move = true) {id : ContextId}
    (inHand : id ∈ (activity.act move).copies) :
    id ∈ activity.copies ∨ (activity.act move).contexts.nodes.contains id = true := by
  match move with
  | .begin .background =>
      rcases List.mem_cons.1 inHand with rfl | earlier
      · exact .inr (Contexts.contains_create _ _)
      · exact .inl earlier
  | .begin (.clone context) =>
      rcases List.mem_cons.1 inHand with rfl | earlier
      · exact .inl (of_decide_eq_true allowed)
      · exact .inl earlier
  | .begin (.dropContext context) => exact .inl (List.mem_of_mem_erase inHand)
  | .advance number =>
      rw [allows, Option.any_eq_true] at allowed
      obtain ⟨task, found, ready⟩ := allowed
      have left : task.isOver = false := by simpa using (Bool.and_eq_true_iff.mp ready).1
      simp only [act, found, List.mem_append, Option.mem_toList] at inHand ⊢
      exact inHand.symm.imp_right (task.step_advance _ left).made
  | .begin (.withCancel _) | .begin (.withDeadline _ _) | .begin (.withTimeout _ _)
  | .begin (.dropHandle _) | .begin (.cancel _) | .begin (.wait _) | .watch _ | .unwatch _ =>
      exact .inl inHand
  | .poll watch =>
      rw [act] at inHand
      split at inHand <;> exact .inl inHand

/-- An activity is orderly to begin with. -/
theorem Orderly.initial : Orderly {} where
  numbered known := by simp [Table.contains, Table.get?, Table.find?] at known
  copies inHand := by cases inHand
  watched known := by simp [Table.get?, Table.find?] at known

/-- Every move that is allowed keeps an activity orderly. -/
theorem Orderly.perform (orderly : activity.Orderly) (allowed : activity.allows move = true) :
    (activity.perform move).Orderly := by
  have turned := turn allowed
  have ages := ages_perform orderly allowed
  have before : ∀ {watch context phase},
      activity.contexts.watches.get? watch = some ⟨context, phase⟩ →
      (activity.perform move).contexts.nodes.contains context = true ∧
        watch.index < (activity.perform move).contexts.nextWatch := by
    intro watch context phase known
    obtain ⟨contained, below⟩ := orderly.watched known
    refine ⟨ages.contains contained, Nat.lt_of_lt_of_le below ?_⟩
    exact (Contexts.nextWatch_releaseUnheld ..).symm ▸ turned.nextWatch
  refine ⟨ages.numbered orderly.numbered, fun inHand => ?_, fun known => ?_⟩
  · rcases copies_act allowed inHand with before | made
    · exact ages.contains (orderly.copies before)
    · exact (Contexts.Ages.releaseUnheld _ _).contains made
  · rw [ContextActivity.perform, tidy, Contexts.watches_releaseUnheld] at known
    rcases turned.watched known with there | ⟨_, _, there, _⟩ | ⟨there, _⟩ | ⟨inHand, rfl, -, next⟩
    · exact before there
    · exact before there
    · exact before there
    · refine ⟨ages.contains (orderly.copies inHand), ?_⟩
      rw [ContextActivity.perform, tidy, Contexts.nextWatch_releaseUnheld, next]
      exact Nat.lt_succ_self _

/-- An activity is orderly after any run. -/
theorem Runs.orderly {moves : List ContextMove} (runs : activity.Runs moves later)
    (orderly : activity.Orderly) : later.Orderly :=
  runs.preserves Orderly.perform orderly

/-- Reachable activities are orderly. -/
theorem Reachable.orderly (reachable : activity.Reachable) : activity.Orderly := by
  obtain ⟨_, runs⟩ := reachable
  exact runs.orderly .initial

/-- Contexts get older however many moves are made. -/
theorem Runs.ages {moves : List ContextMove} (runs : activity.Runs moves later)
    (orderly : activity.Orderly) : activity.contexts.Ages later.contexts := by
  induction runs with
  | none => exact .refl _
  | snoc before allowed ih => exact ih.trans (ages_perform (before.orderly orderly) allowed)

end ContextActivity

end Provision
