import Provision.Proofs.Contexts.ContextAging

/-!
# Deadlines

A context ends no later than the one it was derived from, however many steps lie between the two
and whoever lets go of what is in between.  Its deadline is settled when it is made, the time goes
on and a mark stays, so a context that may not be used any more is never usable again.

`ContextActivity.Lineage` is the invariant: every context begins a family or was derived from an
older one, and its deadline is what it was given then.

Main statement: `deadlines_shrink`.
-/

namespace Provision

open Relation

/-! ### The deadline of a derived context -/

namespace Contexts

/-- The earlier of a minimum and one more is the minimum with that one. -/
theorem some_earlier (deadlines : List Int) (deadline : Int) :
    some (earlier deadlines.min? deadline) = (deadline :: deadlines).min? := by
  rw [List.min?_cons]
  cases deadlines.min? with
  | none => rfl
  | some inherited =>
      simp only [earlier, Option.elim_some, Option.some.injEq]
      omega

variable {before after : Contexts}

/-- As contexts get older, what they pass on of a deadline stays the same. -/
theorem Ages.inherited_eq (ages : before.Ages after) {origin : ContextId}
    (known : before.nodes.contains origin = true) (requested : Option Int) :
    after.inherited origin requested = before.inherited origin requested := by
  simp only [inherited, ages.deadline?_eq known]

/-- What is derived from a context ends with it if not before. -/
theorem isOverdue_of_inherited {contexts : Contexts} {origin id : ContextId}
    {requested : Option Int} (due : contexts.deadline? id = contexts.inherited origin requested)
    (overdue : contexts.isOverdue origin = true) : contexts.isOverdue id = true := by
  obtain ⟨deadline, found, past⟩ := (Option.any_eq_true ..).1 overdue
  rw [isOverdue, due]
  cases requested with
  | none => exact overdue
  | some requested =>
      have past := of_decide_eq_true past
      simp only [inherited, found, earlier, Option.any_some, decide_eq_true_eq]
      omega

/-- A new context has the deadline that it was made with. -/
theorem deadline?_create (contexts : Contexts) (node : ContextNode) :
    (contexts.create node).2.deadline? ⟨contexts.nextContext⟩ = node.deadline := by
  simp [deadline?, get?_create]

/-- A derived context has the deadline that it was given. -/
theorem deadline?_link {contexts : Contexts} (numbered : contexts.Numbered) (origin : ContextId)
    (canceled : Bool) (deadline : Option Int) :
    (contexts.link origin canceled deadline).2.deadline? ⟨contexts.nextContext⟩ = deadline := by
  unfold link
  cases found : contexts.nodes.get? origin with
  | none => exact contexts.deadline?_create _
  | some node =>
      cases canceled with
      | true => exact contexts.deadline?_create _
      | false =>
          have apart := ne_next (numbered (Option.isSome_iff_exists.2 ⟨node, found⟩))
          simp only [Bool.false_eq_true, if_false, deadline?, get?_setNode, apart.symm]
          exact contexts.deadline?_create _

end Contexts

namespace ContextTask.Step

variable {contexts after : Contexts} {task : ContextTask} {origin id : ContextId}
  {requested : Option Int} {stage : DeriveStage}

/-- A derivation stays one. -/
theorem derivation
    (step : ContextTask.Step contexts task (.derivation origin requested stage) after) :
    ∃ before, task = .derivation origin requested before := by
  cases step with
  | see | link => exact ⟨_, rfl⟩

/-- It makes a context with the deadline that was asked for. -/
theorem derives
    (step : ContextTask.Step contexts task (.derivation origin requested (.made id)) after)
    (numbered : contexts.Numbered) : id = ⟨contexts.nextContext⟩ ∧
      after.deadline? id = contexts.inherited origin requested := by
  cases step with
  | @link _ _ _ canceled _ made =>
      have due := Contexts.deadline?_link numbered origin canceled
        (contexts.inherited origin requested)
      obtain ⟨_, same⟩ := contexts.link_eq origin canceled (contexts.inherited origin requested)
      obtain ⟨rfl, -⟩ := Prod.mk.inj (made.symm.trans same)
      rw [made] at due
      exact ⟨rfl, due⟩

end ContextTask.Step

/-! ### Where deadlines come from -/

namespace ContextActivity

variable {activity later : ContextActivity} {move : ContextMove}

/-- A context was derived from another one, and a deadline was asked for if any was. -/
def Derives (activity : ContextActivity) (origin : ContextId) (requested : Option Int)
    (id : ContextId) : Prop :=
  .derivation origin requested (.made id) ∈ activity.tasks

instance (activity : ContextActivity) (origin : ContextId) (requested : Option Int)
    (id : ContextId) : Decidable (activity.Derives origin requested id) :=
  inferInstanceAs (Decidable (_ ∈ _))

/-- The deadlines that were asked for on the way from a context that was not derived from any, the
last one first. -/
inductive Requested (activity : ContextActivity) : ContextId → List Int → Prop where
  | root {id : ContextId} : id ∈ activity.roots → Requested activity id []
  | derived {origin id : ContextId} {requested : Option Int} {deadlines : List Int} :
      Requested activity origin deadlines → activity.Derives origin requested id →
        Requested activity id (requested.toList ++ deadlines)

/-- A context is another one or was derived from it, directly or through others. -/
def Descends (activity : ContextActivity) : ContextId → ContextId → Prop :=
  ReflTransGen fun origin id => ∃ requested, activity.Derives origin requested id

/-- Where contexts come from and what deadlines they have. -/
structure Lineage (activity : ContextActivity) : Prop where
  orderly : activity.Orderly
  root : ∀ {id}, id ∈ activity.roots →
    activity.contexts.nodes.contains id = true ∧ activity.contexts.deadline? id = none
  origin : ∀ {origin requested stage}, .derivation origin requested stage ∈ activity.tasks →
    activity.contexts.nodes.contains origin = true
  derived : ∀ {origin requested id}, activity.Derives origin requested id →
    activity.contexts.nodes.contains id = true ∧
      activity.contexts.deadline? id = activity.contexts.inherited origin requested ∧
      origin.index < id.index
  source : ∀ {id}, activity.contexts.nodes.contains id = true →
    id ∈ activity.roots ∨ ∃ origin requested, activity.Derives origin requested id

/-- Nothing is derived to begin with. -/
theorem Lineage.initial : Lineage {} where
  orderly := .initial
  root member := by cases member
  origin member := by cases member
  derived member := by cases member
  source known := by simp [Table.contains, Table.get?, Table.find?] at known

/-- Roots are added only by new contexts of their own. -/
theorem roots_act (activity : ContextActivity) (move : ContextMove) :
    (activity.act move).roots = activity.roots ∨ move = .begin .background ∧
      (activity.act move).roots = ⟨activity.contexts.nextContext⟩ :: activity.roots := by
  match move with
  | .begin .background => exact .inr ⟨rfl, rfl⟩
  | .begin (.withCancel _) | .begin (.withDeadline _ _) | .begin (.withTimeout _ _)
  | .begin (.clone _) | .begin (.dropContext _) | .begin (.dropHandle _) | .begin (.cancel _)
  | .begin (.wait _) | .watch _ | .unwatch _ => exact .inl rfl
  | .poll watch =>
      rw [act]
      split <;> exact .inl rfl
  | .advance number =>
      rw [act]
      split <;> exact .inl rfl

/-- A context that a move makes begins a family or is derived. -/
theorem Turn.source {contexts : Contexts} {tasks : List ContextTask}
    (turn : activity.Turn move contexts tasks) :
    contexts.nextContext = activity.contexts.nextContext ∨
      contexts.nextContext = activity.contexts.nextContext + 1 ∧
        (move = .begin .background ∨ ∃ origin requested,
          .derivation origin requested (.made ⟨activity.contexts.nextContext⟩) ∈ tasks) := by
  cases turn with
  | still same _ => exact .inl (by rw [same])
  | background => exact .inr ⟨rfl, .inl rfl⟩
  | @advance number task after contexts found step =>
      refine step.numbers.2.imp_right fun ⟨made, next⟩ => ⟨next, .inr ?_⟩
      obtain ⟨below, -⟩ := List.getElem?_eq_some_iff.1 found
      have member : after ∈ activity.tasks.set number after := List.mem_set below after
      cases after with
      | derivation origin requested stage =>
          cases stage with
          | made id =>
              obtain rfl := Option.some.inj made
              exact ⟨origin, requested, member⟩
          | look | link => cases made
      | cancellation | poll => cases made
  | watch | unwatch | start => exact .inl rfl

namespace Lineage

section Perform

variable (lineage : activity.Lineage) (allowed : activity.allows move = true)

include lineage allowed

/-- A context that begins a family has no deadline. -/
theorem root_perform {id : ContextId} (member : id ∈ (activity.perform move).roots) :
    (activity.perform move).contexts.nodes.contains id = true ∧
      (activity.perform move).contexts.deadline? id = none := by
  have ages := ages_perform lineage.orderly allowed
  have earlier : id ∈ activity.roots → (activity.perform move).contexts.nodes.contains id = true ∧
      (activity.perform move).contexts.deadline? id = none := by
    intro before
    obtain ⟨contained, none⟩ := lineage.root before
    exact ⟨ages.contains contained, (ages.deadline?_eq contained).trans none⟩
  rcases activity.roots_act move with same | ⟨rfl, more⟩
  · exact earlier (same ▸ member)
  · rcases List.mem_cons.1 (more ▸ member : id ∈ _ :: activity.roots) with rfl | before
    · have made := activity.contexts.contains_create { canceled := false, deadline := none }
      have tidied := Contexts.Ages.releaseUnheld activity.contexts.background.2
        (activity.act (.begin .background)).held
      exact ⟨tidied.contains made,
        (tidied.deadline?_eq made).trans (Contexts.deadline?_create ..)⟩
    · exact earlier before

/-- Every derivation is of a context that is there. -/
theorem origin_perform {origin : ContextId} {requested : Option Int} {stage : DeriveStage}
    (member : .derivation origin requested stage ∈ (activity.perform move).tasks) :
    (activity.perform move).contexts.nodes.contains origin = true := by
  refine (ages_perform lineage.orderly allowed).contains ?_
  rcases (turn allowed).mem member with before | ⟨before, found, step⟩ | begins
  · exact lineage.origin before
  · obtain ⟨stage, rfl⟩ := step.derivation
    exact lineage.origin found
  · cases begins with
    | derive inHand => exact lineage.orderly.copies inHand

/-- A derived context is younger than its origin and has the deadline that was asked for, or an
earlier one of its origin. -/
theorem derived_perform {origin id : ContextId} {requested : Option Int}
    (derived : (activity.perform move).Derives origin requested id) :
    (activity.perform move).contexts.nodes.contains id = true ∧
      (activity.perform move).contexts.deadline? id =
        (activity.perform move).contexts.inherited origin requested ∧
      origin.index < id.index := by
  have ages := ages_perform lineage.orderly allowed
  rcases (turn allowed).mem derived with before | ⟨before, found, step⟩ | begins
  · obtain ⟨contained, due, older⟩ := lineage.derived before
    refine ⟨ages.contains contained, ?_, older⟩
    rw [ages.deadline?_eq contained, ages.inherited_eq (lineage.origin before), due]
  · obtain ⟨stage, rfl⟩ := step.derivation
    obtain ⟨rfl, due⟩ := step.derives lineage.orderly.numbered
    have above := lineage.origin found
    have made := step.made rfl
    have tidied := Contexts.Ages.releaseUnheld (activity.act move).contexts
      (activity.act move).held
    refine ⟨tidied.contains made, ?_, lineage.orderly.numbered above⟩
    rw [ages.inherited_eq above, ← due]
    exact tidied.deadline?_eq made
  · cases begins

/-- Every context begins a family or was derived. -/
theorem source_perform {id : ContextId}
    (known : (activity.perform move).contexts.nodes.contains id = true) :
    id ∈ (activity.perform move).roots ∨
      ∃ origin requested, (activity.perform move).Derives origin requested id := by
  have kept : id ∈ activity.roots → id ∈ (activity.perform move).roots := by
    intro member
    rcases activity.roots_act move with same | ⟨-, more⟩
    · exact same ▸ member
    · exact more ▸ List.mem_cons_of_mem _ member
  obtain ⟨node, found⟩ := Option.isSome_iff_exists.1 known
  rcases (ages_perform lineage.orderly allowed).new found with before | ⟨least, below⟩
  · refine (lineage.source before).imp kept fun ⟨origin, requested, derived⟩ => ?_
    exact ⟨origin, requested, (turn allowed).stays derived rfl⟩
  · -- a context that is new is the next one
    rw [ContextActivity.perform, tidy, Contexts.nextContext_releaseUnheld] at below
    rcases (turn allowed).source with none | ⟨one, made⟩
    · omega
    · obtain rfl : id = ⟨activity.contexts.nextContext⟩ := by
        cases id
        simp only [ContextId.mk.injEq] at least below ⊢
        omega
      refine made.imp (fun background => ?_) fun derived => derived
      subst background
      exact List.mem_cons_self

/-- Every move that is allowed keeps the lineage of contexts. -/
theorem perform : (activity.perform move).Lineage where
  orderly := lineage.orderly.perform allowed
  root := lineage.root_perform allowed
  origin := lineage.origin_perform allowed
  derived := lineage.derived_perform allowed
  source := lineage.source_perform allowed

end Perform

/-- Every context has its place in a family, with the deadlines asked for on the way to it. -/
theorem exists_requested (lineage : activity.Lineage) {id : ContextId}
    (known : activity.contexts.nodes.contains id = true) :
    ∃ deadlines, activity.Requested id deadlines := by
  -- what a context was derived from is older
  induction number : id.index using Nat.strongRecOn generalizing id with
  | ind number ih =>
      subst number
      rcases lineage.source known with root | ⟨origin, requested, derived⟩
      · exact ⟨[], .root root⟩
      · obtain ⟨-, -, older⟩ := lineage.derived derived
        obtain ⟨deadlines, above⟩ := ih _ older (lineage.origin derived) rfl
        exact ⟨_, .derived above derived⟩

/-- The deadline of a context is the first of those asked for on the way to it. -/
theorem deadline?_eq_min (lineage : activity.Lineage) {id : ContextId}
    {deadlines : List Int} (asked : activity.Requested id deadlines) :
    activity.contexts.deadline? id = deadlines.min? := by
  induction asked with
  | root member => exact (lineage.root member).2
  | @derived origin id requested deadlines _ derived ih =>
      rw [(lineage.derived derived).2.1]
      cases requested with
      | none => exact ih
      | some deadline =>
          rw [Contexts.inherited, ih]
          exact Contexts.some_earlier deadlines deadline

/-- What descends from an overdue context is overdue. -/
theorem isOverdue_of_descends (lineage : activity.Lineage) {source id : ContextId}
    (descends : activity.Descends source id) (overdue : activity.contexts.isOverdue source = true) :
    activity.contexts.isOverdue id = true := by
  induction descends with
  | refl => exact overdue
  | tail _ derived ih =>
      obtain ⟨requested, derived⟩ := derived
      exact Contexts.isOverdue_of_inherited (lineage.derived derived).2.1 ih

end Lineage

/-! ### What is reported from then on -/

/-- What somebody is told who looks at the mark of a context at one moment and at the time at a
later one. -/
def reported (first second : ContextActivity) (id : ContextId) : Option ContextError :=
  if first.contexts.isCanceled id then some .canceled
  else if second.contexts.isOverdue id then some .deadlineExceeded else none

/-- With nothing in between this is what the context reports. -/
theorem reported_self (activity : ContextActivity) (id : ContextId) :
    activity.reported activity id = activity.contexts.error? id :=
  (Contexts.error?_eq_ite ..).symm

/-- Something is reported of a context that is canceled or overdue. -/
theorem reported_ne_none_iff {first second : ContextActivity} {id : ContextId} :
    first.reported second id ≠ none ↔
      first.contexts.isCanceled id = true ∨ second.contexts.isOverdue id = true := by
  unfold reported
  cases first.contexts.isCanceled id <;> cases second.contexts.isOverdue id <;> simp

/-- Just the contexts that are canceled are reported so. -/
theorem reported_eq_canceled_iff {first second : ContextActivity} {id : ContextId} :
    first.reported second id = some .canceled ↔ first.contexts.isCanceled id = true := by
  unfold reported
  cases first.contexts.isCanceled id <;> cases second.contexts.isOverdue id <;> simp

/-- What is reported of a context that may not be used does not change for the better. -/
structure Worsens (before after : Option ContextError) : Prop where
  unusable : before ≠ none → after ≠ none
  canceled : before = some .canceled → after = some .canceled

/-- Reports only get worse as contexts get older. -/
theorem worsens_reported {first second third fourth : ContextActivity}
    (begun : first.contexts.Ages third.contexts) (ended : second.contexts.Ages fourth.contexts)
    (id : ContextId) : Worsens (first.reported second id) (third.reported fourth id) where
  unusable unusable :=
    reported_ne_none_iff.2 ((reported_ne_none_iff.1 unusable).imp begun.isCanceled ended.isOverdue)
  canceled canceled :=
    reported_eq_canceled_iff.2 (begun.isCanceled (reported_eq_canceled_iff.1 canceled))

end ContextActivity

/-- Whatever is done with contexts, by however many at once, every context has the first of the
deadlines that were asked for on the way to it, or none if none was.  So it may not be used once the
deadline of a context that it was derived from has come, also if that was let go of.  A context that
may not be used may never be used later, and is canceled for good if it is canceled; nor does it
matter if others come in between a look at the mark and a look at the time. -/
theorem deadlines_shrink {activity : ContextActivity} (reachable : activity.Reachable) :
    (∀ id, activity.contexts.nodes.contains id = true →
      ∃ deadlines, activity.Requested id deadlines) ∧
    (∀ {id deadlines}, activity.Requested id deadlines →
      activity.contexts.deadline? id = deadlines.min?) ∧
    (∀ {source id}, activity.Descends source id → activity.contexts.isOverdue source = true →
      activity.contexts.error? id ≠ none) ∧
    (∀ {moves later}, activity.Runs moves later → ∀ id,
      ContextActivity.Worsens (activity.contexts.error? id) (later.contexts.error? id)) ∧
    ∀ {first second third early between late}, activity.Runs early first →
      first.Runs between second → second.Runs late third → ∀ id,
        ContextActivity.Worsens (activity.reported first id) (second.reported third id) := by
  obtain ⟨_, before⟩ := reachable
  have lineage := before.preserves ContextActivity.Lineage.perform .initial
  refine ⟨fun id known => lineage.exists_requested known, lineage.deadline?_eq_min, ?_, ?_, ?_⟩
  · intro source id descends overdue
    exact Contexts.error?_ne_none_iff.2 (.inr (lineage.isOverdue_of_descends descends overdue))
  · intro moves later runs id
    have ages := runs.ages lineage.orderly
    rw [← activity.reported_self, ← later.reported_self]
    exact ContextActivity.worsens_reported ages ages id
  · intro first second third early between late run pause again id
    have begun := (run.trans pause).ages lineage.orderly
    have ended := (pause.trans again).ages (run.orderly lineage.orderly)
    exact ContextActivity.worsens_reported begun ended id

/-- Four contexts derived one from the other.  Three of them are let go of, the cancellation of one
begins while the last is derived from it, and the time passes that the first was given. -/
def fourGenerations : List ContextMove :=
  [.begin .background, .begin (.withTimeout ⟨0⟩ 10), .advance 0, .advance 0,
    .begin (.withDeadline ⟨1⟩ 50), .begin (.dropContext ⟨1⟩), .advance 1, .advance 1,
    .begin (.withCancel ⟨2⟩), .advance 2, .begin (.dropContext ⟨2⟩), .advance 2,
    .begin (.withDeadline ⟨3⟩ 30), .begin (.cancel ⟨3⟩), .advance 3, .advance 3,
    .begin (.dropContext ⟨3⟩), .begin (.wait 10)]

/-- The last of them ends with the first, and may not be used either once the cancellation is at
it. -/
theorem last_generation_expires :
    let activity := fourGenerations.foldl ContextActivity.perform {}
    let later := (List.replicate 5 (.advance 4)).foldl ContextActivity.perform activity
    activity.contexts.isHeld ⟨1⟩ = false ∧
      activity.contexts.deadline? ⟨4⟩ = [30, 50, 10].min? ∧
      activity.contexts.error? ⟨4⟩ ≠ none ∧ later.contexts.error? ⟨4⟩ ≠ none := by
  intro activity later
  have runs : ContextActivity.Runs {} fourGenerations activity :=
    ContextActivity.runs_of_permits (by decide)
  have more : activity.Runs (List.replicate 5 (.advance 4)) later :=
    ContextActivity.runs_of_permits (by decide)
  obtain ⟨-, first, expires, lasts, -⟩ := deadlines_shrink ⟨_, runs⟩
  have one : activity.Derives ⟨0⟩ (some 10) ⟨1⟩ := by decide
  have two : activity.Derives ⟨1⟩ (some 50) ⟨2⟩ := by decide
  have three : activity.Derives ⟨2⟩ none ⟨3⟩ := by decide
  have four : activity.Derives ⟨3⟩ (some 30) ⟨4⟩ := by decide
  have asked : activity.Requested ⟨4⟩ [30, 50, 10] :=
    .derived (.derived (.derived (.derived (.root (by decide)) one) two) three) four
  have unusable := expires (((ReflTransGen.single ⟨_, two⟩).tail ⟨_, three⟩).tail ⟨_, four⟩)
    (by decide)
  exact ⟨by decide, first asked, unusable, (lasts more ⟨4⟩).unusable unusable⟩

end Provision
