import Provision.Context
import Mathlib.Logic.Relation

/-!
# Cancellation

How far a cancellation travels.  `ContextUse` is what somebody who works with contexts has in
hand: the contexts, their copies and their cancel handles.  One step of it is one operation, and
a context is let go of with its last copy and its last handle.

`Contexts.Linked` is the invariant: a context that is held and not canceled links to every held
context derived from it, and what is derived from a canceled context is canceled, or let go of,
or still waits for its turn in the cancellation under way.

Main statement: `cancel_reaches_derived`.  A cancellation marks exactly those contexts that are
derived from the canceled one through contexts none of which was lost, which means let go of
while it could still be canceled; and whatever is derived from them later is canceled from the
start.
-/

namespace Provision

open Relation

namespace Contexts

/-- Everybody has let go of a context while it could still be canceled. -/
def IsLost (contexts : Contexts) (id : ContextId) : Prop :=
  ∃ node, contexts.nodes.get? id = some node ∧ node.released = true ∧ node.canceled = false

/-! ### What the operations do to one context -/

/-- A context is held if it is there and was not released. -/
theorem isHeld_iff {contexts : Contexts} {id : ContextId} :
    contexts.isHeld id = true ↔
      ∃ node, contexts.nodes.get? id = some node ∧ node.released = false := by
  cases found : contexts.nodes.get? id <;> simp [isHeld, found]

/-- A context is canceled if it is there and marked so. -/
theorem isCanceled_iff {contexts : Contexts} {id : ContextId} :
    contexts.isCanceled id = true ↔
      ∃ node, contexts.nodes.get? id = some node ∧ node.canceled = true := by
  cases found : contexts.nodes.get? id <;> simp [isCanceled, found]

/-- What there is to know of a context besides its links: whether it is canceled and whether
everybody has let go of it. -/
def marks? (contexts : Contexts) (id : ContextId) : Option (Bool × Bool) :=
  (contexts.nodes.get? id).map fun node => (node.canceled, node.released)

/-- Whether a context is held is read off its marks. -/
theorem isHeld_eq (contexts : Contexts) (id : ContextId) :
    contexts.isHeld id = (contexts.marks? id).any fun marks => !marks.2 := by
  cases found : contexts.nodes.get? id <;> simp [isHeld, marks?, found]

/-- Whether a context is canceled is read off its marks. -/
theorem isCanceled_eq (contexts : Contexts) (id : ContextId) :
    contexts.isCanceled id = (contexts.marks? id).any fun marks => marks.1 := by
  cases found : contexts.nodes.get? id <;> simp [isCanceled, marks?, found]

/-- A context is there if it has marks. -/
theorem contains_eq (contexts : Contexts) (id : ContextId) :
    contexts.nodes.contains id = (contexts.marks? id).isSome := by
  simp [Table.contains, marks?]

/-- Every context is still known, canceled if it was and let go of if it was. -/
def Retains (before after : Contexts) : Prop :=
  ∀ id marks, before.marks? id = some marks → ∃ later, after.marks? id = some later ∧
    (marks.1 = true → later.1 = true) ∧ (marks.2 = true → later.2 = true)

namespace Retains

variable {before between after : Contexts}

/-- Contexts are retained if all marks are. -/
theorem of_eq (same : ∀ {id marks}, before.marks? id = some marks → after.marks? id = some marks) :
    before.Retains after := by
  intro id marks found
  exact ⟨marks, same found, fun canceled => canceled, fun released => released⟩

theorem refl (contexts : Contexts) : contexts.Retains contexts :=
  of_eq fun found => found

theorem trans (first : before.Retains between) (second : between.Retains after) :
    before.Retains after := by
  intro id marks found
  obtain ⟨marksThen, there, canceledThen, releasedThen⟩ := first id marks found
  obtain ⟨marksNow, here, canceledNow, releasedNow⟩ := second id marksThen there
  exact ⟨marksNow, here, fun canceled => canceledNow (canceledThen canceled),
    fun released => releasedNow (releasedThen released)⟩

/-- A canceled context that is retained is canceled. -/
theorem isCanceled (retains : before.Retains after) {id : ContextId}
    (canceled : before.isCanceled id = true) : after.isCanceled id = true := by
  rw [isCanceled_eq, Option.any_eq_true] at canceled ⊢
  obtain ⟨marks, found, marked⟩ := canceled
  obtain ⟨later, here, still, _⟩ := retains id marks found
  exact ⟨later, here, still marked⟩

/-- A context in use was not lost before. -/
theorem not_isLost (retains : before.Retains after) {id : ContextId}
    (held : after.isHeld id = true) : ¬ before.IsLost id := by
  intro ⟨node, found, released, _⟩
  have marks : before.marks? id = some (node.canceled, node.released) := by
    simp [marks?, found]
  obtain ⟨later, here, _, gone⟩ := retains id _ marks
  rw [isHeld_eq, here, Option.any_some, gone released] at held
  cases held

end Retains

/-- A canceled context reports so, whatever its deadline. -/
theorem error?_of_isCanceled {contexts : Contexts} {id : ContextId}
    (canceled : contexts.isCanceled id = true) : contexts.error? id = some .canceled := by
  obtain ⟨node, found, marked⟩ := isCanceled_iff.1 canceled
  simp [error?, found, marked]

/-- A context that is held is not lost. -/
theorem not_isLost_of_isHeld {contexts : Contexts} {id : ContextId}
    (held : contexts.isHeld id = true) : ¬ contexts.IsLost id :=
  (Retains.refl contexts).not_isLost held

/-- A context that is known and not lost is held or canceled. -/
theorem held_or_canceled {contexts : Contexts} {id : ContextId}
    (known : contexts.nodes.contains id = true) (kept : ¬ contexts.IsLost id) :
    contexts.isHeld id = true ∨ contexts.isCanceled id = true := by
  obtain ⟨node, found⟩ := Option.isSome_iff_exists.1 known
  cases canceled : node.canceled with
  | true => exact .inr (isCanceled_iff.2 ⟨node, found, canceled⟩)
  | false =>
      cases released : node.released with
      | true => exact absurd ⟨node, found, released, canceled⟩ kept
      | false => exact .inl (isHeld_iff.2 ⟨node, found, released⟩)

/-- Setting a context changes this one only. -/
theorem get?_setNode (contexts : Contexts) (id other : ContextId) (node : ContextNode) :
    (contexts.setNode id node).nodes.get? other =
      if id = other then some node else contexts.nodes.get? other :=
  Table.get?_put _ _ _ _

/-- A new context is found under the next number. -/
theorem get?_create (contexts : Contexts) (node : ContextNode) (other : ContextId) :
    (contexts.create node).2.nodes.get? other =
      if ⟨contexts.nextContext⟩ = other then some node else contexts.nodes.get? other :=
  Table.get?_put _ _ _ _

/-- What is derived from a canceled context is canceled and not linked. -/
theorem derive_of_canceled {contexts : Contexts} {origin : ContextId} {node : ContextNode}
    (found : contexts.nodes.get? origin = some node) (canceled : node.canceled = true)
    (deadline : Option Int) :
    contexts.derive origin deadline = contexts.create { canceled := true, deadline } := by
  simp [derive, found, canceled]

/-- A usable context is linked to what is derived from it, besides those links that are held. -/
theorem derive_of_usable {contexts : Contexts} {origin : ContextId} {node : ContextNode}
    (found : contexts.nodes.get? origin = some node) (usable : node.canceled = false)
    (deadline : Option Int) :
    contexts.derive origin deadline =
      let made := contexts.create { canceled := false, deadline }
      (made.1, made.2.setNode origin
        { node with derived := node.derived.filter made.2.isHeld ++ [made.1] }) := by
  simp [derive, found, usable]

/-- Other links of a context change nothing else about it. -/
theorem marks?_relink {contexts : Contexts} {id : ContextId} {node : ContextNode}
    (found : contexts.nodes.get? id = some node) (links : List ContextId) (other : ContextId) :
    (contexts.setNode id { node with derived := links }).marks? other = contexts.marks? other := by
  by_cases here : id = other
  · subst here
    simp [marks?, get?_setNode, found]
  · simp [marks?, get?_setNode, here]

/-- Letting go of a context releases it and drops its links. -/
theorem get?_release (contexts : Contexts) (id other : ContextId) :
    (contexts.release id).nodes.get? other =
      if id = other then
        (contexts.nodes.get? other).map fun node => { node with released := true, derived := [] }
      else contexts.nodes.get? other := by
  unfold release
  by_cases same : id = other
  · subst same
    cases found : contexts.nodes.get? id <;> simp [found, get?_setNode]
  · cases found : contexts.nodes.get? id <;> simp [get?_setNode, same]

theorem nextContext_release (contexts : Contexts) (id : ContextId) :
    (contexts.release id).nextContext = contexts.nextContext := by
  unfold release
  cases contexts.nodes.get? id <;> rfl

/-- Letting go of a context marks this one as released. -/
theorem marks?_release (contexts : Contexts) (id other : ContextId) :
    (contexts.release id).marks? other =
      if id = other then (contexts.marks? other).map fun marks => (marks.1, true)
      else contexts.marks? other := by
  by_cases here : id = other
  · cases found : contexts.nodes.get? other <;> simp [marks?, get?_release, here, found]
  · simp [marks?, get?_release, here]

/-- Letting go of a context cancels nothing. -/
theorem isCanceled_release (contexts : Contexts) (id other : ContextId) :
    (contexts.release id).isCanceled other = contexts.isCanceled other := by
  rw [isCanceled_eq, isCanceled_eq, marks?_release]
  by_cases here : id = other
  · cases contexts.marks? other <;> simp [here]
  · simp [here]

/-- Letting go of a context retains all. -/
theorem retains_release (contexts : Contexts) (id : ContextId) :
    contexts.Retains (contexts.release id) := by
  intro other marks found
  rw [marks?_release]
  by_cases here : id = other
  · exact ⟨(marks.1, true), by simp [here, found], fun canceled => canceled, fun _ => rfl⟩
  · exact ⟨marks, by simp [here, found], fun canceled => canceled, fun released => released⟩

/-- A visit passes over a context that is canceled, or else marks it and takes its links. -/
theorem visit_cases (contexts : Contexts) (id : ContextId) :
    (contexts.visit id = ([], contexts) ∧
      ∀ node, contexts.nodes.get? id = some node → node.canceled = true) ∨
    ∃ node visited, contexts.nodes.get? id = some node ∧ node.canceled = false ∧
      contexts.visit id = (node.derived.filter contexts.isHeld, visited) ∧
      visited.nextContext = contexts.nextContext ∧
      ∀ other, visited.nodes.get? other =
        if id = other then some { node with canceled := true, derived := [] }
        else contexts.nodes.get? other := by
  unfold visit mark
  cases found : contexts.nodes.get? id with
  | none => exact .inl ⟨rfl, by simp⟩
  | some node =>
      cases canceled : node.canceled with
      | true => exact .inl ⟨by simp [canceled], by simp [canceled]⟩
      | false =>
          let marked := (contexts.setNode id { node with canceled := true }).wake id
          have stored : marked.nodes.get? id = some { node with canceled := true } := by
            simp [marked, wake, get?_setNode]
          have same : marked.isHeld = contexts.isHeld := by
            funext other
            by_cases here : id = other
            · subst here
              simp [isHeld, stored, found]
            · simp [isHeld, marked, wake, get?_setNode, here]
          refine .inr ⟨node, marked.setNode id { node with canceled := true, derived := [] },
            rfl, canceled, ?_, rfl, ?_⟩
          · simp only [canceled, Bool.false_eq_true, if_false]
            change marked.takeLinks id = _
            simp only [takeLinks, stored, same]
          · intro other
            by_cases here : id = other <;> simp [get?_setNode, marked, wake, here]

/-! ### The invariant -/

/-- The links between contexts, given what was derived from what; `pending` are the contexts
whose turn is still to come in a cancellation under way. -/
structure Linked (derivations : List (ContextId × ContextId)) (pending : List ContextId)
    (contexts : Contexts) : Prop where
  /-- No context has a number that is still to be given. -/
  numbered : ∀ {id}, contexts.nodes.contains id = true → id.index < contexts.nextContext
  /-- Contexts were derived from one another after they came into being. -/
  known : ∀ {parent child}, (parent, child) ∈ derivations →
    contexts.nodes.contains parent = true ∧ contexts.nodes.contains child = true
  /-- A context in use links to all contexts in use that were derived from it. -/
  linked : ∀ {parent child node}, (parent, child) ∈ derivations →
    contexts.nodes.get? parent = some node → node.canceled = false → node.released = false →
    contexts.isHeld child = true → child ∈ node.derived
  /-- A context links to nothing else. -/
  derived : ∀ {parent child node}, contexts.nodes.get? parent = some node →
    child ∈ node.derived → (parent, child) ∈ derivations
  /-- What is derived from a canceled context is canceled, or nobody uses it. -/
  spread : ∀ {parent child}, (parent, child) ∈ derivations →
    contexts.isCanceled parent = true → contexts.isHeld child = true →
    contexts.isCanceled child = true ∨ child ∈ pending

namespace Linked

variable {derivations : List (ContextId × ContextId)} {contexts : Contexts}

/-- There is nothing to link before the first context is made. -/
theorem initial : Linked [] [] {} where
  numbered known := by simp [Table.contains, Table.get?, Table.find?] at known
  known derived := by cases derived
  linked derived := by cases derived
  derived found := by simp [Table.get?, Table.find?] at found
  spread derived := by cases derived

/-- The number of the next context belongs to none so far. -/
theorem fresh (linked : contexts.Linked derivations []) :
    contexts.nodes.get? ⟨contexts.nextContext⟩ = none := by
  cases found : contexts.nodes.get? ⟨contexts.nextContext⟩ with
  | none => rfl
  | some node =>
      have below := linked.numbered (Option.isSome_iff_exists.2 ⟨node, found⟩)
      simp at below

/-- A context that is known is not the next one. -/
theorem ne_next (linked : contexts.Linked derivations []) {id : ContextId}
    (known : contexts.nodes.contains id = true) : (⟨contexts.nextContext⟩ : ContextId) ≠ id := by
  intro same
  have below := linked.numbered known
  rw [← same] at below
  simp at below

/-- Making a context that nothing is derived from leaves all others alone. -/
theorem create (linked : contexts.Linked derivations []) (node : ContextNode)
    (single : node.derived = []) : (contexts.create node).2.Linked derivations [] where
  numbered := by
    intro id known
    by_cases here : (⟨contexts.nextContext⟩ : ContextId) = id
    · simp [← here, Contexts.create]
    · simp only [Table.contains, get?_create, here, if_false] at known
      have below := linked.numbered known
      simp only [Contexts.create]
      omega
  known := by
    intro parent child derived
    obtain ⟨parentKnown, childKnown⟩ := linked.known derived
    simpa [Table.contains, get?_create, linked.ne_next parentKnown, linked.ne_next childKnown]
      using And.intro parentKnown childKnown
  linked := by
    intro parent child found derived known usable held inUse
    obtain ⟨parentKnown, childKnown⟩ := linked.known derived
    simp only [get?_create, linked.ne_next parentKnown, if_false] at known
    simp only [isHeld, get?_create, linked.ne_next childKnown, if_false] at inUse
    exact linked.linked derived known usable held inUse
  derived := by
    intro parent child found known member
    by_cases here : (⟨contexts.nextContext⟩ : ContextId) = parent
    · simp only [get?_create, here, if_true, Option.some.injEq] at known
      simp [← known, single] at member
    · simp only [get?_create, here, if_false] at known
      exact linked.derived known member
  spread := by
    intro parent child derived canceled held
    obtain ⟨parentKnown, childKnown⟩ := linked.known derived
    simp only [isCanceled, isHeld, get?_create, linked.ne_next parentKnown,
      linked.ne_next childKnown, if_false] at canceled held ⊢
    exact linked.spread derived canceled held

/-- What is derived from a canceled context and canceled as well needs no link. -/
theorem withoutLink (linked : contexts.Linked derivations []) {origin child : ContextId}
    (known : contexts.nodes.contains origin = true) (before : contexts.isCanceled origin = true)
    (canceled : contexts.isCanceled child = true) :
    contexts.Linked ((origin, child) :: derivations) [] where
  numbered := linked.numbered
  known := by
    intro parent other derived
    cases derived with
    | head =>
        obtain ⟨node, found, _⟩ := isCanceled_iff.1 canceled
        exact ⟨known, Option.isSome_iff_exists.2 ⟨node, found⟩⟩
    | tail _ earlier => exact linked.known earlier
  linked := by
    intro parent other node derived found usable held inUse
    cases derived with
    | head =>
        simp [isCanceled, found, usable] at before
    | tail _ earlier => exact linked.linked earlier found usable held inUse
  derived found member := List.mem_cons_of_mem _ (linked.derived found member)
  spread := by
    intro parent other derived marked held
    cases derived with
    | head => exact .inl canceled
    | tail _ earlier => exact linked.spread earlier marked held

/-- A usable context takes up a link to what is derived from it, and drops only links to contexts
that nobody holds. -/
theorem withLink (linked : contexts.Linked derivations []) {origin child : ContextId}
    {node : ContextNode} (found : contexts.nodes.get? origin = some node)
    (usable : node.canceled = false) (known : contexts.nodes.contains child = true) :
    (contexts.setNode origin
      { node with derived := node.derived.filter contexts.isHeld ++ [child] }).Linked
      ((origin, child) :: derivations) [] := by
  refine ⟨?_, ?_, ?_, ?_, ?_⟩
  · intro id inside
    rw [contains_eq, marks?_relink found, ← contains_eq] at inside
    exact linked.numbered inside
  · intro parent other derived
    simp only [contains_eq, marks?_relink found]
    simp only [← contains_eq]
    cases derived with
    | head => exact ⟨Option.isSome_iff_exists.2 ⟨node, found⟩, known⟩
    | tail _ earlier => exact linked.known earlier
  · intro parent other changed derived there unmarked kept inUse
    rw [isHeld_eq, marks?_relink found, ← isHeld_eq] at inUse
    by_cases here : origin = parent
    · subst here
      simp only [get?_setNode, if_true, Option.some.injEq] at there
      subst there
      cases derived with
      | head => simp
      | tail _ earlier =>
          have before := linked.linked earlier found unmarked kept inUse
          simp [before, inUse]
    · simp only [get?_setNode, here, if_false] at there
      cases derived with
      | head => exact absurd rfl here
      | tail _ earlier => exact linked.linked earlier there unmarked kept inUse
  · intro parent other changed there member
    by_cases here : origin = parent
    · subst here
      simp only [get?_setNode, if_true, Option.some.injEq] at there
      subst there
      rcases List.mem_append.1 member with earlier | new
      · exact List.mem_cons_of_mem _ (linked.derived found (List.mem_filter.1 earlier).1)
      · rw [List.mem_singleton.1 new]
        exact List.mem_cons_self
    · simp only [get?_setNode, here, if_false] at there
      exact List.mem_cons_of_mem _ (linked.derived there member)
  · intro parent other derived marked inUse
    rw [isCanceled_eq, marks?_relink found, ← isCanceled_eq] at marked ⊢
    rw [isHeld_eq, marks?_relink found, ← isHeld_eq] at inUse
    cases derived with
    | head => simp [isCanceled, found, usable] at marked
    | tail _ earlier => exact linked.spread earlier marked inUse

/-- Deriving a context adds it to what is derived from its origin. -/
theorem derive (linked : contexts.Linked derivations []) {origin : ContextId}
    (known : contexts.nodes.contains origin = true) (deadline : Option Int) :
    (contexts.derive origin deadline).2.Linked
      ((origin, (contexts.derive origin deadline).1) :: derivations) [] := by
  obtain ⟨node, found⟩ := Option.isSome_iff_exists.1 known
  have unchanged : ∀ made, (contexts.create made).2.nodes.get? origin = some node := by
    intro made
    rw [get?_create, if_neg (linked.ne_next known), found]
  have added : ∀ made, (contexts.create made).2.nodes.get? (contexts.create made).1 =
      some made := by
    intro made
    rw [get?_create]
    exact if_pos rfl
  cases canceled : node.canceled with
  | true =>
      rw [derive_of_canceled found canceled]
      have made := linked.create { canceled := true, deadline } rfl
      exact made.withoutLink (Option.isSome_iff_exists.2 ⟨node, unchanged _⟩)
        (isCanceled_iff.2 ⟨node, unchanged _, canceled⟩) (isCanceled_iff.2 ⟨_, added _, rfl⟩)
  | false =>
      rw [derive_of_usable found canceled]
      have made := linked.create { canceled := false, deadline } rfl
      exact made.withLink (unchanged _) canceled (Option.isSome_iff_exists.2 ⟨_, added _⟩)

/-- Letting go of a context takes away its links and nothing else that counts. -/
theorem release (linked : contexts.Linked derivations []) (id : ContextId) :
    (contexts.release id).Linked derivations [] := by
  have held : ∀ {other}, (contexts.release id).isHeld other = true →
      contexts.isHeld other = true := by
    intro other inUse
    rw [isHeld_eq, marks?_release] at inUse
    rw [isHeld_eq]
    by_cases here : id = other
    · cases found : contexts.marks? other <;> simp [here, found] at inUse
    · simpa [here] using inUse
  have contained : ∀ other, (contexts.release id).nodes.contains other =
      contexts.nodes.contains other := by
    intro other
    rw [contains_eq, contains_eq, marks?_release]
    by_cases here : id = other <;> simp [here]
  refine ⟨?_, ?_, ?_, ?_, ?_⟩
  · intro other inside
    rw [contained] at inside
    rw [nextContext_release]
    exact linked.numbered inside
  · intro parent child derived
    rw [contained, contained]
    exact linked.known derived
  · intro parent child node derived found usable kept inUse
    by_cases here : id = parent
    · subst here
      simp only [get?_release, if_true, Option.map_eq_some_iff] at found
      obtain ⟨_, _, same⟩ := found
      simp [← same] at kept
    · simp only [get?_release, here, if_false] at found
      exact linked.linked derived found usable kept (held inUse)
  · intro parent child node found member
    by_cases here : id = parent
    · subst here
      simp only [get?_release, if_true, Option.map_eq_some_iff] at found
      obtain ⟨_, _, same⟩ := found
      simp [← same] at member
    · simp only [get?_release, here, if_false] at found
      exact linked.derived found member
  · intro parent child derived marked inUse
    rw [isCanceled_release] at marked ⊢
    exact linked.spread derived marked (held inUse)

end Linked

/-! ### A cancellation -/

/-- There is a chain of derivations from one context to another with no lost context after the
first. -/
def Unbroken (derivations : List (ContextId × ContextId)) (contexts : Contexts) :
    ContextId → ContextId → Prop :=
  ReflTransGen fun parent child => (parent, child) ∈ derivations ∧ ¬ contexts.IsLost child

/-- How far a cancellation has come that began with `source` in the contexts `before`. -/
structure Underway (derivations : List (ContextId × ContextId)) (before : Contexts)
    (source : ContextId) (pending : List ContextId) (contexts : Contexts) : Prop where
  linked : contexts.Linked derivations pending
  /-- All that is to be visited is held and derived from the source without a loss. -/
  waiting : ∀ {id}, id ∈ pending →
    contexts.isHeld id = true ∧ before.Unbroken derivations source id
  held : ∀ id, contexts.isHeld id = before.isHeld id
  retains : before.Retains contexts
  /-- What has been canceled is derived from the source without a loss. -/
  fair : ∀ {id}, contexts.isCanceled id = true →
    before.isCanceled id = true ∨ before.Unbroken derivations source id
  started : contexts.isCanceled source = true ∨ source ∈ pending

section Cancel

variable {derivations : List (ContextId × ContextId)} {before contexts : Contexts}
  {source : ContextId}

/-- A cancellation begins with its source. -/
theorem Underway.initial (linked : before.Linked derivations [])
    (held : before.isHeld source = true) :
    Underway derivations before source [source] before where
  linked := { linked with
    spread := fun derived canceled inUse =>
      (linked.spread derived canceled inUse).imp_right fun none => absurd none List.not_mem_nil }
  waiting member := by
    rw [List.mem_singleton.1 member]
    exact ⟨held, .refl⟩
  held _ := rfl
  retains := .refl before
  fair := .inl
  started := .inr List.mem_cons_self

/-- A context that is canceled already is passed over. -/
theorem Underway.pass {id : ContextId} {rest : List ContextId}
    (underway : Underway derivations before source (id :: rest) contexts)
    (done : contexts.isCanceled id = true) :
    Underway derivations before source rest contexts := by
  have settled : ∀ {other}, contexts.isCanceled other = true ∨ other ∈ id :: rest →
      contexts.isCanceled other = true ∨ other ∈ rest := by
    intro other reached
    rcases reached with marked | member
    · exact .inl marked
    · cases member with
      | head => exact .inl done
      | tail _ later => exact .inr later
  exact { underway with
    linked := { underway.linked with
      spread := fun derived canceled inUse =>
        settled (underway.linked.spread derived canceled inUse) }
    waiting := fun member => underway.waiting (List.mem_cons_of_mem _ member)
    started := settled underway.started }

/-- A context is marked as canceled and lets go of its links, and nothing else changes. -/
structure Marked (contexts : Contexts) (id : ContextId) (node : ContextNode)
    (marked : Contexts) : Prop where
  found : contexts.nodes.get? id = some node
  numbers : marked.nextContext = contexts.nextContext
  after : ∀ other, marked.nodes.get? other =
    if id = other then some { node with canceled := true, derived := [] }
    else contexts.nodes.get? other

namespace Marked

variable {id : ContextId} {node : ContextNode} {marked : Contexts}
  (marks : contexts.Marked id node marked)

include marks

/-- Marking a context changes nothing in who is held. -/
theorem isHeld_eq (other : ContextId) : marked.isHeld other = contexts.isHeld other := by
  by_cases here : id = other
  · subst here
    simp [isHeld, marks.after, marks.found]
  · simp [isHeld, marks.after, here]

/-- Marking a context cancels this one only. -/
theorem isCanceled_iff {other : ContextId} :
    marked.isCanceled other = true ↔ id = other ∨ contexts.isCanceled other = true := by
  by_cases here : id = other <;> simp [isCanceled, marks.after, here]

/-- Marking a context adds none. -/
theorem contains_eq (other : ContextId) :
    marked.nodes.contains other = contexts.nodes.contains other := by
  by_cases here : id = other
  · subst here
    simp [Table.contains, marks.after, marks.found]
  · simp [Table.contains, marks.after, here]

/-- Marking a context retains all. -/
theorem retains : contexts.Retains marked := by
  intro other known there
  by_cases here : id = other
  · subst here
    have released : node.released = known.2 := by
      simp only [marks?, marks.found, Option.map_some, Option.some.injEq] at there
      exact congrArg Prod.snd there
    exact ⟨(true, known.2), by simp [marks?, marks.after, released], fun _ => rfl,
      fun released => released⟩
  · refine ⟨known, ?_, fun canceled => canceled, fun released => released⟩
    simpa [marks?, marks.after, here] using there

/-- What was to be visited is canceled or still to be visited. -/
theorem settled {rest links : List ContextId} {other : ContextId}
    (reached : contexts.isCanceled other = true ∨ other ∈ id :: rest) :
    marked.isCanceled other = true ∨ other ∈ links ++ rest := by
  rcases reached with before | member
  · exact .inl (marks.isCanceled_iff.2 (.inr before))
  · cases member with
    | head => exact .inl (marks.isCanceled_iff.2 (.inl rfl))
    | tail _ later => exact .inr (List.mem_append_right _ later)

/-- The contexts that the marked one links to, as far as they are held, are to be visited next. -/
theorem linked {rest : List ContextId} (linked : contexts.Linked derivations (id :: rest))
    (usable : node.canceled = false) (kept : node.released = false) :
    marked.Linked derivations (node.derived.filter contexts.isHeld ++ rest) where
  numbered := by
    intro other inside
    rw [marks.numbers]
    exact linked.numbered ((marks.contains_eq other).symm.trans inside)
  known := by
    intro parent child derived
    rw [marks.contains_eq, marks.contains_eq]
    exact linked.known derived
  linked := by
    intro parent child changed derived there unmarked unreleased inUse
    rw [marks.isHeld_eq] at inUse
    by_cases here : id = parent
    · simp only [marks.after, here, if_true, Option.some.injEq] at there
      simp [← there] at unmarked
    · simp only [marks.after, here, if_false] at there
      exact linked.linked derived there unmarked unreleased inUse
  derived := by
    intro parent child changed there member
    by_cases here : id = parent
    · simp only [marks.after, here, if_true, Option.some.injEq] at there
      simp [← there] at member
    · simp only [marks.after, here, if_false] at there
      exact linked.derived there member
  spread := by
    -- what was derived from the context just marked is among its links, as far as it is held
    intro parent child derived parentMarked inUse
    rw [marks.isHeld_eq] at inUse
    rcases marks.isCanceled_iff.1 parentMarked with here | earlier
    · subst here
      have link := linked.linked derived marks.found usable kept inUse
      exact .inr (List.mem_append_left _ (List.mem_filter.2 ⟨link, inUse⟩))
    · exact marks.settled (linked.spread derived earlier inUse)

end Marked

/-- A usable context is marked, and the contexts it links to are next. -/
theorem Underway.mark {id : ContextId} {rest : List ContextId} {node : ContextNode}
    {marked : Contexts} (underway : Underway derivations before source (id :: rest) contexts)
    (usable : node.canceled = false) (marks : contexts.Marked id node marked) :
    Underway derivations before source (node.derived.filter contexts.isHeld ++ rest) marked := by
  obtain ⟨heldId, chain⟩ := underway.waiting List.mem_cons_self
  have kept : node.released = false := by
    simpa [isHeld, marks.found] using heldId
  constructor
  case linked => exact marks.linked underway.linked usable kept
  case waiting =>
    intro other member
    rw [marks.isHeld_eq]
    rcases List.mem_append.1 member with link | later
    · obtain ⟨derived, inUse⟩ := List.mem_filter.1 link
      have step := underway.linked.derived marks.found derived
      exact ⟨inUse, chain.tail ⟨step, not_isLost_of_isHeld (underway.held other ▸ inUse)⟩⟩
    · exact underway.waiting (List.mem_cons_of_mem _ later)
  case held =>
    intro other
    rw [marks.isHeld_eq, underway.held]
  case retains => exact underway.retains.trans marks.retains
  case fair =>
    intro other canceled
    rcases marks.isCanceled_iff.1 canceled with here | earlier
    · exact .inr (here ▸ chain)
    · exact underway.fair earlier
  case started => exact marks.settled underway.started

/-- A visit brings a cancellation one context further. -/
theorem Underway.visit {id : ContextId} {rest : List ContextId}
    (underway : Underway derivations before source (id :: rest) contexts) :
    Underway derivations before source ((contexts.visit id).1 ++ rest) (contexts.visit id).2 := by
  rcases contexts.visit_cases id with ⟨passed, done⟩ | ⟨node, marked, found, usable, taken, rest⟩
  · rw [passed]
    obtain ⟨node, found, _⟩ := isHeld_iff.1 (underway.waiting List.mem_cons_self).1
    exact underway.pass (isCanceled_iff.2 ⟨node, found, done node found⟩)
  · rw [taken]
    exact underway.mark usable ⟨found, rest.1, rest.2⟩

/-- A cancellation comes to its end. -/
theorem Underway.cancelAll {pending : List ContextId}
    (underway : Underway derivations before source pending contexts) :
    Underway derivations before source [] (contexts.cancelAll pending) := by
  induction contexts, pending using Contexts.cancelAll.induct with
  | case1 contexts =>
      rw [Contexts.cancelAll]
      exact underway
  | case2 contexts id rest links visited step ih =>
      rw [Contexts.cancelAll, step]
      have next := underway.visit
      rw [step] at next
      exact ih next

/-- The contexts after a cancellation. -/
theorem Linked.cancel (linked : before.Linked derivations [])
    (held : before.isHeld source = true) :
    Underway derivations before source [] (before.cancel source) :=
  (Underway.initial linked held).cancelAll

/-- A cancellation marks what is derived from its source through contexts that are not lost, and
nothing else. -/
theorem isCanceled_cancel (linked : before.Linked derivations [])
    (held : before.isHeld source = true) (id : ContextId) :
    (before.cancel source).isCanceled id = true ↔
      before.isCanceled id = true ∨ before.Unbroken derivations source id := by
  have canceled := linked.cancel held
  constructor
  · exact canceled.fair
  · intro reached
    rcases reached with already | chain
    · exact canceled.retains.isCanceled already
    · induction chain with
      | refl => exact canceled.started.resolve_right List.not_mem_nil
      | tail _ step ih =>
          obtain ⟨derived, kept⟩ := step
          rcases held_or_canceled (linked.known derived).2 kept with inUse | marked
          · rw [← canceled.held] at inUse
            exact (canceled.linked.spread derived ih inUse).resolve_right List.not_mem_nil
          · exact canceled.retains.isCanceled marked

end Cancel

/-! ### Letting go -/

/-- Letting go of several contexts leaves the others in use, and every mark where it is. -/
theorem release_all {derivations : List (ContextId × ContextId)} {contexts : Contexts}
    (linked : contexts.Linked derivations []) (ids : List ContextId) :
    (ids.foldl Contexts.release contexts).Linked derivations [] ∧
      contexts.Retains (ids.foldl Contexts.release contexts) ∧
      ∀ {id}, id ∉ ids → (ids.foldl Contexts.release contexts).marks? id = contexts.marks? id := by
  induction ids generalizing contexts with
  | nil => exact ⟨linked, .refl _, fun _ => rfl⟩
  | cons first rest ih =>
      obtain ⟨links, retains, others⟩ := ih (linked.release first)
      refine ⟨links, (retains_release contexts first).trans retains, fun {id} absent => ?_⟩
      rw [List.mem_cons, not_or] at absent
      rw [List.foldl_cons, others absent.2, marks?_release, if_neg (Ne.symm absent.1)]

/-- A context that somebody refers to stays in use when the others are let go of. -/
theorem isHeld_releaseUnheld {derivations : List (ContextId × ContextId)} {contexts : Contexts}
    (linked : contexts.Linked derivations []) {held : List ContextId} {id : ContextId}
    (inUse : contexts.isHeld id = true) (member : id ∈ held) :
    (contexts.releaseUnheld held).isHeld id = true := by
  have kept : id ∉ contexts.nodes.keys.filter fun other =>
      contexts.isHeld other && !decide (other ∈ held) := by
    simp [member]
  rw [isHeld_eq, releaseUnheld, (release_all linked _).2.2 kept, ← isHeld_eq]
  exact inUse

/-! ### Deriving -/

section Derive

variable {derivations : List (ContextId × ContextId)} {contexts : Contexts} {origin : ContextId}

/-- A derived context is in use and canceled if its origin is; the others are as they were. -/
theorem marks?_derive (linked : contexts.Linked derivations [])
    (known : contexts.nodes.contains origin = true) (deadline : Option Int) (id : ContextId) :
    (contexts.derive origin deadline).2.marks? id =
      if ⟨contexts.nextContext⟩ = id then some (contexts.isCanceled origin, false)
      else contexts.marks? id := by
  obtain ⟨node, found⟩ := Option.isSome_iff_exists.1 known
  cases canceled : node.canceled with
  | true =>
      rw [derive_of_canceled found canceled]
      by_cases here : (⟨contexts.nextContext⟩ : ContextId) = id <;>
        simp [marks?, isCanceled, get?_create, here, found, canceled]
  | false =>
      rw [derive_of_usable found canceled]
      have unchanged : (contexts.create { canceled := false, deadline }).2.nodes.get? origin =
          some node := by
        rw [get?_create, if_neg (linked.ne_next known), found]
      rw [marks?_relink unchanged]
      by_cases here : (⟨contexts.nextContext⟩ : ContextId) = id <;>
        simp [marks?, isCanceled, get?_create, here, found, canceled]

/-- A derived context has the next number. -/
theorem derive_fst (contexts : Contexts) (origin : ContextId) (deadline : Option Int) :
    (contexts.derive origin deadline).1 = ⟨contexts.nextContext⟩ := by
  cases found : contexts.nodes.get? origin with
  | none => simp [derive, found, create]
  | some node =>
      cases canceled : node.canceled with
      | true => rw [derive_of_canceled found canceled]; rfl
      | false => rw [derive_of_usable found canceled]; rfl

end Derive

end Contexts

/-! ### Working with contexts -/

/-- One operation on contexts; `wait` lets time pass. -/
inductive ContextAct where
  | background
  | withCancel (origin : ContextId)
  | withDeadline (origin : ContextId) (deadline : Int)
  | withTimeout (origin : ContextId) (timeout : Int)
  | clone (context : ContextId)
  | dropContext (context : ContextId)
  | dropHandle (context : ContextId)
  | cancel (context : ContextId)
  | wait (duration : Nat)
  deriving DecidableEq, Repr

/-- What somebody who works with contexts has in hand: each copy of a context and each cancel
handle is listed once.  For reference it is kept what was derived from what. -/
structure ContextUse where
  contexts : Contexts := {}
  copies : List ContextId := []
  handles : List ContextId := []
  derivations : List (ContextId × ContextId) := []

namespace ContextUse

/-- Take a derived context in hand. -/
def adopt (use : ContextUse) (origin : ContextId) (made : ContextId × Contexts) : ContextUse :=
  { use with
    contexts := made.2
    copies := made.1 :: use.copies
    derivations := (origin, made.1) :: use.derivations }

/-- Let go of all contexts to which no copy and no handle is left. -/
def tidy (use : ContextUse) : ContextUse :=
  { use with contexts := use.contexts.releaseUnheld (use.copies ++ use.handles) }

/-- What an operation does. -/
def perform (use : ContextUse) : ContextAct → ContextUse
  | .background =>
      let made := use.contexts.background
      { use with contexts := made.2, copies := made.1 :: use.copies }
  | .withCancel origin =>
      let made := use.contexts.withCancel origin
      { use.adopt origin made with handles := made.1 :: use.handles }
  | .withDeadline origin deadline =>
      use.adopt origin (use.contexts.withDeadline origin deadline)
  | .withTimeout origin timeout => use.adopt origin (use.contexts.withTimeout origin timeout)
  | .clone context => { use with copies := context :: use.copies }
  | .dropContext context => { use with copies := use.copies.erase context }.tidy
  | .dropHandle context => { use with handles := use.handles.erase context }.tidy
  | .cancel context => { use with contexts := use.contexts.cancel context }
  | .wait duration =>
      { use with contexts := { use.contexts with now := use.contexts.now + duration } }

/-- An operation needs the context or the handle that it is called on. -/
def Allows (use : ContextUse) : ContextAct → Prop
  | .background | .wait _ => True
  | .withCancel context | .withDeadline context _ | .withTimeout context _ | .clone context
  | .dropContext context => context ∈ use.copies
  | .dropHandle context | .cancel context => context ∈ use.handles

/-- One operation leads from one state to the next. -/
def Step (use next : ContextUse) : Prop :=
  ∃ act, use.Allows act ∧ use.perform act = next

/-- Any number of operations leads from one state to another. -/
def Leads : ContextUse → ContextUse → Prop :=
  ReflTransGen Step

/-- What operations lead to from nothing at all. -/
def Reachable (use : ContextUse) : Prop :=
  Leads {} use

/-- The links are as they should be, and what is in hand is in use. -/
structure Sound (use : ContextUse) : Prop where
  linked : use.contexts.Linked use.derivations []
  held : ∀ {id}, id ∈ use.copies ++ use.handles → use.contexts.isHeld id = true

/-- What every operation keeps: marks stay, and what is derived has a new number and the mark of
its origin. -/
structure Extends (use next : ContextUse) : Prop where
  sound : next.Sound
  retains : use.contexts.Retains next.contexts
  derived : ∀ {parent child}, (parent, child) ∈ next.derivations →
    (parent, child) ∈ use.derivations ∨
      use.contexts.nodes.contains parent = true ∧ use.contexts.nodes.contains child = false ∧
        (use.contexts.isCanceled parent = true → next.contexts.isCanceled child = true)

variable {use next : ContextUse}

/-- Contexts that nobody used are in order. -/
theorem Sound.initial : Sound {} where
  linked := .initial
  held member := absurd member List.not_mem_nil

/-- What is in hand is known. -/
theorem Sound.known (sound : use.Sound) {id : ContextId} (member : id ∈ use.copies) :
    use.contexts.nodes.contains id = true := by
  obtain ⟨node, found, _⟩ := Contexts.isHeld_iff.1 (sound.held (List.mem_append_left _ member))
  exact Option.isSome_iff_exists.2 ⟨node, found⟩

/-- An operation that derives nothing and takes nothing in hand but what is in use. -/
theorem Sound.extends_of (sound : next.Sound) (retains : use.contexts.Retains next.contexts)
    (same : next.derivations = use.derivations) : use.Extends next where
  sound := sound
  retains := retains
  derived member := .inl (same ▸ member)

/-- Making a context that is not derived from any. -/
theorem Sound.background (sound : use.Sound) : use.Extends (use.perform .background) := by
  have fresh := sound.linked.fresh
  have marks : ∀ id, use.contexts.background.2.marks? id =
      if ⟨use.contexts.nextContext⟩ = id then some (false, false) else use.contexts.marks? id := by
    intro id
    by_cases here : (⟨use.contexts.nextContext⟩ : ContextId) = id <;>
      simp [Contexts.background, Contexts.marks?, Contexts.get?_create, here]
  refine Sound.extends_of ⟨sound.linked.create _ rfl, ?_⟩ (.of_eq ?_) rfl
  · intro id inHand
    change use.contexts.background.2.isHeld id = true
    rw [Contexts.isHeld_eq, marks]
    by_cases here : (⟨use.contexts.nextContext⟩ : ContextId) = id
    · simp [here]
    · rw [if_neg here, ← Contexts.isHeld_eq]
      exact sound.held (by simpa [perform, Contexts.background, Contexts.create, Ne.symm here]
        using inHand)
  · intro id known found
    change use.contexts.background.2.marks? id = _
    rw [marks, if_neg, found]
    intro same
    rw [← same] at found
    simp [Contexts.marks?, fresh] at found

/-- Deriving from a context in hand. -/
theorem Sound.adopt (sound : use.Sound) {origin : ContextId} (member : origin ∈ use.copies)
    (deadline : Option Int) {handles : List ContextId}
    (given : handles ⊆ ⟨use.contexts.nextContext⟩ :: use.handles) :
    use.Extends
      { use.adopt origin (use.contexts.derive origin deadline) with handles := handles } := by
  have known := sound.known member
  have marks := Contexts.marks?_derive sound.linked known deadline
  have fresh : use.contexts.marks? ⟨use.contexts.nextContext⟩ = none := by
    simp [Contexts.marks?, sound.linked.fresh]
  have number := Contexts.derive_fst use.contexts origin deadline
  refine ⟨⟨sound.linked.derive known deadline, ?_⟩, .of_eq ?_, ?_⟩
  · intro id inHand
    change (use.contexts.derive origin deadline).2.isHeld id = true
    rw [Contexts.isHeld_eq, marks]
    by_cases here : (⟨use.contexts.nextContext⟩ : ContextId) = id
    · simp [here]
    · rw [if_neg here, ← Contexts.isHeld_eq]
      apply sound.held
      simp only [ContextUse.adopt, number, List.cons_append, List.mem_cons, List.mem_append]
        at inHand ⊢
      rcases inHand with new | copy | handle
      · exact absurd new.symm here
      · exact .inl copy
      · rcases List.mem_cons.1 (given handle) with new | handle
        · exact absurd new.symm here
        · exact .inr handle
  · intro id known found
    change (use.contexts.derive origin deadline).2.marks? id = _
    rw [marks, if_neg, found]
    intro same
    rw [← same, fresh] at found
    cases found
  · intro parent child derived
    cases derived with
    | head =>
        refine .inr ⟨known, ?_, fun canceled => ?_⟩
        · rw [number, Contexts.contains_eq, fresh]
          rfl
        · change (use.contexts.derive origin deadline).2.isCanceled _ = true
          rw [Contexts.isCanceled_eq, marks, if_pos number.symm]
          simpa using canceled
    | tail _ earlier => exact .inl earlier

/-- Letting go of copies and handles. -/
theorem Sound.tidy (sound : use.Sound) {copies handles : List ContextId}
    (fewer : copies ++ handles ⊆ use.copies ++ use.handles) :
    use.Extends { use with copies := copies, handles := handles }.tidy := by
  refine Sound.extends_of ⟨(Contexts.release_all sound.linked _).1, ?_⟩
    (Contexts.release_all sound.linked _).2.1 rfl
  intro id inHand
  exact Contexts.isHeld_releaseUnheld sound.linked (sound.held (fewer inHand)) inHand

/-- What every operation keeps, one operation at a time. -/
theorem Sound.perform (sound : use.Sound) {act : ContextAct} (allowed : use.Allows act) :
    use.Extends (use.perform act) := by
  cases act with
  | background => exact sound.background
  | withCancel origin =>
      refine sound.adopt allowed _ (fun id member => ?_)
      rw [← Contexts.derive_fst use.contexts origin (use.contexts.deadline? origin)]
      exact member
  | withDeadline origin deadline =>
      exact sound.adopt allowed _ (List.subset_cons_of_subset _ (List.Subset.refl _))
  | withTimeout origin timeout =>
      exact sound.adopt allowed _ (List.subset_cons_of_subset _ (List.Subset.refl _))
  | clone context =>
      refine Sound.extends_of ⟨sound.linked, fun inHand => ?_⟩ (.refl _) rfl
      rcases List.mem_cons.1 inHand with here | already
      · rw [here]
        exact sound.held (List.mem_append_left _ allowed)
      · exact sound.held already
  | dropContext context =>
      apply sound.tidy
      exact List.append_subset.2 ⟨fun _ member =>
        List.mem_append_left _ (List.mem_of_mem_erase member), List.subset_append_right _ _⟩
  | dropHandle context =>
      apply sound.tidy
      exact List.append_subset.2 ⟨List.subset_append_left _ _, fun _ member =>
        List.mem_append_right _ (List.mem_of_mem_erase member)⟩
  | cancel context =>
      have canceled := sound.linked.cancel (sound.held (List.mem_append_right _ allowed))
      refine Sound.extends_of ⟨canceled.linked, fun inHand => ?_⟩ canceled.retains rfl
      exact (canceled.held _).trans (sound.held inHand)
  | wait duration => exact Sound.extends_of ⟨{ sound.linked with }, sound.held⟩ (.refl _) rfl

/-- Whatever operations lead to is as it should be. -/
theorem Reachable.sound (reachable : use.Reachable) : use.Sound := by
  induction reachable with
  | refl => exact Sound.initial
  | tail _ step ih =>
      obtain ⟨act, allowed, rfl⟩ := step
      exact (ih.perform allowed).sound

/-- A chain of derivations is as old as its last member, or ends with what was derived last. -/
theorem Extends.unbroken (extended : use.Extends next) (sound : use.Sound) {before : Contexts}
    {source id : ContextId} (chain : before.Unbroken next.derivations source id)
    (marked : ∀ {member}, before.Unbroken use.derivations source member →
      use.contexts.isCanceled member = true) :
    before.Unbroken use.derivations source id ∨
      use.contexts.nodes.contains id = false ∧ next.contexts.isCanceled id = true := by
  induction chain with
  | refl => exact .inl .refl
  | tail _ step ih =>
      obtain ⟨derived, kept⟩ := step
      rcases extended.derived derived with earlier | ⟨parentKnown, childNew, handed⟩
      · rcases ih with reached | ⟨unknown, _⟩
        · exact .inl (reached.tail ⟨earlier, kept⟩)
        · rw [(sound.linked.known earlier).1] at unknown
          cases unknown
      · rcases ih with reached | ⟨unknown, _⟩
        · exact .inr ⟨childNew, handed (marked reached)⟩
        · rw [parentKnown] at unknown
          cases unknown

/-- Once all that is derived from a context is canceled, it stays so, and what is derived later is
canceled from the start. -/
theorem Leads.canceled {later : ContextUse} (leads : use.Leads later) (sound : use.Sound)
    {before : Contexts} {source : ContextId} (retains : before.Retains use.contexts)
    (marked : ∀ {id}, before.Unbroken use.derivations source id →
      use.contexts.isCanceled id = true) :
    later.Sound ∧ before.Retains later.contexts ∧
      ∀ {id}, before.Unbroken later.derivations source id →
        later.contexts.isCanceled id = true := by
  induction leads with
  | refl => exact ⟨sound, retains, marked⟩
  | tail _ step ih =>
      obtain ⟨act, allowed, rfl⟩ := step
      obtain ⟨soundThen, retainsThen, markedThen⟩ := ih
      have extended := soundThen.perform allowed
      refine ⟨extended.sound, retainsThen.trans extended.retains, fun chain => ?_⟩
      rcases extended.unbroken soundThen chain markedThen with earlier | ⟨_, handed⟩
      · exact extended.retains.isCanceled (markedThen earlier)
      · exact handed

end ContextUse

/-- A cancellation marks what is derived from the canceled context through contexts that were not
lost, which means let go of while they could still be canceled, and marks nothing else.  From
then on all of that reports the cancellation, and so does what is derived from it later; and
what is still in hand was not lost. -/
theorem cancel_reaches_derived {use : ContextUse} (reachable : use.Reachable)
    {source : ContextId} (handle : source ∈ use.handles) :
    (∀ id, (use.perform (.cancel source)).contexts.isCanceled id = true ↔
      use.contexts.isCanceled id = true ∨
        use.contexts.Unbroken use.derivations source id) ∧
    ∀ {later : ContextUse}, (use.perform (.cancel source)).Leads later →
      (∀ id, use.contexts.Unbroken later.derivations source id →
        later.contexts.error? id = some .canceled) ∧
      ∀ id ∈ later.copies ++ later.handles, ¬ use.contexts.IsLost id := by
  have sound := reachable.sound
  have held := sound.held (List.mem_append_right _ handle)
  have marks := Contexts.isCanceled_cancel sound.linked held
  have allowed : use.Allows (.cancel source) := handle
  have extended := sound.perform allowed
  refine ⟨marks, fun {later} leads => ?_⟩
  obtain ⟨soundLater, retains, canceled⟩ := leads.canceled extended.sound extended.retains
    fun chain => (marks _).2 (.inr chain)
  refine ⟨fun id chain => Contexts.error?_of_isCanceled (canceled chain), fun id inHand => ?_⟩
  exact retains.not_isLost (soundLater.held inHand)

/-- A context with a child that has a deadline and a grandchild whose handle is dropped. -/
def threeGenerations : List ContextAct :=
  [.background, .withCancel ⟨0⟩, .withDeadline ⟨1⟩ 60, .withCancel ⟨2⟩, .dropHandle ⟨3⟩]

/-- A cancellation reaches the grandchild while the child is in hand. -/
theorem grandchild_canceled :
    (((threeGenerations.foldl ContextUse.perform {}).perform (.cancel ⟨1⟩)).perform
      (.wait 5)).contexts.error? ⟨3⟩ = some .canceled := by
  have reachable : (threeGenerations.foldl ContextUse.perform {}).Reachable := by
    refine .tail (.tail (.tail (.tail (.tail .refl ⟨.background, ?_, rfl⟩)
      ⟨.withCancel ⟨0⟩, ?_, rfl⟩) ⟨.withDeadline ⟨1⟩ 60, ?_, rfl⟩) ⟨.withCancel ⟨2⟩, ?_, rfl⟩)
      ⟨.dropHandle ⟨3⟩, ?_, rfl⟩ <;> simp only [ContextUse.Allows] <;> decide
  have handle : ⟨1⟩ ∈ (threeGenerations.foldl ContextUse.perform {}).handles := by decide
  have later := (cancel_reaches_derived reachable handle).2 (.single ⟨.wait 5, trivial, rfl⟩)
  refine later.1 ⟨3⟩ (.tail (b := ⟨2⟩) (.tail .refl ⟨?_, ?_⟩) ⟨?_, ?_⟩)
  · decide
  · exact Contexts.not_isLost_of_isHeld (by decide)
  · decide
  · exact Contexts.not_isLost_of_isHeld (by decide)

/-- Once the child is let go of, nothing links its own children to what it was derived from. -/
example :
    (((threeGenerations.foldl ContextUse.perform {}).perform (.dropContext ⟨2⟩)).perform
      (.cancel ⟨1⟩)).contexts.error? ⟨3⟩ = none := by
  cbv

end Provision
