import Provision.Error
import Provision.Table

/-!
# Contexts

A context carries the cancellation and the deadline of a request.  Contexts are derived from one
another: a derived context takes over the earlier of the two deadlines and is canceled together
with the one it came from.  A context refers to those derived from it and not the other way
round, so cancellation travels along the links of contexts that somebody still holds.

`Contexts` is the store of all of them.  `cancelAll` visits contexts one at a time; a visit marks
the context, wakes whoever watches it and hands over its links, so that no context is visited
twice and the visits come to an end.  A watch is a request to be told when a context is done: it
waits from its first poll on and is woken by a cancellation of its context.
-/

namespace Provision

/-- The identity of a context. -/
structure ContextId where
  index : Nat
  deriving DecidableEq, Repr

/-- The identity of a watch on a context. -/
structure WatchId where
  index : Nat
  deriving DecidableEq, Repr

/-- One context: its flag, its deadline, the contexts derived from it and still to be canceled
with it, and whether everybody has let go of it. -/
structure ContextNode where
  canceled : Bool
  deadline : Option Int
  derived : List ContextId := []
  released : Bool := false
  deriving Repr

/-- Where a watch stands: never polled, waiting since its last poll, or woken since then. -/
inductive WatchPhase where
  | fresh
  | waiting
  | woken
  deriving DecidableEq, Repr

/-- A watch on a context. -/
structure Watch where
  context : ContextId
  phase : WatchPhase := .fresh
  deriving Repr

/-- What a poll of a watch tells: whether the watch was woken since the last poll, and the
context error if the context is done. -/
structure Poll where
  woken : Bool
  outcome : Option ContextError
  deriving Repr

/-- All contexts and watches, and the time. -/
structure Contexts where
  nodes : Table ContextId ContextNode := {}
  watches : Table WatchId Watch := {}
  nextContext : Nat := 0
  nextWatch : Nat := 0
  now : Int := 0

namespace Contexts

/-- Whether a context exists and somebody still holds it. -/
def isHeld (contexts : Contexts) (id : ContextId) : Bool :=
  (contexts.nodes.get? id).any fun node => !node.released

/-- Store what is known of a context. -/
def setNode (contexts : Contexts) (id : ContextId) (node : ContextNode) : Contexts :=
  { contexts with nodes := contexts.nodes.put id node }

/-- Whether a context is marked as canceled. -/
def isCanceled (contexts : Contexts) (id : ContextId) : Bool :=
  (contexts.nodes.get? id).any ContextNode.canceled

/-- The deadline of a context. -/
def deadline? (contexts : Contexts) (id : ContextId) : Option Int :=
  (contexts.nodes.get? id).bind ContextNode.deadline

/-- Why a context may not be used: it is canceled, or else its deadline has come. -/
def error? (contexts : Contexts) (id : ContextId) : Option ContextError :=
  match contexts.nodes.get? id with
  | none => none
  | some node =>
      if node.canceled then
        some .canceled
      else
        match node.deadline with
        | some deadline => if deadline ≤ contexts.now then some .deadlineExceeded else none
        | none => none

/-- Add a context. -/
def create (contexts : Contexts) (node : ContextNode) : ContextId × Contexts :=
  let id : ContextId := ⟨contexts.nextContext⟩
  (id, { contexts with
    nodes := contexts.nodes.put id node, nextContext := contexts.nextContext + 1 })

/-- A new context that is not derived from any other: never canceled, without a deadline. -/
def background (contexts : Contexts) : ContextId × Contexts :=
  contexts.create { canceled := false, deadline := none }

/-- A context derived from `parent` with the given deadline.

The derived context is canceled from the start if its parent is.  Otherwise the parent links to
it, and drops at this occasion its links to contexts that nobody holds any more. -/
def derive (contexts : Contexts) (parent : ContextId) (deadline : Option Int) :
    ContextId × Contexts :=
  match contexts.nodes.get? parent with
  | none => contexts.create { canceled := false, deadline }
  | some node =>
      if node.canceled then
        contexts.create { canceled := true, deadline }
      else
        let (id, contexts) := contexts.create { canceled := false, deadline }
        (id, contexts.setNode parent
          { node with derived := node.derived.filter contexts.isHeld ++ [id] })

/-- A derived context that can be canceled on its own; its deadline is that of its parent. -/
def withCancel (contexts : Contexts) (parent : ContextId) : ContextId × Contexts :=
  contexts.derive parent (contexts.deadline? parent)

/-- The earlier of a deadline that may be missing and one that is given. -/
def earlier : Option Int → Int → Int
  | some inherited, deadline => if inherited < deadline then inherited else deadline
  | none, deadline => deadline

/-- A derived context that ends at `deadline`, or with its parent if that is earlier. -/
def withDeadline (contexts : Contexts) (parent : ContextId) (deadline : Int) :
    ContextId × Contexts :=
  contexts.derive parent (some (earlier (contexts.deadline? parent) deadline))

/-- A derived context that ends once `timeout` has passed. -/
def withTimeout (contexts : Contexts) (parent : ContextId) (timeout : Int) :
    ContextId × Contexts :=
  contexts.withDeadline parent (contexts.now + timeout)

/-- Let go of a context for good.  It keeps its mark for those who look at it later, but nothing
reaches other contexts through it. -/
def release (contexts : Contexts) (id : ContextId) : Contexts :=
  match contexts.nodes.get? id with
  | none => contexts
  | some node => contexts.setNode id { node with released := true, derived := [] }

/-- Let go of every context that is not held any more. -/
def releaseUnheld (contexts : Contexts) (held : List ContextId) : Contexts :=
  let unheld := contexts.nodes.keys.filter fun id => contexts.isHeld id && !decide (id ∈ held)
  unheld.foldl release contexts

/-- Wake the watches that wait for a context. -/
def wake (contexts : Contexts) (id : ContextId) : Contexts :=
  { contexts with
    watches := contexts.watches.mapValues fun watch =>
      if watch.context = id ∧ watch.phase = .waiting then
        { watch with phase := .woken }
      else
        watch }

/-- Mark a context as canceled, and tell whether this is news. -/
def mark (contexts : Contexts) (id : ContextId) : Bool × Contexts :=
  match contexts.nodes.get? id with
  | none => (false, contexts)
  | some node =>
      if node.canceled then
        (false, contexts)
      else
        (true, contexts.setNode id { node with canceled := true })

/-- Take the links of a context: the contexts derived from it that somebody holds. -/
def takeLinks (contexts : Contexts) (id : ContextId) : List ContextId × Contexts :=
  match contexts.nodes.get? id with
  | none => ([], contexts)
  | some node =>
      (node.derived.filter contexts.isHeld, contexts.setNode id { node with derived := [] })

/-- Cancel one context and nothing else: mark it, wake its watches and take its links.  A
canceled context stays as it is. -/
def visit (contexts : Contexts) (id : ContextId) : List ContextId × Contexts :=
  match contexts.mark id with
  | (false, _) => ([], contexts)
  | (true, marked) => (marked.wake id).takeLinks id

/-- How many contexts are not canceled. -/
def usable (contexts : Contexts) : Nat :=
  contexts.nodes.entries.countP fun entry => !entry.2.canceled

@[simp] theorem usable_wake (contexts : Contexts) (id : ContextId) :
    (contexts.wake id).usable = contexts.usable := rfl

theorem countP_insertEntry {entries : List (ContextId × ContextNode)} {id : ContextId}
    {node changed : ContextNode} (found : Table.find? id entries = some node) :
    (Table.insertEntry id changed entries).countP (fun entry => !entry.2.canceled)
        + (!node.canceled).toNat =
      entries.countP (fun entry => !entry.2.canceled) + (!changed.canceled).toNat := by
  induction entries with
  | nil => simp [Table.find?] at found
  | cons entry rest ih =>
      by_cases here : entry.1 = id
      · have same : entry.2 = node := by simpa [Table.find?, here] using found
        cases before : node.canceled <;> cases after : changed.canceled <;>
          simp [Table.insertEntry, here, same, before, after]
      · have later : Table.find? id rest = some node := by
          simpa [Table.find?, here] using found
        have step := ih later
        simp only [Table.insertEntry, here, if_false, List.countP_cons]
        omega

/-- Storing what is known of a context counts it as it is now instead of as it was. -/
theorem usable_setNode {contexts : Contexts} {id : ContextId} {node : ContextNode}
    (changed : ContextNode) (found : contexts.nodes.get? id = some node) :
    (contexts.setNode id changed).usable + (!node.canceled).toNat =
      contexts.usable + (!changed.canceled).toNat :=
  countP_insertEntry found

/-- Taking links cancels nothing. -/
theorem usable_takeLinks (contexts : Contexts) (id : ContextId) :
    (contexts.takeLinks id).2.usable = contexts.usable := by
  unfold takeLinks
  cases found : contexts.nodes.get? id with
  | none => rfl
  | some node =>
      have counted := usable_setNode { node with derived := [] } found
      simpa using counted

/-- A mark that is news leaves one usable context fewer. -/
theorem usable_mark {contexts marked : Contexts} {id : ContextId}
    (news : contexts.mark id = (true, marked)) : marked.usable < contexts.usable := by
  unfold mark at news
  cases found : contexts.nodes.get? id with
  | none => simp [found] at news
  | some node =>
      cases flag : node.canceled with
      | true => simp [found, flag] at news
      | false =>
          have counted := usable_setNode { node with canceled := true } found
          simp only [found, flag, Bool.false_eq_true, if_false, Prod.mk.injEq, true_and] at news
          subst news
          simp only [flag, Bool.not_false, Bool.toNat_true, Bool.not_true, Bool.toNat_false]
            at counted
          omega

/-- A visit cancels a usable context or leaves everything as it is. -/
theorem visit_progress (contexts : Contexts) (id : ContextId) :
    (contexts.visit id).2.usable < contexts.usable ∨ contexts.visit id = ([], contexts) := by
  unfold visit
  cases marking : contexts.mark id with
  | mk news marked =>
      cases news with
      | false => exact .inr rfl
      | true =>
          refine .inl ?_
          simp only [usable_takeLinks, usable_wake]
          exact usable_mark marking

/-- Cancel the listed contexts and everything that is linked to them, in depth-first order. -/
def cancelAll (contexts : Contexts) : List ContextId → Contexts
  | [] => contexts
  | id :: rest =>
      match _step : contexts.visit id with
      | (links, visited) => cancelAll visited (links ++ rest)
termination_by pending => (contexts.usable, pending.length)
decreasing_by
  rcases contexts.visit_progress id with fewer | same
  · rw [_step] at fewer
    exact Prod.Lex.left _ _ fewer
  · rw [_step] at same
    obtain ⟨rfl, rfl⟩ := Prod.mk.inj same
    exact Prod.Lex.right _ (by simp)

/-- Cancel a context and all that is derived from it through contexts that somebody holds. -/
def cancel (contexts : Contexts) (id : ContextId) : Contexts :=
  contexts.cancelAll [id]

/-- Begin to watch a context. -/
def watch (contexts : Contexts) (context : ContextId) : WatchId × Contexts :=
  let id : WatchId := ⟨contexts.nextWatch⟩
  (id, { contexts with
    watches := contexts.watches.put id { context }, nextWatch := contexts.nextWatch + 1 })

/-- Give up a watch. -/
def unwatch (contexts : Contexts) (id : WatchId) : Contexts :=
  { contexts with watches := contexts.watches.erase id }

/-- Enter a watch among the waiting ones.  This comes before the context is looked at, so that a
cancellation in between wakes the watch. -/
def await (contexts : Contexts) (id : WatchId) : Contexts :=
  match contexts.watches.get? id with
  | none => contexts
  | some watch =>
      { contexts with watches := contexts.watches.put id { watch with phase := .waiting } }

/-- Poll a watch: it starts waiting, and then the context is looked at.  A watch whose context is
done is used up. -/
def poll (contexts : Contexts) (id : WatchId) : Option (Poll × Contexts) :=
  match contexts.watches.get? id with
  | none => none
  | some watch =>
      let woken := decide (watch.phase = .woken)
      let waiting := contexts.await id
      match waiting.error? watch.context with
      | some reason => some ({ woken, outcome := some reason }, waiting.unwatch id)
      | none => some ({ woken, outcome := none }, waiting)

end Contexts

/-- The debug form of a context without a deadline. -/
def contextDebugText (error : Option ContextError) : String :=
  "Context \x7b deadline: None, err: "
    ++ (match error with
        | none => "None"
        | some reason => "Some(" ++ reason.debugText ++ ")")
    ++ " \x7d"

/-- The debug form of the handle that cancels a context. -/
def cancelDebugText (canceled : Bool) : String :=
  "CancelHandle \x7b canceled: " ++ toString canceled ++ " \x7d"

end Provision
