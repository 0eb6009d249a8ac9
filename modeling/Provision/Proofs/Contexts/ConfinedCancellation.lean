import Provision.Proofs.Contexts.Cancellation

/-!
# What a cancellation leaves alone

A cancellation travels downwards only.  A context is canceled because somebody canceled it or one
of the contexts it was derived from, so what is above it, beside it or apart from it does not
notice.
Contexts that are canceled already are passed over, hence nothing changes when a cancellation is
made again, and it does not matter in which order several are made.

`Contexts.Cut` says what cancellations do to the contexts there are: which are canceled in the end
tells everything else.

Main statement: `cancellation_confined`.
-/

namespace Provision

open Relation

/-! ### What a cancellation does to each context -/

/-- A context that is to be canceled gets its mark and loses its links, unless it was canceled
before. -/
def ContextNode.cut (marked : Bool) (node : ContextNode) : ContextNode :=
  if marked && !node.canceled then { node with canceled := true, derived := [] } else node

namespace Contexts

/-- Some more contexts are canceled than before, and all else follows from that. -/
structure Cut (before after : Contexts) : Prop where
  node : ∀ id, after.nodes.get? id =
    (before.nodes.get? id).map (ContextNode.cut (after.isCanceled id))
  now : after.now = before.now

/-- What a context reports, in terms of its mark, its deadline and the time. -/
theorem error?_eq (contexts : Contexts) (id : ContextId) :
    contexts.error? id =
      if contexts.isCanceled id = true then some .canceled
      else (contexts.deadline? id).bind fun deadline =>
        if deadline ≤ contexts.now then some .deadlineExceeded else none := by
  cases found : contexts.nodes.get? id with
  | none => simp [error?, isCanceled, deadline?, found]
  | some node =>
      cases flag : node.canceled <;> cases due : node.deadline <;>
        simp [error?, isCanceled, deadline?, found, flag, due]

/-- A context reports that it is canceled just if it is marked so. -/
theorem error?_eq_canceled_iff {contexts : Contexts} {id : ContextId} :
    contexts.error? id = some .canceled ↔ contexts.isCanceled id = true := by
  rw [error?_eq]
  cases contexts.isCanceled id with
  | true => simp
  | false => cases contexts.deadline? id <;> simp

/-- Visiting a context takes no time. -/
theorem now_visit (contexts : Contexts) (id : ContextId) :
    (contexts.visit id).2.now = contexts.now := by
  unfold visit mark takeLinks
  cases found : contexts.nodes.get? id with
  | none => rfl
  | some node =>
      cases flag : node.canceled with
      | true => simp [flag]
      | false => simp [flag, wake, setNode]

namespace Cut

variable {before between after : Contexts}

theorem refl (contexts : Contexts) : contexts.Cut contexts where
  node id := by
    cases found : contexts.nodes.get? id with
    | none => rfl
    | some node => simp [isCanceled, found, ContextNode.cut]
  now := rfl

/-- Whatever is canceled stays canceled. -/
theorem isCanceled (cut : before.Cut after) {id : ContextId}
    (canceled : before.isCanceled id = true) : after.isCanceled id = true := by
  obtain ⟨node, found, marked⟩ := isCanceled_iff.1 canceled
  refine isCanceled_iff.2 ⟨node, ?_, marked⟩
  simp [cut.node, found, ContextNode.cut, marked]

theorem trans (first : before.Cut between) (second : between.Cut after) : before.Cut after where
  node id := by
    rw [second.node, first.node, Option.map_map]
    congr 1
    funext node
    cases then_ : between.isCanceled id with
    | true =>
        rw [second.isCanceled then_]
        cases flag : node.canceled <;> simp [ContextNode.cut, flag]
    | false => simp [ContextNode.cut]
  now := second.now.trans first.now

/-- A visit cancels one context at most. -/
theorem visit (contexts : Contexts) (id : ContextId) : contexts.Cut (contexts.visit id).2 := by
  have time := now_visit contexts id
  rcases contexts.visit_cases id with ⟨passed, _⟩ | ⟨node, visited, found, usable, step, -, after⟩
  · rw [passed]
    exact refl contexts
  · rw [step] at time ⊢
    refine ⟨fun other => ?_, time⟩
    by_cases here : id = other
    · subst here
      have canceled : visited.isCanceled id = true :=
        isCanceled_iff.2 ⟨_, (after id).trans (if_pos rfl), rfl⟩
      simp [canceled, after, found, ContextNode.cut, usable]
    · have flag : visited.isCanceled other = contexts.isCanceled other := by
        simp [Contexts.isCanceled, after, here]
      rw [flag, after, if_neg here]
      exact (refl contexts).node other

/-- A cancellation cuts contexts, however many are to be visited. -/
theorem cancelAll (contexts : Contexts) (pending : List ContextId) :
    contexts.Cut (contexts.cancelAll pending) := by
  induction contexts, pending using Contexts.cancelAll.induct with
  | case1 contexts =>
      rw [Contexts.cancelAll]
      exact refl contexts
  | case2 contexts id rest links visited step ih =>
      rw [Contexts.cancelAll, step]
      have first := visit contexts id
      rw [step] at first
      exact first.trans ih

/-- Two ways to cancel contexts that cancel the same ones come to the same. -/
theorem node_eq {other : Contexts} (first : before.Cut after) (second : before.Cut other)
    (same : ∀ id, after.isCanceled id = other.isCanceled id) (id : ContextId) :
    after.nodes.get? id = other.nodes.get? id := by
  rw [first.node, second.node, same]

/-- A deadline is not touched. -/
theorem deadline?_eq (cut : before.Cut after) (id : ContextId) :
    after.deadline? id = before.deadline? id := by
  rw [deadline?, deadline?, cut.node]
  cases before.nodes.get? id with
  | none => rfl
  | some node =>
      simp only [Option.map_some, Option.bind_some, ContextNode.cut]
      split <;> rfl

/-- A context that is not canceled reports what it did before. -/
theorem error?_eq (cut : before.Cut after) {id : ContextId}
    (spared : after.isCanceled id = before.isCanceled id) :
    after.error? id = before.error? id := by
  rw [Contexts.error?_eq, Contexts.error?_eq, spared, cut.deadline?_eq, cut.now]

end Cut

/-! ### A cancellation ends -/

/-- How many links there are between contexts. -/
def links (contexts : Contexts) : Nat :=
  (contexts.nodes.entries.flatMap fun entry => entry.2.derived).length

/-- Changing an entry changes the count of links by those of the entry. -/
theorem length_links_insertEntry {entries : List (ContextId × ContextNode)} {id : ContextId}
    {node changed : ContextNode} (found : Table.find? id entries = some node) :
    ((Table.insertEntry id changed entries).flatMap fun entry => entry.2.derived).length
        + node.derived.length =
      (entries.flatMap fun entry => entry.2.derived).length + changed.derived.length := by
  induction entries with
  | nil => simp [Table.find?] at found
  | cons entry rest ih =>
      by_cases here : entry.1 = id
      · have same : entry.2 = node := by simpa [Table.find?, here] using found
        simp only [Table.insertEntry, here, if_true, List.flatMap_cons, List.length_append, same]
        omega
      · have later : Table.find? id rest = some node := by
          simpa [Table.find?, here] using found
        have step := ih later
        simp only [Table.insertEntry, here, if_false, List.flatMap_cons, List.length_append]
        omega

/-- Storing what is known of a context counts its links as they are now. -/
theorem links_setNode {contexts : Contexts} {id : ContextId} {node : ContextNode}
    (changed : ContextNode) (found : contexts.nodes.get? id = some node) :
    (contexts.setNode id changed).links + node.derived.length =
      contexts.links + changed.derived.length :=
  length_links_insertEntry found

/-- The contexts that a visit hands over are no longer linked. -/
theorem length_visit_add_links (contexts : Contexts) (id : ContextId) :
    (contexts.visit id).1.length + (contexts.visit id).2.links ≤ contexts.links := by
  unfold visit mark
  cases found : contexts.nodes.get? id with
  | none => simp
  | some node =>
      cases flag : node.canceled with
      | true => simp [flag]
      | false =>
          let marked := (contexts.setNode id { node with canceled := true }).wake id
          have stored : marked.nodes.get? id = some { node with canceled := true } := by
            simp [marked, wake, get?_setNode]
          have taken := links_setNode { node with canceled := true, derived := [] } stored
          have unchanged : marked.links = contexts.links := by
            have counted := links_setNode { node with canceled := true } found
            exact Nat.add_right_cancel counted
          have fewer := List.length_filter_le marked.isHeld node.derived
          simp only [flag, Bool.false_eq_true, if_false]
          change (marked.takeLinks id).1.length + (marked.takeLinks id).2.links ≤ _
          simp only [takeLinks, stored]
          simp only [List.length_nil, unchanged] at taken
          omega

/-- What is left to visit, and the contexts, after a number of visits.  Each visit is to the first
of those left, and what it hands over comes next. -/
def visits : Nat → List ContextId × Contexts → List ContextId × Contexts
  | 0, left => left
  | _ + 1, ([], contexts) => ([], contexts)
  | count + 1, (id :: rest, contexts) =>
      visits count ((contexts.visit id).1 ++ rest, (contexts.visit id).2)

/-- A cancellation ends: it visits what it begins with and follows each link once at most. -/
theorem visits_cancelAll (contexts : Contexts) (pending : List ContextId) :
    ∃ count ≤ pending.length + contexts.links,
      visits count (pending, contexts) = ([], contexts.cancelAll pending) := by
  induction contexts, pending using Contexts.cancelAll.induct with
  | case1 contexts => exact ⟨0, Nat.zero_le _, by rw [Contexts.cancelAll]; rfl⟩
  | case2 contexts id rest links visited step ih =>
      obtain ⟨count, bound, ends⟩ := ih
      have fewer := contexts.length_visit_add_links id
      rw [step] at fewer
      refine ⟨count + 1, ?_, ?_⟩
      · rw [List.length_append] at bound
        simp only [List.length_cons] at fewer ⊢
        omega
      · rw [visits, step, ends, Contexts.cancelAll, step]

/-- Visits that leave nothing to visit come to what a cancellation comes to. -/
theorem cancelAll_eq_visits {count : Nat} {pending : List ContextId} {contexts : Contexts}
    (done : (visits count (pending, contexts)).1 = []) :
    contexts.cancelAll pending = (visits count (pending, contexts)).2 := by
  induction count generalizing pending contexts with
  | zero =>
      obtain rfl : pending = [] := done
      rw [cancelAll]
      rfl
  | succ count ih =>
      cases pending with
      | nil =>
          rw [cancelAll]
          rfl
      | cons id rest =>
          rw [cancelAll]
          exact ih done

/-- Canceling a context that is canceled already changes nothing. -/
theorem cancel_of_isCanceled {contexts : Contexts} {id : ContextId}
    (canceled : contexts.isCanceled id = true) : contexts.cancel id = contexts := by
  obtain ⟨node, found, marked⟩ := isCanceled_iff.1 canceled
  have passed : contexts.visit id = ([], contexts) := by simp [visit, mark, found, marked]
  rw [cancel, cancelAll, passed]
  simp [cancelAll]

/-! ### Several cancellations -/

section Several

variable {derivations : List (ContextId × ContextId)} {before : Contexts} {source : ContextId}

/-- A cancellation loses no context, and none that is lost is found again. -/
theorem isLost_cancel (linked : before.Linked derivations []) (held : before.isHeld source = true)
    (id : ContextId) : (before.cancel source).IsLost id ↔ before.IsLost id := by
  have cut := Cut.cancelAll before [source]
  constructor
  · rintro ⟨node, found, released, usable⟩
    rw [cancel, cut.node, Option.map_eq_some_iff] at found
    obtain ⟨old, there, rfl⟩ := found
    cases flag : old.canceled with
    | true => simp [ContextNode.cut, flag] at usable
    | false => exact ⟨old, there, by simpa [ContextNode.cut, apply_ite] using released, flag⟩
  · rintro ⟨node, found, released, usable⟩
    have spared : (before.cancel source).isCanceled id = false := by
      refine Bool.eq_false_iff.mpr fun canceled => ?_
      rcases (isCanceled_cancel linked held id).1 canceled with already | chain
      · simp [isCanceled, found, usable] at already
      · have lost : before.IsLost id := ⟨node, found, released, usable⟩
        rcases ReflTransGen.cases_tail chain with same | ⟨_, _, _, kept⟩
        · exact not_isLost_of_isHeld held (same ▸ lost)
        · exact kept lost
    refine ⟨node, ?_, released, usable⟩
    rw [cancel] at spared ⊢
    rw [cut.node, spared, found]
    rfl

/-- Several cancellations mark what is derived from any of their sources through contexts that are
not lost. -/
theorem isCanceled_foldl_cancel {sources : List ContextId} (linked : before.Linked derivations [])
    (held : ∀ source ∈ sources, before.isHeld source = true) (id : ContextId) :
    (sources.foldl cancel before).isCanceled id = true ↔
      before.isCanceled id = true ∨
        ∃ source ∈ sources, before.Unbroken derivations source id := by
  induction sources generalizing before with
  | nil => simp
  | cons source rest ih =>
      have heldFirst := held source List.mem_cons_self
      have canceled := linked.cancel heldFirst
      have same : (before.cancel source).Unbroken derivations = before.Unbroken derivations := by
        unfold Unbroken
        simp only [isLost_cancel linked heldFirst]
      rw [List.foldl_cons, ih canceled.linked, isCanceled_cancel linked heldFirst, same]
      · simp only [List.mem_cons, exists_eq_or_imp, or_assoc]
      · intro other member
        rw [canceled.held]
        exact held other (List.mem_cons_of_mem _ member)

/-- Several cancellations cut contexts. -/
theorem Cut.foldl_cancel (contexts : Contexts) (sources : List ContextId) :
    contexts.Cut (sources.foldl cancel contexts) := by
  induction sources generalizing contexts with
  | nil => exact .refl contexts
  | cons source rest ih => exact (Cut.cancelAll contexts [source]).trans (ih _)

end Several

end Contexts

/-- Letting go of contexts cancels nothing. -/
theorem Contexts.isCanceled_releaseUnheld (contexts : Contexts) (held : List ContextId)
    (id : ContextId) : (contexts.releaseUnheld held).isCanceled id = contexts.isCanceled id := by
  rw [releaseUnheld]
  generalize contexts.nodes.keys.filter _ = unheld
  induction unheld generalizing contexts with
  | nil => rfl
  | cons first rest ih => rw [List.foldl_cons, ih, isCanceled_release]

/-! ### Who is canceled, and why -/

namespace ContextUse

variable {use next later : ContextUse}

/-- A context is another one or was derived from it, directly or through others. -/
def Descends (use : ContextUse) : ContextId → ContextId → Prop :=
  ReflTransGen fun parent child => (parent, child) ∈ use.derivations

/-- Operations in their order, each of them possible when its turn comes. -/
inductive Runs (use : ContextUse) : List ContextAct → ContextUse → Prop where
  | none : Runs use [] use
  | snoc {acts : List ContextAct} {act : ContextAct} {next : ContextUse} :
      Runs use acts next → next.Allows act → Runs use (acts ++ [act]) (next.perform act)

/-- A run leads on from use to use. -/
theorem Runs.leads {acts : List ContextAct} (runs : use.Runs acts next) : use.Leads next := by
  induction runs with
  | none => exact .refl
  | snoc _ allowed ih => exact ih.tail ⟨_, allowed, rfl⟩

/-- An operation derives the next context from one in hand, or derives nothing. -/
theorem derivations_perform (use : ContextUse) {act : ContextAct} (allowed : use.Allows act) :
    (use.perform act).derivations = use.derivations ∨ ∃ origin ∈ use.copies,
      (use.perform act).derivations =
        (origin, ⟨use.contexts.nextContext⟩) :: use.derivations := by
  cases act with
  | withCancel origin =>
      exact .inr ⟨origin, allowed, congrArg (fun made => (origin, made) :: use.derivations)
        (Contexts.derive_fst ..)⟩
  | withDeadline origin deadline =>
      exact .inr ⟨origin, allowed, congrArg (fun made => (origin, made) :: use.derivations)
        (Contexts.derive_fst ..)⟩
  | withTimeout origin timeout =>
      exact .inr ⟨origin, allowed, congrArg (fun made => (origin, made) :: use.derivations)
        (Contexts.derive_fst ..)⟩
  | _ => exact .inl rfl

/-- What was derived from what stays so. -/
theorem Descends.perform {source id : ContextId} (descends : use.Descends source id)
    {act : ContextAct} (allowed : use.Allows act) : (use.perform act).Descends source id := by
  refine ReflTransGen.mono (fun parent child derived => ?_) _ _ descends
  rcases use.derivations_perform allowed with same | ⟨_, _, more⟩
  · exact same ▸ derived
  · exact more ▸ List.mem_cons_of_mem _ derived

/-- Every context is derived from one older context at most. -/
structure Branching (use : ContextUse) : Prop where
  older : ∀ {parent child}, (parent, child) ∈ use.derivations → parent.index < child.index
  single : ∀ {parent other child}, (parent, child) ∈ use.derivations →
    (other, child) ∈ use.derivations → parent = other

/-- Nothing branches to begin with. -/
theorem Branching.initial : Branching {} where
  older derived := by cases derived
  single derived := by cases derived

/-- Every act that is allowed keeps descent in the order of numbers. -/
theorem Branching.perform (branching : use.Branching) (sound : use.Sound) {act : ContextAct}
    (allowed : use.Allows act) : (use.perform act).Branching := by
  rcases use.derivations_perform allowed with same | ⟨origin, inHand, more⟩
  · refine ⟨fun derived => branching.older (same ▸ derived), fun one another => ?_⟩
    exact branching.single (same ▸ one) (same ▸ another)
  · have new : ∀ {parent child}, (parent, child) ∈ use.derivations →
        child ≠ ⟨use.contexts.nextContext⟩ :=
      fun derived => (sound.linked.ne_next (sound.linked.known derived).2).symm
    constructor
    · intro parent child derived
      rw [more] at derived
      cases derived with
      | head => exact sound.linked.numbered (sound.known inHand)
      | tail _ earlier => exact branching.older earlier
    · intro parent other child one another
      rw [more] at one another
      cases one with
      | head =>
          cases another with
          | head => rfl
          | tail _ earlier => exact absurd rfl (new earlier)
      | tail _ first =>
          cases another with
          | head => exact absurd rfl (new first)
          | tail _ second => exact branching.single first second

/-- Descent is in the order of numbers wherever contexts are used. -/
theorem Reachable.branching (reachable : use.Reachable) : use.Branching := by
  induction reachable with
  | refl => exact Branching.initial
  | tail before step ih =>
      obtain ⟨act, allowed, rfl⟩ := step
      exact ih.perform (Reachable.sound before) allowed

namespace Branching

variable {source id : ContextId} (branching : use.Branching)

include branching

/-- A context does not descend from a younger one. -/
theorem le_of_descends (descends : use.Descends source id) : source.index ≤ id.index := by
  induction descends with
  | refl => exact Nat.le_refl _
  | tail _ derived ih => exact Nat.le_trans ih (Nat.le_of_lt (branching.older derived))

/-- What is above a context does not descend from it. -/
theorem not_descends_of_above {child : ContextId} (derived : (id, child) ∈ use.derivations)
    (below : use.Descends child source) : ¬ use.Descends source id := by
  intro descends
  have up := branching.le_of_descends (below.trans descends)
  have down := branching.older derived
  omega

/-- What was derived from the same context does not descend from it. -/
theorem not_descends_of_beside {parent : ContextId} (derived : (parent, source) ∈ use.derivations)
    (beside : (parent, id) ∈ use.derivations) (differs : id ≠ source) :
    ¬ use.Descends source id := by
  intro descends
  rcases ReflTransGen.cases_tail descends with same | ⟨origin, above, last⟩
  · exact differs same
  · obtain rfl := branching.single beside last
    exact branching.not_descends_of_above derived .refl above

end Branching

/-- What is derived from a context is canceled from the start if the context is. -/
theorem Sound.canceled_of_derive (sound : use.Sound) {origin : ContextId}
    (inHand : origin ∈ use.copies) (deadline : Option Int) {id : ContextId}
    (canceled : (use.contexts.derive origin deadline).2.isCanceled id = true) :
    use.contexts.isCanceled id = true ∨
      (origin, id) ∈
        (origin, (use.contexts.derive origin deadline).1) :: use.derivations ∧
        use.contexts.isCanceled origin = true := by
  rw [Contexts.isCanceled_eq, Contexts.marks?_derive sound.linked (sound.known inHand)] at canceled
  by_cases here : (⟨use.contexts.nextContext⟩ : ContextId) = id
  · rw [if_pos here] at canceled
    rw [Contexts.derive_fst, here]
    exact .inr ⟨List.mem_cons_self, canceled⟩
  · rw [if_neg here, ← Contexts.isCanceled_eq] at canceled
    exact .inl canceled

/-- A context is canceled because it was, or because its turn came, or because what it was derived
from was canceled. -/
theorem Sound.canceled_of_perform (sound : use.Sound) {act : ContextAct}
    (allowed : use.Allows act) {id : ContextId}
    (canceled : (use.perform act).contexts.isCanceled id = true) :
    use.contexts.isCanceled id = true ∨
      (∃ source, act = .cancel source ∧ use.Descends source id) ∨
      ∃ origin, (origin, id) ∈ (use.perform act).derivations ∧
        use.contexts.isCanceled origin = true := by
  have derived : ∀ {origin deadline}, origin ∈ use.copies →
      (use.contexts.derive origin deadline).2.isCanceled id = true →
      (use.perform act).derivations =
        (origin, (use.contexts.derive origin deadline).1) :: use.derivations →
      use.contexts.isCanceled id = true ∨
        (∃ source, act = .cancel source ∧ use.Descends source id) ∨
        ∃ origin, (origin, id) ∈ (use.perform act).derivations ∧
          use.contexts.isCanceled origin = true := by
    intro origin deadline inHand canceled more
    rw [more]
    exact (sound.canceled_of_derive inHand deadline canceled).imp_right
      fun ⟨member, above⟩ => .inr ⟨origin, member, above⟩
  cases act with
  | background =>
      change use.contexts.background.2.isCanceled id = true at canceled
      rw [Contexts.background, Contexts.isCanceled, Contexts.get?_create] at canceled
      by_cases here : (⟨use.contexts.nextContext⟩ : ContextId) = id
      · simp [here] at canceled
      · exact .inl (by simpa [here, Contexts.isCanceled] using canceled)
  | withCancel origin => exact derived allowed canceled rfl
  | withDeadline origin deadline => exact derived allowed canceled rfl
  | withTimeout origin timeout => exact derived allowed canceled rfl
  | clone context => exact .inl canceled
  | dropContext context => exact .inl ((Contexts.isCanceled_releaseUnheld ..).symm.trans canceled)
  | dropHandle context => exact .inl ((Contexts.isCanceled_releaseUnheld ..).symm.trans canceled)
  | cancel source =>
      have held := sound.held (List.mem_append_right _ allowed)
      refine ((Contexts.isCanceled_cancel sound.linked held id).1 canceled).imp_right
        fun chain => .inl ⟨source, rfl, ?_⟩
      exact ReflTransGen.mono (fun _ _ step => step.1) _ _ chain
  | wait duration => exact .inl canceled

/-- Whatever is canceled was canceled itself, or something that it was derived from was. -/
theorem Runs.caused {acts : List ContextAct} (runs : Runs {} acts use) {id : ContextId}
    (canceled : use.contexts.isCanceled id = true) :
    ∃ earlier source later, acts = earlier ++ .cancel source :: later ∧
      use.Descends source id := by
  induction runs generalizing id with
  | none => simp [Contexts.isCanceled, Table.get?, Table.find?] at canceled
  | @snoc acts act next runs allowed ih =>
      have sound := Reachable.sound runs.leads
      have before : ∀ {origin}, next.contexts.isCanceled origin = true →
          ∃ earlier source later, acts ++ [act] = earlier ++ .cancel source :: later ∧
            (next.perform act).Descends source origin := by
        intro origin already
        obtain ⟨earlier, source, later, split, descends⟩ := ih already
        exact ⟨earlier, source, later ++ [act], by simp [split], descends.perform allowed⟩
      rcases sound.canceled_of_perform allowed canceled with
        already | ⟨source, rfl, descends⟩ | ⟨origin, derived, above⟩
      · exact before already
      · exact ⟨acts, source, [], rfl, descends.perform allowed⟩
      · obtain ⟨earlier, source, later, split, descends⟩ := before above
        exact ⟨earlier, source, later, split, descends.tail derived⟩

/-- Cancel contexts one after another. -/
def cancelEach (use : ContextUse) (sources : List ContextId) : ContextUse :=
  (sources.map ContextAct.cancel).foldl perform use

/-- Canceling one after another changes contexts only. -/
theorem cancelEach_eq (use : ContextUse) (sources : List ContextId) :
    use.cancelEach sources =
      { use with contexts := sources.foldl Contexts.cancel use.contexts } := by
  induction sources generalizing use with
  | nil => rfl
  | cons source rest ih => exact ih _

/-- What a cancellation of a context leaves alone. -/
structure Confined (use : ContextUse) (source : ContextId) : Prop where
  /-- A context that was not derived from it reports what it did. -/
  elsewhere : ∀ {id}, ¬ use.Descends source id →
    (use.perform (.cancel source)).contexts.error? id = use.contexts.error? id
  /-- So does every context that it was derived from, directly or through others. -/
  above : ∀ {id child}, (id, child) ∈ use.derivations → use.Descends child source →
    (use.perform (.cancel source)).contexts.error? id = use.contexts.error? id
  /-- So does every other context that was derived from the same one. -/
  beside : ∀ {origin id}, (origin, source) ∈ use.derivations → (origin, id) ∈ use.derivations →
    id ≠ source → (use.perform (.cancel source)).contexts.error? id = use.contexts.error? id
  /-- It ends after one visit to the context, and one along each link at most. -/
  ends : ∃ count ≤ 1 + use.contexts.links, Contexts.visits count ([source], use.contexts) =
    ([], (use.perform (.cancel source)).contexts)
  /-- Made once more, at once or at any later time, it changes nothing. -/
  again : ∀ {later}, (use.perform (.cancel source)).Leads later →
    later.perform (.cancel source) = later

/-- A cancellation is confined wherever use is in order. -/
theorem Sound.confined (sound : use.Sound) (branching : use.Branching) {source : ContextId}
    (handle : source ∈ use.handles) : use.Confined source := by
  have held := sound.held (List.mem_append_right _ handle)
  have elsewhere : ∀ {id}, ¬ use.Descends source id →
      (use.contexts.cancel source).error? id = use.contexts.error? id := by
    intro id apart
    refine (Contexts.Cut.cancelAll use.contexts [source]).error?_eq (Bool.eq_iff_iff.mpr ?_)
    refine (Contexts.isCanceled_cancel sound.linked held id).trans (or_iff_left fun chain => ?_)
    exact apart (ReflTransGen.mono (fun _ _ step => step.1) _ _ chain)
  refine ⟨elsewhere, ?_, ?_, use.contexts.visits_cancelAll [source], ?_⟩
  · exact fun derived below => elsewhere (branching.not_descends_of_above derived below)
  · exact fun derived other differs =>
      elsewhere (branching.not_descends_of_beside derived other differs)
  · intro later leads
    have allowed : use.Allows (.cancel source) := handle
    have extended := sound.perform allowed
    have marked : ∀ {id}, use.contexts.Unbroken use.derivations source id →
        (use.perform (.cancel source)).contexts.isCanceled id = true :=
      fun chain => (Contexts.isCanceled_cancel sound.linked held _).2 (.inr chain)
    have canceled := (leads.canceled extended.sound extended.retains marked).2.2 .refl
    change { later with contexts := later.contexts.cancel source } = later
    rw [Contexts.cancel_of_isCanceled canceled]

/-- Canceling the same contexts in another order comes to the same. -/
theorem Sound.cancel_eq (sound : use.Sound) {sources others : List ContextId}
    (handles : sources ⊆ use.handles) (same : ∀ id, id ∈ sources ↔ id ∈ others) (id : ContextId) :
    (use.cancelEach sources).contexts.nodes.get? id =
      (use.cancelEach others).contexts.nodes.get? id := by
  have held : ∀ source ∈ sources, use.contexts.isHeld source = true :=
    fun source member => sound.held (List.mem_append_right _ (handles member))
  have heldOthers : ∀ source ∈ others, use.contexts.isHeld source = true :=
    fun source member => held source ((same source).mpr member)
  rw [cancelEach_eq, cancelEach_eq]
  refine (Contexts.Cut.foldl_cancel _ sources).node_eq (Contexts.Cut.foldl_cancel _ others)
    (fun other => Bool.eq_iff_iff.mpr ?_) id
  rw [Contexts.isCanceled_foldl_cancel sound.linked held,
    Contexts.isCanceled_foldl_cancel sound.linked heldOthers]
  simp only [same]

end ContextUse

/-- After any sequence of operations, a context reports that it is canceled only if its own handle
or that of a context it was derived from was used to cancel it.  A cancellation ends and leaves
alone what is above the context, beside it or apart from it; made again it changes nothing; and
several of them leave every context in the same state, in whatever order they are made. -/
theorem cancellation_confined {acts : List ContextAct} {use : ContextUse}
    (runs : ContextUse.Runs {} acts use) :
    (∀ id, use.contexts.error? id = some .canceled →
      ∃ earlier source later, acts = earlier ++ .cancel source :: later ∧
        use.Descends source id) ∧
    (∀ source ∈ use.handles, use.Confined source) ∧
    ∀ sources others, sources ⊆ use.handles → (∀ id, id ∈ sources ↔ id ∈ others) →
      ∀ id, (use.cancelEach sources).contexts.nodes.get? id =
        (use.cancelEach others).contexts.nodes.get? id := by
  have reachable : use.Reachable := runs.leads
  have sound := reachable.sound
  refine ⟨fun id reported => ?_, fun source handle => ?_, fun sources others handles same => ?_⟩
  · exact runs.caused (Contexts.error?_eq_canceled_iff.mp reported)
  · exact sound.confined reachable.branching handle
  · exact sound.cancel_eq handles same

/-- Two contexts derived from one, and a third derived from the second of them, which is then
canceled. -/
def twoBranches : List ContextAct :=
  [.background, .withCancel ⟨0⟩, .withCancel ⟨0⟩, .withCancel ⟨2⟩, .cancel ⟨2⟩]

/-- The third is canceled because the second was.  Canceling the first as well leaves alone what
both were derived from, and it would not matter if the third were canceled before or after it. -/
theorem branch_spared :
    let use := twoBranches.foldl ContextUse.perform {}
    (∃ earlier source later, twoBranches = earlier ++ .cancel source :: later ∧
      use.Descends source ⟨3⟩) ∧
    (use.perform (.cancel ⟨1⟩)).contexts.error? ⟨0⟩ = none ∧
    (use.perform (.cancel ⟨1⟩)).contexts.error? ⟨2⟩ = some .canceled ∧
    (use.cancelEach [⟨1⟩, ⟨3⟩]).contexts.nodes.get? ⟨3⟩ =
      (use.cancelEach [⟨3⟩, ⟨1⟩]).contexts.nodes.get? ⟨3⟩ := by
  have runs : ContextUse.Runs {} twoBranches (twoBranches.foldl ContextUse.perform {}) := by
    refine .snoc (.snoc (.snoc (.snoc (.snoc .none ?_) ?_) ?_) ?_) ?_ <;>
      simp only [ContextUse.Allows] <;> decide
  obtain ⟨caused, confined, order⟩ := cancellation_confined runs
  have first := confined ⟨1⟩ (by decide)
  have below : ((⟨0⟩, ⟨1⟩) : ContextId × ContextId) ∈
      (twoBranches.foldl ContextUse.perform {}).derivations := by decide
  have visited : (twoBranches.foldl ContextUse.perform {}).contexts = (Contexts.visits 2
      ([⟨2⟩], ((twoBranches.take 4).foldl ContextUse.perform {}).contexts)).2 :=
    Contexts.cancelAll_eq_visits (by decide)
  refine ⟨caused ⟨3⟩ (by rw [visited]; decide), ?_, ?_, ?_⟩
  · exact (first.above below .refl).trans (by rw [visited]; decide)
  · exact (first.beside below (by decide) (by decide)).trans (by rw [visited]; decide)
  · exact order [⟨1⟩, ⟨3⟩] [⟨3⟩, ⟨1⟩] (by decide) (by simp [or_comm]) ⟨3⟩

end Provision
