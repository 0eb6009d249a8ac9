import Provision.Proofs.Execution.Moments
import Provision.Proofs.Execution.RequestConduct
import Mathlib.Algebra.Order.Group.Multiset
import Mathlib.Tactic.Abel

/-!
# Closers that requests owe

A closer that is handed to a closed scope has to be run by the request that handed it over, and
the closers that a scope gives up when it is shut by the request that shut it.  Until then the
request owes them.  The books follow the history: an entry adds to what is owed or pays the first
of what its request owes.

Main statement: `Lawful.balanced`, that every closer handed to a scope is promised, owed or run.
-/

namespace Provision

open Moment

variable {U : Client}

/-- A closer of a scope that a request has taken over to run. -/
structure Debt (U : Client) where
  request : RequestId
  scope : ScopeId
  closer : PendingCloser U

/-- What is owed after an entry.  A scope that is shut gives up the newest closer first. -/
def Entry.book (entry : Entry U) (debts : List (Debt U)) : List (Debt U) :=
  match entry.event with
  | .performed (.attach scope closer) answer =>
      match answer with
      | true => debts
      | false => ⟨entry.request, scope, closer⟩ :: debts
  | .performed (.shut scope) (some closers) =>
      closers.reverse.map (⟨entry.request, scope, ·⟩) ++ debts
  | .called (.close _ _ _ _) => debts.eraseP fun debt => decide (debt.request = entry.request)
  | _ => debts

/-- The closer that a call runs, if it runs one. -/
def Call.closer? : Call U → Option (ScopeId × PendingCloser U)
  | .close site closer subject _ =>
      some (site.scope, { recipe := site.recipe, close := closer, subject })
  | _ => none

/-- The call of a closer runs that closer, for the scope that had it. -/
@[simp] theorem PendingCloser.closer?_call (closer : PendingCloser U) (scope : ScopeId)
    (context : ContextId) : (closer.call scope context).closer? = some (scope, closer) := rfl

namespace Event

/-- The closers that an event hands to a scope. -/
def hands (scope : ScopeId) : Event U → List (PendingCloser U)
  | .performed (.attach other closer) _ => if other = scope then [closer] else []
  | _ => []

/-- The closers of a scope that an event runs. -/
def runs (scope : ScopeId) : Event U → List (PendingCloser U)
  | .called (.close site closer subject _) =>
      if site.scope = scope then [{ recipe := site.recipe, close := closer, subject }] else []
  | _ => []

/-- The closers of a scope that an event takes over to run. -/
def takesOver (scope : ScopeId) : Event U → List (PendingCloser U)
  | .performed (.attach other closer) false => if other = scope then [closer] else []
  | .performed (.shut other) (some closers) => if other = scope then closers else []
  | _ => []

/-- The closers that a scope promises to run when it is closed. -/
def promises (scope : ScopeId) : Event U → List (PendingCloser U)
  | .performed (.attach other closer) true => if other = scope then [closer] else []
  | _ => []

/-- The events that change what is owed or handed over. -/
def Bills : Event U → Prop
  | .performed (.attach _ _) _ => True
  | .performed (.shut _) _ => True
  | .called (.close _ _ _ _) => True
  | _ => False

end Event

/-- The closers of a scope among debts. -/
def owedAmong (scope : ScopeId) (debts : List (Debt U)) : List (PendingCloser U) :=
  (debts.filter fun debt => decide (debt.scope = scope)).map Debt.closer

namespace Moment

/-- Everything that is owed. -/
def debts (moment : Moment U) : List (Debt U) :=
  moment.history.foldr Entry.book []

/-- What a request owes, the next to pay first. -/
def owedBy (moment : Moment U) (request : RequestId) : List (Debt U) :=
  moment.debts.filter fun debt => decide (debt.request = request)

/-- The closers of a scope that are owed. -/
def owedTo (moment : Moment U) (scope : ScopeId) : List (PendingCloser U) :=
  owedAmong scope moment.debts

/-- The closers that were handed to a scope, the last first. -/
def handed (moment : Moment U) (scope : ScopeId) : List (PendingCloser U) :=
  moment.history.flatMap fun entry => entry.event.hands scope

/-- The closers of a scope that were run, the last first. -/
def ran (moment : Moment U) (scope : ScopeId) : List (PendingCloser U) :=
  moment.history.flatMap fun entry => entry.event.runs scope

/-- The closers that a scope promised to run, the last first. -/
def promised (moment : Moment U) (scope : ScopeId) : List (PendingCloser U) :=
  moment.history.flatMap fun entry => entry.event.promises scope

end Moment

/-- The closers of a scope that a request took over, the last first. -/
def takenOver (history : List (Entry U)) (request : RequestId) (scope : ScopeId) :
    List (PendingCloser U) :=
  history.flatMap fun entry => if entry.request = request then entry.event.takesOver scope else []

/-- The closers of a scope that a request ran, the last first. -/
def ranBy (history : List (Entry U)) (request : RequestId) (scope : ScopeId) :
    List (PendingCloser U) :=
  history.flatMap fun entry => if entry.request = request then entry.event.runs scope else []

section Records

variable {moment next : Moment U} {entry : Entry U} (recorded : moment.Records entry next)

include recorded

/-- The books of debts go on by one entry. -/
theorem Moment.Records.debts : next.debts = entry.book moment.debts := by
  unfold Moment.debts
  rw [recorded.history, List.foldr_cons]

/-- What was handed to a scope goes on by one entry. -/
theorem Moment.Records.handed (scope : ScopeId) :
    next.handed scope = entry.event.hands scope ++ moment.handed scope := by
  unfold Moment.handed
  rw [recorded.history, List.flatMap_cons]

/-- What was promised by a scope goes on by one entry. -/
theorem Moment.Records.promised (scope : ScopeId) :
    next.promised scope = entry.event.promises scope ++ moment.promised scope := by
  unfold Moment.promised
  rw [recorded.history, List.flatMap_cons]

/-- What was run for a scope goes on by one entry. -/
theorem Moment.Records.ran (scope : ScopeId) :
    next.ran scope = entry.event.runs scope ++ moment.ran scope := by
  unfold Moment.ran
  rw [recorded.history, List.flatMap_cons]

end Records

/-! ## Events that change what is owed -/

namespace Event

/-- A closed scope refuses a closer, a scope gives up its closers when it is shut, or a closer is
run. -/
inductive Billing : Event U → Prop where
  | refused (scope : ScopeId) (closer : PendingCloser U) :
      Billing (.performed (.attach scope closer) false)
  | shut (scope : ScopeId) (closers : List (PendingCloser U)) :
      Billing (.performed (.shut scope) (some closers))
  | ran (site : Site U) (closer : U.Closer) (subject : Content U) (context : ContextId) :
      Billing (.called (.close site closer subject context))

/-- An event by which nothing is owed and nothing paid. -/
structure Unbilled (event : Event U) : Prop where
  book : ∀ request debts, Entry.book ⟨request, event⟩ debts = debts
  runs : ∀ scope, event.runs scope = []
  takesOver : ∀ scope, event.takesOver scope = []

/-- Every event bills somebody or nobody. -/
theorem billing_or_unbilled (event : Event U) : event.Billing ∨ event.Unbilled := by
  cases event with
  | performed operation answer =>
      cases operation with
      | attach scope closer =>
          cases answer with
          | true => exact .inr ⟨fun _ _ => rfl, fun _ => rfl, fun _ => rfl⟩
          | false => exact .inl (.refused scope closer)
      | shut scope =>
          cases answer with
          | none => exact .inr ⟨fun _ _ => rfl, fun _ => rfl, fun _ => rfl⟩
          | some closers => exact .inl (.shut scope closers)
      | _ => exact .inr ⟨fun _ _ => rfl, fun _ => rfl, fun _ => rfl⟩
  | called call =>
      cases call with
      | close site closer subject context => exact .inl (.ran site closer subject context)
      | _ => exact .inr ⟨fun _ _ => rfl, fun _ => rfl, fun _ => rfl⟩
  | _ => exact .inr ⟨fun _ _ => rfl, fun _ => rfl, fun _ => rfl⟩

/-- What bills somebody changes the books. -/
theorem Billing.bills {event : Event U} (billing : event.Billing) : event.Bills := by
  cases billing <;> exact trivial

/-- What is handed to a scope is taken or refused. -/
theorem Unbilled.hands {event : Event U} {scope : ScopeId} (unbilled : event.Unbilled)
    (notTaken : ∀ closer, event ≠ .performed (.attach scope closer) true) :
    event.hands scope = [] := by
  cases event with
  | performed operation answer =>
      cases operation with
      | attach other closer =>
          refine if_neg fun same => ?_
          subst same
          cases answer with
          | true => exact notTaken closer rfl
          | false => simpa [Event.takesOver] using unbilled.takesOver other
      | _ => rfl
  | _ => rfl

/-- A scope that neither refuses a closer nor is shut leaves nothing to take over. -/
theorem takesOver_eq_nil {event : Event U} {scope : ScopeId}
    (notRefused : ∀ closer, event ≠ .performed (.attach scope closer) false)
    (notShut : ∀ closers, event ≠ .performed (.shut scope) (some closers)) :
    event.takesOver scope = [] := by
  rcases event.billing_or_unbilled with billing | unbilled
  · cases billing with
    | refused other closer =>
        have differs : other ≠ scope := fun same => notRefused closer (same ▸ rfl)
        exact if_neg differs
    | shut other closers =>
        have differs : other ≠ scope := fun same => notShut closers (same ▸ rfl)
        exact if_neg differs
    | ran site closer subject context => rfl
  · exact unbilled.takesOver scope

/-- A scope that takes no closer promises nothing. -/
theorem promises_eq_nil {event : Event U} {scope : ScopeId}
    (notTaken : ∀ closer, event ≠ .performed (.attach scope closer) true) :
    event.promises scope = [] := by
  cases event with
  | performed operation answer =>
      cases operation with
      | attach other closer =>
          cases answer with
          | true =>
              have differs : other ≠ scope := fun same => notTaken closer (same ▸ rfl)
              exact if_neg differs
          | false => rfl
      | _ => rfl
  | _ => rfl

end Event

/-- Events that bill nobody leave the debts as they are. -/
theorem Entry.book_of_not_bills {entry : Entry U} (quiet : ¬ entry.event.Bills)
    (debts : List (Debt U)) : entry.book debts = debts := by
  rcases entry.event.billing_or_unbilled with billing | unbilled
  · exact absurd billing.bills quiet
  · exact unbilled.book entry.request debts

/-! ## One request among others -/

/-- The first of several entries of a list that satisfy a test, taken out of the list. -/
theorem eraseP_of_filter {α : Type} {test : α → Bool} {items rest : List α} {first : α}
    (found : items.filter test = first :: rest) :
    items.Perm (first :: items.eraseP test) ∧ (items.eraseP test).filter test = rest ∧
      ∀ other : α → Bool, (∀ item, test item = true → other item = false) →
        (items.eraseP test).filter other = items.filter other := by
  have isFound : first ∈ items.filter test := found ▸ List.mem_cons_self
  obtain ⟨member, passes⟩ := List.mem_filter.mp isFound
  obtain ⟨item, before, after, earlier, passes, same, erased⟩ :=
    List.exists_of_eraseP member passes
  have none : before.filter test = [] := by
    rw [List.filter_eq_nil_iff]
    exact fun other inside => by simpa using earlier other inside
  rw [same, List.filter_append, none, List.nil_append, List.filter_cons_of_pos passes] at found
  obtain ⟨rfl, rfl⟩ := List.cons.inj found
  rw [erased, same]
  refine ⟨List.perm_middle, ?_, ?_⟩
  · rw [List.filter_append, none, List.nil_append]
  · intro other excludes
    have fails : ¬ other item = true := by simp [excludes item passes]
    rw [List.filter_append, List.filter_append, List.filter_cons_of_neg fails]

/-- All debts of a request are its own. -/
theorem filter_debts_self (request : RequestId) (scope : ScopeId)
    (closers : List (PendingCloser U)) :
    (closers.map (Debt.mk request scope)).filter (fun debt => decide (debt.request = request)) =
      closers.map (Debt.mk request scope) := by
  simp [List.filter_map, Function.comp_def]

/-- None of the debts of another request are its own. -/
theorem filter_debts_of_ne {request other : RequestId} (differs : other ≠ request)
    (scope : ScopeId) (closers : List (PendingCloser U)) :
    (closers.map (Debt.mk other scope)).filter (fun debt => decide (debt.request = request)) =
      [] := by
  simp [List.filter_map, Function.comp_def, differs]

/-- The debts of a request stay as they are by entries of others. -/
theorem Entry.book_filter_of_ne {entry : Entry U} {request : RequestId}
    (differs : entry.request ≠ request) (debts : List (Debt U)) :
    (entry.book debts).filter (fun debt => decide (debt.request = request)) =
      debts.filter fun debt => decide (debt.request = request) := by
  obtain ⟨other, event⟩ := entry
  have differs : other ≠ request := differs
  rcases event.billing_or_unbilled with billing | unbilled
  swap
  · rw [unbilled.book]
  cases billing with
  | refused scope closer => exact List.filter_cons_of_neg (by simpa using differs)
  | shut scope closers =>
      change (closers.reverse.map (Debt.mk other scope) ++ debts).filter _ = _
      rw [List.filter_append, filter_debts_of_ne differs, List.nil_append]
  | ran site closer subject context =>
      change (debts.eraseP _).filter _ = _
      cases mine : debts.filter fun debt => decide (debt.request = other) with
      | nil =>
          have none : ∀ debt ∈ debts, ¬ decide (debt.request = other) = true :=
            List.filter_eq_nil_iff.mp mine
          rw [List.eraseP_of_forall_not none]
      | cons first rest =>
          refine (eraseP_of_filter mine).2.2 _ fun debt isMine => ?_
          have isMine : debt.request = other := of_decide_eq_true isMine
          simpa [isMine] using differs

namespace Moment

variable {rely : Conduct U} {request : RequestId} {moment next : Moment U}

/-- A closer of a request was refused by a closed scope. -/
def Refused (moment : Moment U) (request : RequestId) : Prop :=
  ∃ scope closer, moment.Did request (.performed (.attach scope closer) false)

/-- What others do, and what bills nothing, changes neither what a request owes nor whether it
was refused. -/
theorem Passage.owedBy (passage : Passage rely request (fun event => ¬ event.Bills) moment next) :
    next.owedBy request = moment.owedBy request ∧
      (next.Refused request → moment.Refused request) := by
  induction passage with
  | refl => exact ⟨rfl, fun refused => refused⟩
  | contexts _ _ ih => exact ih
  | @foreign _ _ entry _ recorded differs _ ih =>
      refine ⟨?_, ?_⟩
      · rw [← ih.1]
        unfold Moment.owedBy
        rw [recorded.debts, Entry.book_filter_of_ne differs]
      · rintro ⟨scope, closer, did⟩
        rcases recorded.did_iff.mp did with ⟨same, _⟩ | before
        · exact absurd same.symm differs
        · exact ih.2 ⟨scope, closer, before⟩
  | own _ recorded quiet ih =>
      refine ⟨?_, ?_⟩
      · rw [← ih.1]
        unfold Moment.owedBy
        rw [recorded.debts, Entry.book_of_not_bills quiet]
      · rintro ⟨scope, closer, did⟩
        rcases recorded.did_iff.mp did with ⟨_, now⟩ | before
        · exact absurd (now ▸ trivial) quiet
        · exact ih.2 ⟨scope, closer, before⟩

end Moment

/-! ## The conduct -/

/-- A request that was asked to close a scope shut it, or came too late and called nothing. -/
def Moment.Shuts (moment : Moment U) (request : RequestId) (scope : ScopeId)
    {α : Type} (outcome : Except Error α) : Prop :=
  (∃ closers, moment.Did request (.performed (.shut scope) (some closers))) ∨
    (outcome = .error .closed ∧
      (∃ other closers, moment.Did other (.performed (.shut scope) (some closers))) ∧
        ∀ call, ¬ moment.Did request (.called call))

/-- A request runs the closers that it owes, one after another, and does nothing else but report
until they are paid.  If it was refused, it fails because a scope is closed, and a request to close
a scope shuts it or is too late. -/
def Conduct.paying : Conduct U := fun moment entry =>
  match entry.event with
  | .performed _ _ => moment.owedBy entry.request = []
  | .called call =>
      (∀ scope closer, call.closer? = some (scope, closer) →
        ∃ rest, moment.owedBy entry.request = ⟨entry.request, scope, closer⟩ :: rest) ∧
          (call.closer? = none →
            moment.owedBy entry.request = [] ∨ ∃ notice, call = .report notice)
  | .finished reply => moment.owedBy entry.request = [] ∧
      (moment.Refused entry.request →
        ∃ error, reply = .error error ∧ error.root = .closed) ∧
      ∃ demand, moment.Did entry.request (.started demand) ∧
        ∀ scope context, demand = .close scope context →
          moment.Shuts entry.request scope.id reply
  | _ => True

/-- What is owed among two lists of debts is owed among one or the other. -/
theorem owedAmong_append (scope : ScopeId) (first second : List (Debt U)) :
    owedAmong scope (first ++ second) = owedAmong scope first ++ owedAmong scope second := by
  simp [owedAmong]

/-- Debts for one scope are owed for that scope only. -/
theorem owedAmong_map (scope other : ScopeId) (request : RequestId)
    (closers : List (PendingCloser U)) :
    owedAmong scope (closers.map (Debt.mk request other)) =
      if other = scope then closers else [] := by
  unfold owedAmong
  rw [List.filter_map, List.map_map]
  split
  · next same => simp [Function.comp_def, same]
  · next differs => simp [Function.comp_def, differs]

/-- The order of debts does not matter to what is owed. -/
theorem owedAmong_perm (scope : ScopeId) {first second : List (Debt U)}
    (perm : first.Perm second) : (owedAmong scope first).Perm (owedAmong scope second) :=
  (perm.filter _).map _

/-- One debt more is owed for its scope. -/
theorem owedAmong_cons (scope : ScopeId) (debt : Debt U) (debts : List (Debt U)) :
    owedAmong scope (debt :: debts) =
      (if debt.scope = scope then [debt.closer] else []) ++ owedAmong scope debts := by
  unfold owedAmong
  by_cases same : debt.scope = scope <;> simp [same]

/-- What an entry hands to a scope that neither takes nor gives up anything is owed then, and what
it runs was owed. -/
theorem Entry.book_balanced {moment : Moment U} {entry : Entry U} {scope : ScopeId}
    (pays : Conduct.paying moment entry)
    (notTaken : ∀ closer, entry.event ≠ .performed (.attach scope closer) true)
    (notShut : ∀ closers, entry.event ≠ .performed (.shut scope) (some closers)) :
    (entry.event.hands scope ++ owedAmong scope moment.debts).Perm
      (entry.event.runs scope ++ owedAmong scope (entry.book moment.debts)) := by
  obtain ⟨request, event⟩ := entry
  rcases event.billing_or_unbilled with billing | unbilled
  swap
  · rw [unbilled.hands notTaken, unbilled.runs, unbilled.book]
  cases billing with
  | refused other closer =>
      change (Event.hands scope _ ++ _).Perm
        ([] ++ owedAmong scope (⟨request, other, closer⟩ :: moment.debts))
      rw [owedAmong_cons, List.nil_append]
      exact List.Perm.refl _
  | shut other closers =>
      have differs : other ≠ scope := fun same => notShut closers (same ▸ rfl)
      change (owedAmong scope moment.debts).Perm
        (owedAmong scope (closers.reverse.map (Debt.mk request other) ++ moment.debts))
      rw [owedAmong_append, owedAmong_map, if_neg differs, List.nil_append]
  | ran site closer subject context =>
      obtain ⟨rest, owed⟩ := pays.1 _ _ rfl
      have paid := owedAmong_perm scope (eraseP_of_filter owed).1
      rw [owedAmong_cons] at paid
      exact paid

namespace Moment

variable {conduct : Conduct U} {moment : Moment U}

/-- Every closer that was handed to a scope is still promised, owed or run. -/
theorem Lawful.balanced (lawful : moment.Lawful conduct)
    (pays : ∀ moment entry, conduct moment entry → Conduct.paying moment entry)
    (scope : ScopeId) :
    (moment.handed scope).Perm
      ((moment.state.scope scope).closers ++ moment.owedTo scope ++ moment.ran scope) := by
  induction lawful with
  | initial => exact .refl _
  | contexts contexts _ ih => exact ih
  | @records moment next entry _ recorded allowed ih =>
      unfold Moment.owedTo at ih ⊢
      rw [recorded.handed, recorded.ran, recorded.debts]
      obtain ⟨request, event⟩ := entry
      rcases recorded.state.closers scope with
        ⟨closer, isAttach, _, _, taken⟩ | ⟨isShut, _, _, given⟩ | ⟨_, same, notTaken, notShut⟩
      · rw [taken]
        cases isAttach
        simp only [Event.hands, Event.runs, Entry.book, if_true]
        rw [← Multiset.coe_eq_coe] at ih ⊢
        simp only [← Multiset.coe_add] at ih ⊢
        rw [ih]
        abel
      · rw [given]
        cases isShut
        simp only [Event.hands, Event.runs, Entry.book]
        rw [owedAmong_append, owedAmong_map, if_pos rfl]
        rw [← Multiset.coe_eq_coe] at ih ⊢
        simp only [← Multiset.coe_add, Multiset.coe_reverse] at ih ⊢
        rw [ih]
        simp
      · have booked := Entry.book_balanced (pays _ _ allowed) notTaken notShut
        rw [same]
        rw [← Multiset.coe_eq_coe] at ih booked ⊢
        simp only [← Multiset.coe_add] at ih booked ⊢
        calc
          _ = ((moment.state.scope scope).closers : Multiset (PendingCloser U)) +
              ((Event.hands scope event : Multiset (PendingCloser U)) +
                owedAmong scope moment.debts) + moment.ran scope := by rw [ih]; abel
          _ = _ := by rw [booked]; abel

/-- What an entry of a request takes over it owes then, and what it runs it owed.  It runs first
what it took over last. -/
theorem book_repaid {id : RequestId} {event : Event U}
    (pays : Conduct.paying moment ⟨id, event⟩) (scope : ScopeId) :
    event.takesOver scope ++ (owedAmong scope (moment.owedBy id)).reverse =
      (owedAmong scope ((Entry.book ⟨id, event⟩ moment.debts).filter
        fun debt => decide (debt.request = id))).reverse ++ event.runs scope := by
  rcases event.billing_or_unbilled with billing | unbilled
  swap
  · rw [unbilled.takesOver, unbilled.runs, unbilled.book, List.nil_append, List.append_nil]
    rfl
  cases billing with
  | refused other closer =>
      have paid : moment.debts.filter (fun debt => decide (debt.request = id)) = [] := pays
      change (if other = scope then [closer] else []) ++ (owedAmong scope _).reverse =
        (owedAmong scope ((⟨id, other, closer⟩ :: moment.debts).filter _)).reverse ++ []
      rw [List.filter_cons_of_pos (by simp), Moment.owedBy, paid, owedAmong_cons]
      by_cases here : other = scope <;> simp [here, owedAmong]
  | shut other closers =>
      have paid : moment.debts.filter (fun debt => decide (debt.request = id)) = [] := pays
      change (if other = scope then closers else []) ++ (owedAmong scope _).reverse =
        (owedAmong scope ((closers.reverse.map (Debt.mk id other) ++
          moment.debts).filter _)).reverse ++ []
      rw [List.filter_append, filter_debts_self, Moment.owedBy, paid, owedAmong_append,
        owedAmong_map]
      by_cases here : other = scope <;> simp [here, owedAmong]
  | ran site closer subject context =>
      obtain ⟨rest, owed⟩ := pays.1 _ _ rfl
      have left := (eraseP_of_filter owed).2.1
      change [] ++ (owedAmong scope (moment.owedBy id)).reverse =
        (owedAmong scope ((moment.debts.eraseP _).filter _)).reverse ++
          if site.scope = scope then [⟨site.recipe, closer, subject⟩] else []
      rw [left, show moment.owedBy id = _ from owed, owedAmong_cons, List.nil_append]
      by_cases here : site.scope = scope <;> simp [here]

/-- Of the closers that a request took over it has run the last ones and owes the others. -/
theorem Lawful.repaid_in_order (lawful : moment.Lawful conduct)
    (pays : ∀ moment entry, conduct moment entry → Conduct.paying moment entry)
    (id : RequestId) (scope : ScopeId) :
    takenOver moment.history id scope =
      (owedAmong scope (moment.owedBy id)).reverse ++ ranBy moment.history id scope := by
  induction lawful with
  | initial => rfl
  | contexts contexts _ ih => exact ih
  | @records moment next entry _ recorded allowed ih =>
      obtain ⟨request, event⟩ := entry
      unfold takenOver ranBy at ih ⊢
      rw [recorded.history, List.flatMap_cons, List.flatMap_cons, ih]
      by_cases mine : request = id
      · subst mine
        have booked := book_repaid (pays _ _ allowed) scope
        rw [← recorded.debts] at booked
        simp only [if_true]
        rw [← List.append_assoc, ← List.append_assoc, booked]
        rfl
      · simp only [mine, if_false, List.nil_append]
        unfold Moment.owedBy
        rw [recorded.debts, Entry.book_filter_of_ne mine]

/-- Every closer that a request took over it owes or has run. -/
theorem Lawful.repaid (lawful : moment.Lawful conduct)
    (pays : ∀ moment entry, conduct moment entry → Conduct.paying moment entry)
    (id : RequestId) (scope : ScopeId) :
    (takenOver moment.history id scope).Perm
      (owedAmong scope (moment.owedBy id) ++ ranBy moment.history id scope) := by
  rw [lawful.repaid_in_order pays id scope]
  exact (List.reverse_perm _).append_right _

/-- A request has taken over a closer of a scope: it shut the scope, or was refused by it. -/
def Took (moment : Moment U) (request : RequestId) (scope : ScopeId) (closer : PendingCloser U) :
    Prop :=
  (∃ closers, moment.Did request (.performed (.shut scope) (some closers)) ∧ closer ∈ closers) ∨
    moment.Did request (.performed (.attach scope closer) false)

theorem Took.mono {next : Moment U} {request : RequestId} {scope : ScopeId}
    {closer : PendingCloser U} (took : moment.Took request scope closer)
    (grows : moment.history <:+ next.history) : next.Took request scope closer := by
  rcases took with ⟨closers, did, member⟩ | did
  · exact .inl ⟨closers, grows.mem did, member⟩
  · exact .inr (grows.mem did)

end Moment

/-- A debt after an entry was one before, or was made by the entry. -/
theorem Entry.mem_book {entry : Entry U} {debts : List (Debt U)} {debt : Debt U}
    (member : debt ∈ entry.book debts) :
    debt ∈ debts ∨ (debt.request = entry.request ∧
      (entry.event = .performed (.attach debt.scope debt.closer) false ∨
        ∃ closers, entry.event = .performed (.shut debt.scope) (some closers) ∧
          debt.closer ∈ closers)) := by
  obtain ⟨request, event⟩ := entry
  rcases event.billing_or_unbilled with billing | unbilled
  swap
  · rw [unbilled.book] at member
    exact .inl member
  cases billing with
  | refused scope closer =>
      rcases List.mem_cons.mp member with rfl | before
      · exact .inr ⟨rfl, .inl rfl⟩
      · exact .inl before
  | shut scope closers =>
      rcases List.mem_append.mp member with given | before
      · obtain ⟨closer, promised, rfl⟩ := List.mem_map.mp given
        exact .inr ⟨rfl, .inr ⟨closers, rfl, List.mem_reverse.mp promised⟩⟩
      · exact .inl before
  | ran site closer subject context => exact .inl (List.mem_of_mem_eraseP member)

namespace Moment

variable {conduct : Conduct U} {moment : Moment U}

/-- Whoever owes something is known. -/
theorem knows_of_debt {debt : Debt U} (owed : debt ∈ moment.debts) :
    moment.Knows debt.request := by
  unfold Moment.debts at owed
  unfold Moment.Knows
  generalize moment.history = history at owed ⊢
  induction history with
  | nil => cases owed
  | cons entry earlier ih =>
      rcases Entry.mem_book owed with before | ⟨same, _⟩
      · obtain ⟨other, member, same⟩ := ih before
        exact ⟨other, List.mem_cons_of_mem _ member, same⟩
      · exact ⟨entry, List.mem_cons_self, same.symm⟩

/-- What is owed was taken over by a request that goes on. -/
theorem Lawful.debt (lawful : moment.Lawful conduct)
    (orderly : ∀ moment entry, conduct moment entry → Conduct.orderly moment entry)
    (pays : ∀ moment entry, conduct moment entry → Conduct.paying moment entry)
    {debt : Debt U} (owed : debt ∈ moment.debts) :
    moment.Took debt.request debt.scope debt.closer ∧
      ∀ reply, ¬ moment.Did debt.request (.finished reply) := by
  induction lawful with
  | initial => cases owed
  | contexts contexts _ ih => exact ih owed
  | @records moment next entry _ recorded allowed ih =>
      obtain ⟨request, event⟩ := entry
      rw [recorded.debts] at owed
      rcases Entry.mem_book owed with before | ⟨same, took⟩
      · obtain ⟨took, unfinished⟩ := ih before
        refine ⟨took.mono recorded.suffix, fun reply ended => ?_⟩
        rcases recorded.did_iff.mp ended with ⟨same, now⟩ | earlier
        · subst now
          have paid := (pays _ _ allowed).1
          have mine : debt ∈ moment.owedBy request :=
            List.mem_filter.mpr ⟨before, by simpa using same⟩
          rw [show moment.owedBy request = [] from paid] at mine
          cases mine
        · exact unfinished reply earlier
      · have same : debt.request = request := same
        have unfinished : ∀ reply, event = .finished reply ∨
            moment.Did request (.finished reply) → False := by
          rintro reply (now | earlier)
          · subst now
            rcases took with impossible | ⟨_, impossible, _⟩ <;> cases impossible
          · have began := orderly _ _ allowed
            rcases took with isAttach | ⟨_, isShut, _⟩
            · rw [show event = _ from isAttach] at began
              exact began.2 reply earlier
            · rw [show event = _ from isShut] at began
              exact began.2 reply earlier
        refine ⟨?_, fun reply ended => ?_⟩
        · rw [same]
          rcases took with isAttach | ⟨closers, isShut, member⟩
          · exact .inr (recorded.did_iff.mpr (.inl ⟨rfl, isAttach.symm⟩))
          · exact .inl ⟨closers, recorded.did_iff.mpr (.inl ⟨rfl, isShut.symm⟩), member⟩
        · rw [same] at ended
          refine unfinished reply ?_
          rcases recorded.did_iff.mp ended with ⟨_, now⟩ | earlier
          · exact .inl now.symm
          · exact .inr earlier

/-- A scope is closed once it was shut, and has no closers then. -/
theorem Lawful.closed (lawful : moment.Lawful conduct) (scope : ScopeId) :
    ((moment.state.scope scope).closed = true →
        ∃ id closers, moment.Did id (.performed (.shut scope) (some closers))) ∧
      ∀ id closers, moment.Did id (.performed (.shut scope) (some closers)) →
        (moment.state.scope scope).closed = true ∧ (moment.state.scope scope).closers = [] ∧
          ∀ other more, moment.Did other (.performed (.shut scope) (some more)) →
            other = id ∧ more = closers := by
  induction lawful with
  | initial => exact ⟨nofun, nofun⟩
  | contexts contexts _ ih => exact ih
  | @records moment next entry _ recorded _ ih =>
      obtain ⟨wasShut, once⟩ := ih
      obtain ⟨request, event⟩ := entry
      rcases recorded.state.closers scope with
        ⟨closer, isAttach, opened, still, _⟩ | ⟨isShut, opened, shut, given⟩ |
          ⟨same, kept, _, notShut⟩
      · have earlier : ∀ id closers, next.Did id (.performed (.shut scope) (some closers)) →
            moment.Did id (.performed (.shut scope) (some closers)) := by
          intro id closers did
          rcases recorded.did_iff.mp did with ⟨_, now⟩ | before
          · rw [show event = _ from isAttach] at now
            cases now
          · exact before
        refine ⟨fun closed => absurd closed (by rw [still]; exact Bool.false_ne_true), ?_⟩
        intro id closers did
        have closed := (once id closers (earlier id closers did)).1
        rw [opened] at closed
        cases closed
      · have isFirst : ∀ id closers, ¬ moment.Did id (.performed (.shut scope) (some closers)) := by
          intro id closers did
          have closed := (once id closers did).1
          rw [opened] at closed
          cases closed
        refine ⟨fun _ => ⟨request, _, recorded.did_iff.mpr (.inl ⟨rfl, isShut.symm⟩)⟩, ?_⟩
        intro id closers did
        refine ⟨shut, given, fun other more did' => ?_⟩
        rcases recorded.did_iff.mp did with ⟨rfl, now⟩ | before
        · rcases recorded.did_iff.mp did' with ⟨rfl, now'⟩ | before'
          · rw [← now] at now'
            cases now'
            exact ⟨rfl, rfl⟩
          · exact absurd before' (isFirst other more)
        · exact absurd before (isFirst id closers)
      · have earlier : ∀ id closers, next.Did id (.performed (.shut scope) (some closers)) →
            moment.Did id (.performed (.shut scope) (some closers)) := by
          intro id closers did
          rcases recorded.did_iff.mp did with ⟨_, now⟩ | before
          · exact absurd now.symm (notShut closers)
          · exact before
        rw [same, kept]
        refine ⟨fun closed => ?_, fun id closers did => ?_⟩
        · obtain ⟨id, closers, did⟩ := wasShut closed
          exact ⟨id, closers, recorded.suffix.mem did⟩
        · obtain ⟨closed, none, unique⟩ := once id closers (earlier id closers did)
          exact ⟨closed, none, fun other more did' => unique other more (earlier other more did')⟩

/-- Only a scope that was shut refuses closers. -/
theorem Lawful.refused (lawful : moment.Lawful conduct) {id : RequestId} {scope : ScopeId}
    {closer : PendingCloser U} (refused : moment.Did id (.performed (.attach scope closer) false)) :
    ∃ other closers, moment.Did other (.performed (.shut scope) (some closers)) := by
  induction lawful with
  | initial => cases refused
  | contexts contexts _ ih => exact ih refused
  | @records moment next entry lawful recorded _ ih =>
      obtain ⟨request, event⟩ := entry
      have shut : ∃ other closers, moment.Did other (.performed (.shut scope) (some closers)) := by
        rcases recorded.did_iff.mp refused with ⟨_, now⟩ | before
        · subst now
          exact (lawful.closed scope).1 (Operation.perform_attach_false recorded.state).1
        · exact ih before
      obtain ⟨other, closers, shut⟩ := shut
      exact ⟨other, closers, recorded.suffix.mem shut⟩

/-- What a scope promised it still has until it is shut, in the order in which it was handed over,
and it gives up that then. -/
theorem Lawful.promised (lawful : moment.Lawful conduct) (scope : ScopeId) :
    ((moment.state.scope scope).closed = false →
        moment.promised scope = (moment.state.scope scope).closers.reverse) ∧
      ∀ id closers, moment.Did id (.performed (.shut scope) (some closers)) →
        moment.promised scope = closers.reverse := by
  induction lawful with
  | initial => exact ⟨fun _ => rfl, nofun⟩
  | contexts contexts _ ih => exact ih
  | @records moment next entry lawful recorded _ ih =>
      obtain ⟨opened, given⟩ := ih
      obtain ⟨request, event⟩ := entry
      rw [recorded.promised]
      rcases recorded.state.closers scope with
        ⟨closer, isAttach, wasOpen, _, taken⟩ | ⟨isShut, wasOpen, shut, _⟩ |
          ⟨same, kept, notTaken, notShut⟩
      · cases isAttach
        refine ⟨fun _ => ?_, ?_⟩
        · simp only [Event.promises, if_true]
          rw [taken, opened wasOpen, List.reverse_append]
          rfl
        · intro id closers did
          rcases recorded.did_iff.mp did with ⟨_, now⟩ | before
          · cases now
          · have closed := ((lawful.closed scope).2 id closers before).1
            rw [wasOpen] at closed
            cases closed
      · cases isShut
        refine ⟨fun stillOpen => absurd stillOpen (by simp [shut]), ?_⟩
        intro id closers did
        rcases recorded.did_iff.mp did with ⟨_, now⟩ | before
        · cases now
          exact opened wasOpen
        · have closed := ((lawful.closed scope).2 id closers before).1
          rw [wasOpen] at closed
          cases closed
      · have none : event.promises scope = [] := Event.promises_eq_nil notTaken
        simp only [none, List.nil_append, same, kept]
        refine ⟨opened, fun id closers did => given id closers ?_⟩
        rcases recorded.did_iff.mp did with ⟨_, now⟩ | before
        · exact absurd now.symm (notShut closers)
        · exact before

/-- No closer is added to a scope after it was shut. -/
theorem Lawful.not_shut_before (lawful : moment.Lawful conduct) {id : RequestId}
    {scope : ScopeId} {closer : PendingCloser U} {earlier : List (Entry U)}
    (taken : ⟨id, .performed (.attach scope closer) true⟩ :: earlier <:+ moment.history)
    (other : RequestId) (closers : List (PendingCloser U)) :
    ⟨other, .performed (.shut scope) (some closers)⟩ ∉ earlier := by
  induction lawful with
  | initial => cases List.suffix_nil.mp taken
  | contexts contexts _ ih => exact ih taken
  | @records moment next entry lawful recorded _ ih =>
      rw [recorded.history] at taken
      rcases List.suffix_cons_iff.mp taken with now | before
      · obtain ⟨rfl, rfl⟩ := List.cons.inj now
        intro did
        have closed := ((lawful.closed scope).2 other closers did).1
        have performs : (Operation.attach scope closer).perform moment.state =
            some (true, next.state) := recorded.state
        simp only [Operation.perform, closed, if_true] at performs
        cases performs
      · exact ih before

end Moment

end Provision
