import Provision.Proofs.Execution.RequestConduct
import Mathlib.Algebra.Order.Group.Multiset
import Mathlib.Tactic.Abel

/-!
# Books of instances

An instance with a closer is in the hands of the request to which its constructor returned it, until
the request hands the closer over.  If it fails before, the instance is lost.  Between settling the
cell of the instance and entering the one of the value that is shown, the scope stores it for
whoever gets there first.  The books follow the history, entry by entry.

Main statement: `Moment.instances_perm`, that every instance is in one place.
-/

namespace Provision

open Moment

variable {U : Client}

/-- An instance that has to be closed: the request that has it, what the constructor returned, and
what decorators made of that since. -/
structure Holding (U : Client) where
  request : RequestId
  site : Site U
  origin : Content U
  current : Content U

/-- What an entry means to the instances that its request has. -/
inductive Turn (U : Client) where
  | gain (site : Site U) (content : Content U)
  | renew (site : Site U) (target content : Content U)
  | lose (cause : Event U)
  | store (scope : ScopeId) (recipe : RecipeId) (outcome : Outcome U)
  | recover (scope : ScopeId) (recipe : RecipeId) (key : Key)
  | close (scope : ScopeId) (closer : PendingCloser U)

/-- A constructor returns an instance and decorators change it.  A context that is done, a decorator
that fails, and one that refuses an argument end a request with whatever it has.  An instance that
is kept is stored until somebody is to show it, and handing over its closer is the end of it. -/
def Event.turn? : Event U → Option (Turn U)
  | .returned (.construct site _ _) (.ok content) =>
      if site.recipe.closer.isSome then some (.gain site content) else none
  | .returned (.decorate site _ _ target _) (.ok content) => some (.renew site target content)
  | .returned (.decorate site key transform target arguments) (.error failure) =>
      some (.lose (.returned (.decorate site key transform target arguments) (.error failure)))
  | .returned (.accepts value) false => some (.lose (.returned (.accepts value) false))
  | .performed (.contextError context) (some reason) =>
      some (.lose (.performed (.contextError context) (some reason)))
  | .performed (.settle scope (.made recipe) outcome) _ => some (.store scope recipe outcome)
  | .performed (.enter scope (.shown recipe key)) none => some (.recover scope recipe key)
  | .performed (.attach scope closer) _ => some (.close scope closer)
  | _ => none

/-- The events that a turn stands for. -/
def Turn.Of (event : Event U) : Turn U → Prop
  | gain site content => site.recipe.closer.isSome = true ∧
      ∃ make arguments, event = .returned (.construct site make arguments) (.ok content)
  | renew site target content => ∃ key transform arguments,
      event = .returned (.decorate site key transform target arguments) (.ok content)
  | lose cause => event = cause
  | store scope recipe outcome => event = .performed (.settle scope (.made recipe) outcome) ()
  | recover scope recipe key => event = .performed (.enter scope (.shown recipe key)) none
  | close scope closer => ∃ answer, event = .performed (.attach scope closer) answer

/-- The turn of an event is a turn that it takes. -/
theorem Event.turn?_of {event : Event U} {turn : Turn U} (turns : event.turn? = some turn) :
    turn.Of event := by
  cases event with
  | performed operation answer =>
      cases operation with
      | contextError context => cases answer <;> cases turns; rfl
      | enter scope cell => cases cell <;> cases answer <;> cases turns; rfl
      | settle scope cell outcome => cases cell <;> cases turns; rfl
      | attach scope closer => cases turns; exact ⟨answer, rfl⟩
      | _ => cases turns
  | returned call answer =>
      cases call with
      | construct site make arguments =>
          cases answer with
          | error failure => cases turns
          | ok content =>
              simp only [turn?, Option.ite_none_right_eq_some, Option.some.injEq] at turns
              obtain ⟨closes, rfl⟩ := turns
              exact ⟨closes, make, arguments, rfl⟩
      | decorate site key transform target arguments =>
          cases answer with
          | error failure => cases turns; rfl
          | ok content => cases turns; exact ⟨key, transform, arguments, rfl⟩
      | accepts value => cases answer <;> cases turns; rfl
      | _ => cases turns
  | called call => cases turns
  | started demand => cases turns
  | finished reply => cases turns

/-- Where the instances are that have to be closed: with a request, with a scope until somebody
shows them, lost with what ended their request, or handed over with their closer. -/
structure Books (U : Client) where
  held : List (Holding U) := []
  stored : List (Holding U) := []
  lost : List (Holding U × Event U) := []
  closing : List (Holding U × PendingCloser U) := []

namespace Books

/-- What a request has. -/
def heldBy (books : Books U) (request : RequestId) : List (Holding U) :=
  books.held.filter fun holding => decide (holding.request = request)

/-- What other requests have. -/
def heldByOthers (books : Books U) (request : RequestId) : List (Holding U) :=
  books.held.filter fun holding => !decide (holding.request = request)

/-- What a scope stores of a registration. -/
def storedAt (books : Books U) (scope : ScopeId) (recipe : RecipeId) : List (Holding U) :=
  books.stored.filter fun holding =>
    decide (holding.site.scope = scope ∧ holding.site.recipe.id = recipe)

/-- Everything else that scopes store. -/
def storedElsewhere (books : Books U) (scope : ScopeId) (recipe : RecipeId) : List (Holding U) :=
  books.stored.filter fun holding =>
    !decide (holding.site.scope = scope ∧ holding.site.recipe.id = recipe)

/-- The books after a turn of a request. -/
def turn (books : Books U) (request : RequestId) : Turn U → Books U
  | .gain site content =>
      { books with held := ⟨request, site, content, content⟩ :: books.held }
  | .renew _ _ content =>
      { books with
        held := (books.heldBy request).map (fun holding => { holding with current := content }) ++
          books.heldByOthers request }
  | .lose cause =>
      { books with
        held := books.heldByOthers request
        lost := (books.heldBy request).map (·, cause) ++ books.lost }
  | .store _ _ _ =>
      { books with
        held := books.heldByOthers request
        stored := books.heldBy request ++ books.stored }
  | .recover scope recipe _ =>
      { books with
        held := (books.storedAt scope recipe).map (fun holding => { holding with request }) ++
          books.held
        stored := books.storedElsewhere scope recipe }
  | .close _ closer =>
      { books with
        held := books.heldByOthers request
        closing := (books.heldBy request).map (·, closer) ++ books.closing }

/-- The instances that are with requests or stored. -/
def pending (books : Books U) : List (Holding U) :=
  books.held ++ books.stored

/-- The closers of instances that were handed to a scope. -/
def closingAt (books : Books U) (scope : ScopeId) : List (Holding U × PendingCloser U) :=
  books.closing.filter fun handed => decide (handed.1.site.scope = scope)

/-- The instances of a scope that are lost. -/
def lostAt (books : Books U) (scope : ScopeId) : List (Holding U × Event U) :=
  books.lost.filter fun lost => decide (lost.1.site.scope = scope)

/-- All instances, wherever they are. -/
def holdings (books : Books U) : List (Holding U) :=
  books.held ++ books.stored ++ books.lost.map Prod.fst ++ books.closing.map Prod.fst

end Books

/-- The books after an entry. -/
def Entry.keepBooks (entry : Entry U) (books : Books U) : Books U :=
  match entry.event.turn? with
  | some turn => books.turn entry.request turn
  | none => books

/-- Where the instances are. -/
def Moment.books (moment : Moment U) : Books U :=
  moment.history.foldr Entry.keepBooks {}

/-- The books go on by one entry. -/
theorem Moment.Records.books {moment next : Moment U} {entry : Entry U}
    (recorded : moment.Records entry next) : next.books = entry.keepBooks moment.books := by
  unfold Moment.books
  rw [recorded.history, List.foldr_cons]

/-- An entry that takes a turn turns the books. -/
theorem Entry.keepBooks_of_turn {entry : Entry U} {turn : Turn U}
    (turns : entry.event.turn? = some turn) (books : Books U) :
    entry.keepBooks books = books.turn entry.request turn := by
  unfold Entry.keepBooks
  rw [turns]

/-- An entry that takes no turn leaves the books as they are. -/
theorem Entry.keepBooks_of_none {entry : Entry U} (quiet : entry.event.turn? = none)
    (books : Books U) : entry.keepBooks books = books := by
  unfold Entry.keepBooks
  rw [quiet]

/-- An entry is a turn of its request, or leaves the books as they are. -/
theorem Moment.Records.books_cases {moment next : Moment U} {entry : Entry U}
    (recorded : moment.Records entry next) :
    (entry.event.turn? = none ∧ next.books = moment.books) ∨
      ∃ turn, entry.event.turn? = some turn ∧
        next.books = moment.books.turn entry.request turn := by
  rw [recorded.books]
  cases turns : entry.event.turn? with
  | none => exact .inl ⟨rfl, Entry.keepBooks_of_none turns _⟩
  | some turn => exact .inr ⟨turn, rfl, Entry.keepBooks_of_turn turns _⟩

/-! ## One request among others -/

namespace Books

variable (books : Books U) (request : RequestId)

/-- What is held is held by a request or by others. -/
theorem heldBy_append_heldByOthers :
    (books.heldBy request ++ books.heldByOthers request).Perm books.held :=
  List.filter_append_perm ..

/-- What is stored is stored for a recipe of a scope or elsewhere. -/
theorem storedAt_append_storedElsewhere (scope : ScopeId) (recipe : RecipeId) :
    (books.storedAt scope recipe ++ books.storedElsewhere scope recipe).Perm books.stored :=
  List.filter_append_perm ..

variable {books request}

/-- What a request holds is its own. -/
theorem request_of_mem_heldBy {holding : Holding U} (member : holding ∈ books.heldBy request) :
    holding.request = request :=
  of_decide_eq_true (List.mem_filter.mp member).2

/-- Nothing that others hold is held by the request. -/
theorem filter_heldByOthers_self :
    (books.heldByOthers request).filter (fun holding => decide (holding.request = request)) =
      [] := by
  rw [List.filter_eq_nil_iff]
  intro holding member mine
  have other := (List.mem_filter.mp member).2
  rw [mine] at other
  cases other

/-- What another request holds is held by others. -/
theorem filter_heldByOthers_of_ne {other : RequestId} (differs : other ≠ request) :
    (books.heldByOthers request).filter (fun holding => decide (holding.request = other)) =
      books.heldBy other := by
  unfold heldByOthers heldBy
  rw [List.filter_filter]
  refine List.filter_congr fun holding _ => ?_
  by_cases same : holding.request = other <;> simp [same, differs]

/-- A turn of one request leaves to the others what they have. -/
theorem heldBy_turn_of_ne {other : RequestId} (differs : other ≠ request) (turn : Turn U) :
    (books.turn request turn).heldBy other = books.heldBy other := by
  have others : (books.heldByOthers request).filter
      (fun holding => decide (holding.request = other)) = books.heldBy other :=
    filter_heldByOthers_of_ne differs
  cases turn with
  | gain site content => exact List.filter_cons_of_neg (by simpa using differs.symm)
  | renew site target content =>
      change List.filter _ (List.map _ _ ++ _) = _
      rw [List.filter_append, others, List.append_left_eq_self, List.filter_eq_nil_iff]
      intro holding member
      obtain ⟨before, held, rfl⟩ := List.mem_map.mp member
      simpa [request_of_mem_heldBy held] using differs.symm
  | lose cause => exact others
  | store scope recipe outcome => exact others
  | close scope closer => exact others
  | recover scope recipe key =>
      change List.filter _ (List.map _ _ ++ _) = _
      rw [List.filter_append]
      refine List.append_left_eq_self.mpr (List.filter_eq_nil_iff.mpr ?_)
      intro holding member
      obtain ⟨before, _, rfl⟩ := List.mem_map.mp member
      simpa using differs.symm

/-- What a scope stores was stored before, or was in the hands of the request that stores. -/
theorem mem_stored_turn {turn : Turn U} {holding : Holding U}
    (member : holding ∈ (books.turn request turn).stored) :
    holding ∈ books.stored ∨
      (holding ∈ books.heldBy request ∧
        ∃ scope recipe outcome, turn = .store scope recipe outcome) := by
  cases turn with
  | store scope recipe outcome =>
      rcases List.mem_append.mp member with mine | before
      · exact .inr ⟨mine, scope, recipe, outcome, rfl⟩
      · exact .inl before
  | recover scope recipe key => exact .inl (List.mem_filter.mp member).1
  | gain _ _ => exact .inl member
  | renew _ _ _ => exact .inl member
  | lose _ => exact .inl member
  | close _ _ => exact .inl member

/-- What is lost was lost before, or the request loses it now. -/
theorem mem_lost_turn {turn : Turn U} {holding : Holding U} {cause : Event U}
    (member : (holding, cause) ∈ (books.turn request turn).lost) :
    (holding, cause) ∈ books.lost ∨ (turn = .lose cause ∧ holding ∈ books.heldBy request) := by
  cases turn with
  | lose other =>
      rcases List.mem_append.mp member with now | before
      · obtain ⟨had, isHad, same⟩ := List.mem_map.mp now
        cases same
        exact .inr ⟨rfl, isHad⟩
      · exact .inl before
  | gain _ _ => exact .inl member
  | renew _ _ _ => exact .inl member
  | store _ _ _ => exact .inl member
  | recover _ _ _ => exact .inl member
  | close _ _ => exact .inl member

/-- A closer was handed over before, or the request hands it over now. -/
theorem mem_closing_turn {turn : Turn U} {holding : Holding U} {closer : PendingCloser U}
    (member : (holding, closer) ∈ (books.turn request turn).closing) :
    (holding, closer) ∈ books.closing ∨
      ∃ scope, turn = .close scope closer ∧ holding ∈ books.heldBy request := by
  cases turn with
  | close scope other =>
      rcases List.mem_append.mp member with now | before
      · obtain ⟨had, isHad, same⟩ := List.mem_map.mp now
        cases same
        exact .inr ⟨scope, rfl, isHad⟩
      · exact .inl before
  | gain _ _ => exact .inl member
  | renew _ _ _ => exact .inl member
  | lose _ => exact .inl member
  | store _ _ _ => exact .inl member
  | recover _ _ _ => exact .inl member

/-- Only closing adds to what is being closed. -/
theorem closing_turn_of_not_close {turn : Turn U}
    (other : ∀ scope closer, turn ≠ .close scope closer) :
    (books.turn request turn).closing = books.closing := by
  cases turn with
  | close scope closer => exact absurd rfl (other scope closer)
  | _ => rfl

/-- An instance that is pending after a turn was so before, except that the turn may have renewed it
or found it stored, or it is one that a constructor returned. -/
theorem mem_pending_turn {turn : Turn U} {holding : Holding U}
    (member : holding ∈ (books.turn request turn).pending) :
    (∃ before ∈ books.pending, before.site = holding.site ∧ before.origin = holding.origin ∧
      (before.current = holding.current ∨ (before ∈ books.heldBy request ∧
        ∃ site target, turn = .renew site target holding.current)) ∧
      (before.request = holding.request ∨ (holding.request = request ∧
        ∃ recipe key, turn = .recover holding.site.scope recipe key))) ∨
      (holding.request = request ∧ turn = .gain holding.site holding.origin ∧
        holding.current = holding.origin) := by
  rcases List.mem_append.mp member with held | stored
  · cases turn with
    | gain site content =>
        rcases List.mem_cons.mp held with rfl | before
        · exact .inr ⟨rfl, rfl, rfl⟩
        · exact .inl ⟨_, List.mem_append_left _ before, rfl, rfl, .inl rfl, .inl rfl⟩
    | renew site target content =>
        rcases List.mem_append.mp held with mine | others
        · obtain ⟨before, had, rfl⟩ := List.mem_map.mp mine
          have was := List.mem_append_left books.stored (List.mem_filter.mp had).1
          exact .inl ⟨before, was, rfl, rfl, .inr ⟨had, site, target, rfl⟩, .inl rfl⟩
        · have was := List.mem_append_left books.stored (List.mem_filter.mp others).1
          exact .inl ⟨_, was, rfl, rfl, .inl rfl, .inl rfl⟩
    | recover scope recipe key =>
        rcases List.mem_append.mp held with taken | before
        · obtain ⟨stored, here, rfl⟩ := List.mem_map.mp taken
          obtain ⟨was, isHere⟩ := List.mem_filter.mp here
          obtain ⟨rfl, _⟩ := of_decide_eq_true isHere
          exact .inl ⟨stored, List.mem_append_right _ was, rfl, rfl, .inl rfl,
            .inr ⟨rfl, recipe, key, rfl⟩⟩
        · exact .inl ⟨_, List.mem_append_left _ before, rfl, rfl, .inl rfl, .inl rfl⟩
    | lose _ =>
        have was := List.mem_append_left books.stored (List.mem_filter.mp held).1
        exact .inl ⟨_, was, rfl, rfl, .inl rfl, .inl rfl⟩
    | store _ _ _ =>
        have was := List.mem_append_left books.stored (List.mem_filter.mp held).1
        exact .inl ⟨_, was, rfl, rfl, .inl rfl, .inl rfl⟩
    | close _ _ =>
        have was := List.mem_append_left books.stored (List.mem_filter.mp held).1
        exact .inl ⟨_, was, rfl, rfl, .inl rfl, .inl rfl⟩
  · rcases mem_stored_turn stored with before | ⟨mine, _⟩
    · exact .inl ⟨_, List.mem_append_right _ before, rfl, rfl, .inl rfl, .inl rfl⟩
    · have was := List.mem_append_left books.stored (List.mem_filter.mp mine).1
      exact .inl ⟨_, was, rfl, rfl, .inl rfl, .inl rfl⟩

variable {scope other : ScopeId} {recipe another : RecipeId}

/-- Storing adds what the request holds of the recipe. -/
theorem storedAt_turn_store (outcome : Outcome U) :
    (books.turn request (.store other another outcome)).storedAt scope recipe =
      (books.heldBy request).filter (fun holding =>
        decide (holding.site.scope = scope ∧ holding.site.recipe.id = recipe)) ++
          books.storedAt scope recipe :=
  List.filter_append ..

/-- Recovering leaves nothing stored of the recipe. -/
theorem storedAt_turn_recover_self (key : Key) :
    (books.turn request (.recover scope recipe key)).storedAt scope recipe = [] := by
  refine List.filter_eq_nil_iff.mpr fun holding member here => ?_
  have elsewhere := (List.mem_filter.mp member).2
  rw [here] at elsewhere
  cases elsewhere

/-- Recovering leaves what is stored of other recipes. -/
theorem storedAt_turn_recover_of_ne (key : Key) (differs : ¬ (other = scope ∧ another = recipe)) :
    (books.turn request (.recover other another key)).storedAt scope recipe =
      books.storedAt scope recipe := by
  change List.filter _ (List.filter _ _) = _
  rw [List.filter_filter]
  refine List.filter_congr fun holding _ => ?_
  by_cases here : holding.site.scope = scope ∧ holding.site.recipe.id = recipe
  · obtain ⟨rfl, rfl⟩ := here
    have elsewhere : ¬ (holding.site.scope = other ∧ holding.site.recipe.id = another) :=
      fun same => differs ⟨same.1.symm, same.2.symm⟩
    simp [elsewhere]
  · simp [here]

end Books

namespace Moment

/-- What a request has. -/
abbrev heldBy (moment : Moment U) (request : RequestId) : List (Holding U) :=
  moment.books.heldBy request

/-- What a scope stores of a registration. -/
abbrev storedAt (moment : Moment U) (scope : ScopeId) (recipe : RecipeId) : List (Holding U) :=
  moment.books.storedAt scope recipe

/-- A scope stores nothing that a request made. -/
def Unstored (moment : Moment U) (request : RequestId) : Prop :=
  ∀ holding ∈ moment.books.stored, holding.request ≠ request

/-- A request has nothing, and nothing of it is stored. -/
structure Free (moment : Moment U) (request : RequestId) : Prop where
  held : moment.heldBy request = []
  unstored : moment.Unstored request

variable {rely : Conduct U} {id : RequestId} {moment next : Moment U}

/-- What a request holds is not changed by others. -/
theorem Records.heldBy_of_ne {entry : Entry U} (recorded : moment.Records entry next)
    (differs : entry.request ≠ id) : next.heldBy id = moment.heldBy id := by
  rcases recorded.books_cases with ⟨_, same⟩ | ⟨turn, _, same⟩
  · rw [heldBy, same]
  · rw [heldBy, same]
    exact Books.heldBy_turn_of_ne differs.symm turn

/-- What others do, and what is no turn, leaves to a request what it has. -/
theorem Passage.heldBy
    (passage : Passage rely id (fun event => event.turn? = none) moment next) :
    next.heldBy id = moment.heldBy id := by
  induction passage with
  | refl => rfl
  | contexts _ _ ih => exact ih
  | foreign _ recorded differs _ ih => rw [recorded.heldBy_of_ne differs, ih]
  | own _ recorded quiet ih =>
      rw [Moment.heldBy, recorded.books, Entry.keepBooks_of_none quiet]
      exact ih

/-- A request stores only when it settles the cell of an instance. -/
theorem Passage.mem_stored {own : Event U → Prop} (passage : Passage rely id own moment next)
    (unsettling : ∀ event, own event → ∀ scope recipe outcome,
      event.turn? ≠ some (.store scope recipe outcome)) {holding : Holding U}
    (member : holding ∈ next.books.stored) (mine : holding.request = id) :
    holding ∈ moment.books.stored := by
  induction passage with
  | refl => exact member
  | contexts _ _ ih => exact ih member
  | foreign _ recorded differs _ ih =>
      refine ih ?_
      rcases recorded.books_cases with ⟨_, same⟩ | ⟨turn, _, same⟩ <;> rw [same] at member
      · exact member
      · refine (Books.mem_stored_turn member).resolve_right fun ⟨held, _⟩ => ?_
        exact differs ((Books.request_of_mem_heldBy held).symm.trans mine)
  | @own _ _ event _ recorded allowed ih =>
      refine ih ?_
      rcases recorded.books_cases with ⟨_, same⟩ | ⟨turn, turns, same⟩ <;> rw [same] at member
      · exact member
      · refine (Books.mem_stored_turn member).resolve_right fun ⟨_, scope, recipe, _, stores⟩ => ?_
        exact unsettling event allowed scope recipe _ (stores ▸ turns)

end Moment

namespace Moment

/-- Whoever has an instance, or had it before it was stored, is a request that was made. -/
theorem knows_of_pending {moment : Moment U} {holding : Holding U}
    (pending : holding ∈ moment.books.pending) : moment.Knows holding.request := by
  unfold books at pending
  unfold Knows
  generalize moment.history = history at pending ⊢
  induction history generalizing holding with
  | nil => cases pending
  | cons entry earlier ih =>
      have before : (∃ other ∈ earlier, other.request = holding.request) →
          ∃ other ∈ entry :: earlier, other.request = holding.request :=
        fun ⟨other, did, same⟩ => ⟨other, List.mem_cons_of_mem _ did, same⟩
      rw [List.foldr_cons] at pending
      cases turns : entry.event.turn? with
      | none =>
          rw [Entry.keepBooks_of_none turns] at pending
          exact before (ih pending)
      | some turn =>
          rw [Entry.keepBooks_of_turn turns] at pending
          rcases Books.mem_pending_turn pending with
            ⟨was, member, _, _, _, same | ⟨mine, _⟩⟩ | ⟨mine, _⟩
          · exact before (same ▸ ih member)
          · exact ⟨entry, List.mem_cons_self, mine.symm⟩
          · exact ⟨entry, List.mem_cons_self, mine.symm⟩

/-- A request that was not made has nothing. -/
theorem free_of_unknown {moment : Moment U} {id : RequestId} (unknown : ¬ moment.Knows id) :
    moment.Free id where
  held := by
    refine List.filter_eq_nil_iff.mpr fun holding held mine => unknown ?_
    exact of_decide_eq_true mine ▸ knows_of_pending (List.mem_append_left _ held)
  unstored := fun holding stored mine =>
    unknown (mine ▸ knows_of_pending (List.mem_append_right _ stored))

end Moment

/-! ## All instances -/

/-- The instances that an event brings about that have to be closed, with their sites. -/
def Event.makes : Event U → List (Site U × Content U)
  | .returned (.construct site _ _) (.ok content) =>
      if site.recipe.closer.isSome then [(site, content)] else []
  | _ => []

/-- The instances that constructors returned and that have to be closed, the last first. -/
def Moment.instances (moment : Moment U) : List (Site U × Content U) :=
  moment.history.flatMap fun entry => entry.event.makes

/-- What a constructor returned. -/
def Holding.made (holding : Holding U) : Site U × Content U :=
  (holding.site, holding.origin)

/-- An event that gains nothing makes nothing. -/
theorem Event.makes_of_not_gain {event : Event U}
    (other : ∀ site content, event.turn? ≠ some (.gain site content)) : event.makes = [] := by
  cases event with
  | returned call answer =>
      cases call with
      | construct site make arguments =>
          cases answer with
          | error failure => rfl
          | ok content =>
              refine if_neg fun closes => other site content ?_
              simp only [turn?, closes, if_true]
      | _ => rfl
  | _ => rfl

namespace Books

variable (books : Books U) (request : RequestId)

/-- A turn brings about no instance but one that is gained, and forgets none. -/
theorem made_turn (turn : Turn U) :
    ((books.turn request turn).holdings.map Holding.made : Multiset (Site U × Content U)) =
      (match turn with
        | .gain site content => [(site, content)]
        | _ => [] : List (Site U × Content U)) + books.holdings.map Holding.made := by
  have held : (books.held.map Holding.made : Multiset (Site U × Content U)) =
      (books.heldBy request).map Holding.made + (books.heldByOthers request).map Holding.made := by
    rw [Multiset.coe_add, ← List.map_append]
    exact Multiset.coe_eq_coe.mpr
      ((books.heldBy_append_heldByOthers request).symm.map Holding.made)
  cases turn with
  | gain site content => rfl
  | renew site target content =>
      have same : ((books.heldBy request).map fun holding =>
          { holding with current := content }).map Holding.made =
            (books.heldBy request).map Holding.made := List.map_map ..
      simp only [Books.turn, holdings, List.map_append, ← Multiset.coe_add, held, same]
      abel
  | lose cause =>
      simp only [Books.turn, holdings, List.map_append, List.map_map, Function.comp_def,
        ← Multiset.coe_add, held]
      abel
  | store scope recipe outcome =>
      simp only [Books.turn, holdings, List.map_append, ← Multiset.coe_add, held]
      abel
  | recover scope recipe key =>
      have stored : (books.stored.map Holding.made : Multiset (Site U × Content U)) =
          (books.storedAt scope recipe).map Holding.made +
            (books.storedElsewhere scope recipe).map Holding.made := by
        rw [Multiset.coe_add, ← List.map_append]
        exact Multiset.coe_eq_coe.mpr
          ((books.storedAt_append_storedElsewhere scope recipe).symm.map Holding.made)
      have same : ((books.storedAt scope recipe).map fun holding =>
          { holding with request }).map Holding.made =
            (books.storedAt scope recipe).map Holding.made := List.map_map ..
      simp only [Books.turn, holdings, List.map_append, ← Multiset.coe_add, stored, same]
      abel
  | close scope closer =>
      simp only [Books.turn, holdings, List.map_append, List.map_map, Function.comp_def,
        ← Multiset.coe_add, held]
      abel

end Books

/-- Every instance that has to be closed is in one place. -/
theorem Moment.instances_perm (moment : Moment U) :
    moment.instances.Perm (moment.books.holdings.map Holding.made) := by
  rw [← Multiset.coe_eq_coe]
  unfold Moment.instances Moment.books
  induction moment.history with
  | nil => rfl
  | cons entry earlier ih =>
      rw [List.flatMap_cons, List.foldr_cons, ← Multiset.coe_add, ih]
      cases turns : entry.event.turn? with
      | none =>
          have none : entry.event.makes = [] :=
            Event.makes_of_not_gain fun _ _ gains => by cases turns.symm.trans gains
          rw [Entry.keepBooks_of_none turns, none]
          exact zero_add _
      | some turn =>
          rw [Entry.keepBooks_of_turn turns, Books.made_turn]
          cases turn with
          | gain site content =>
              obtain ⟨closes, make, arguments, isReturn⟩ := Event.turn?_of turns
              simp only [isReturn, Event.makes, closes, if_true]
          | _ =>
              rw [Event.makes_of_not_gain fun _ _ gains => by cases turns.symm.trans gains]

end Provision
