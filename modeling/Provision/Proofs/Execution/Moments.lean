import Provision.Container

/-!
# Moments and what events change

What can be seen of containers in use: their state, and the history of everything that the
requests of their clients did so far.  A request performs operations and calls functions of the
client.  A call begins and returns; in between its request waits while others go on, among them
the requests that the function itself makes.  The history has the newest entry first.

`Operation.Effect` lists the ways in which an operation can go, and an operation goes in one of
them.  Each part of the state has one statement that lists everything an event can do to it: to a
cell, to the closers of a scope, to the count of scopes.  The invariants of whole histories are
derived from these.
-/

namespace Provision

variable {U : Client}

/-- What a client may ask of containers. -/
inductive Demand (U : Client) where
  | build (parent : Option (Scope U)) (registrations : List (Registration U))
  | resolve (scope : Scope U) (context : ContextId) (key : Key)
  | resolveTyped (scope : Scope U) (context : ContextId) (key : Key)
  | resolveThrough (handle : Handle U) (context : ContextId) (key : Key)
  | resolveTypedThrough (handle : Handle U) (context : ContextId) (key : Key)
  | invoke (scope : Scope U) (context : ContextId) (params : List Param) (routine : U.Routine)
  | close (scope : Scope U) (context : ContextId)
  | discard (scope : Scope U)

/-- What a client gets back. -/
inductive Reply (U : Client) where
  | built (scope : Scope U)
  | resolved (value : Value U)
  | invoked (failure : Option UserError)
  | nothing

/-- The request that a demand stands for. -/
def Demand.request : Demand U → Request U (Reply U)
  | build parent registrations => do
      let scope ← buildScope parent registrations
      pure (.built scope)
  | resolve scope context key => do
      let value ← Provision.resolve scope context key
      pure (.resolved value)
  | resolveTyped scope context key => do
      let value ← scope.resolveTyped context key
      pure (.resolved value)
  | resolveThrough handle context key => do
      let value ← handle.resolve context key
      pure (.resolved value)
  | resolveTypedThrough handle context key => do
      let value ← handle.resolveTyped context key
      pure (.resolved value)
  | invoke scope context params routine => do
      let failure ← scope.invoke context params fun arguments =>
        Program.callClient (.enact routine arguments)
      pure (.invoked failure)
  | close scope context => do
      scope.close context
      pure .nothing
  | discard scope => do
      ExceptT.lift scope.discard
      pure .nothing

/-- The scopes that a demand names. -/
def Demand.scopes : Demand U → List (Scope U)
  | build parent _ => parent.toList
  | resolve scope _ _ => [scope]
  | resolveTyped scope _ _ => [scope]
  | resolveThrough handle _ _ => [handle.scope]
  | resolveTypedThrough handle _ _ => [handle.scope]
  | invoke scope _ _ _ => [scope]
  | close scope _ => [scope]
  | discard scope => [scope]

/-- The identity of a request that is made. -/
structure RequestId where
  index : Nat
  deriving DecidableEq, Repr

/-- What a request does. -/
inductive Event (U : Client) where
  | started (demand : Demand U)
  | performed (operation : Operation U) (answer : operation.Answer)
  | called (call : Call U)
  | returned (call : Call U) (answer : call.Answer)
  | finished (reply : Except Error (Reply U))

/-- An entry of the history: a request and what it did. -/
structure Entry (U : Client) where
  request : RequestId
  event : Event U

/-- The state of all containers and the history that led to it, the newest entry first. -/
structure Moment (U : Client) where
  state : State U := {}
  history : List (Entry U) := []

/-- What an event does to the state: only operations change it. -/
def Event.Changes (event : Event U) (before after : State U) : Prop :=
  match event with
  | .performed operation answer => operation.perform before = some (answer, after)
  | _ => after = before

namespace Moment

/-- The next moment after an entry is added to the history. -/
structure Records (moment : Moment U) (entry : Entry U) (next : Moment U) : Prop where
  history : next.history = entry :: moment.history
  state : entry.event.Changes moment.state next.state

/-- The moment after an entry that leaves the state as given. -/
def recording (moment : Moment U) (entry : Entry U) (state : State U) : Moment U :=
  { state, history := entry :: moment.history }

/-- To record an entry with the state that it leads to is to go on to the next moment. -/
theorem records_recording {moment : Moment U} {entry : Entry U} {state : State U}
    (changes : entry.event.Changes moment.state state) :
    moment.Records entry (moment.recording entry state) :=
  ⟨rfl, changes⟩

/-- The history grows by what is recorded. -/
theorem Records.suffix {moment next : Moment U} {entry : Entry U}
    (recorded : moment.Records entry next) : moment.history <:+ next.history := by
  rw [recorded.history]
  exact List.suffix_cons _ _

/-- The moment after the client did something to its contexts, or time passed. -/
def withContexts (moment : Moment U) (contexts : Contexts) : Moment U :=
  { moment with state := { moment.state with contexts } }

/-- Whether a request did something. -/
def Did (moment : Moment U) (request : RequestId) (event : Event U) : Prop :=
  ⟨request, event⟩ ∈ moment.history

/-- Something was done before an entry was added, or the entry says so. -/
theorem Records.did_iff {moment next : Moment U} {id other : RequestId} {event did : Event U}
    (recorded : moment.Records ⟨id, event⟩ next) :
    next.Did other did ↔ (other = id ∧ did = event) ∨ moment.Did other did := by
  rw [Did, recorded.history, List.mem_cons, Entry.mk.injEq]
  rfl

/-- What is recorded was done. -/
theorem Records.did {moment next : Moment U} {id : RequestId} {event : Event U}
    (recorded : moment.Records ⟨id, event⟩ next) : next.Did id event :=
  recorded.did_iff.mpr (.inl ⟨rfl, rfl⟩)

/-- What the entry does not say was done before. -/
theorem Records.before {moment next : Moment U} {id other : RequestId} {event did : Event U}
    (recorded : moment.Records ⟨id, event⟩ next) (happened : next.Did other did)
    (differs : did ≠ event) : moment.Did other did :=
  (recorded.did_iff.mp happened).resolve_left fun now => differs now.2

/-- The scopes that were built so far. -/
def IsScope (moment : Moment U) (scope : Scope U) : Prop :=
  ∃ request, moment.Did request (.finished (.ok (.built scope)))

/-- Whether a request was made so far. -/
def Knows (moment : Moment U) (request : RequestId) : Prop :=
  ∃ entry ∈ moment.history, entry.request = request

end Moment

/-- A demand may be made if it names scopes that were built. -/
def Demand.Allowed (demand : Demand U) (moment : Moment U) : Prop :=
  ∀ scope ∈ demand.scopes, moment.IsScope scope

/-! ## Effects of events -/

/-- The cell of an entry of a scope, once it was entered. -/
def State.cell? (state : State U) (scope : ScopeId) (entry : CacheKey) : Option (Cell U) :=
  (state.scope scope).cells.get? entry

/-- What is kept is the outcome of a cell that is filled. -/
theorem State.kept?_eq (state : State U) (scope : ScopeId) (entry : CacheKey) :
    state.kept? scope entry = (state.cell? scope entry).bind Cell.outcome? := rfl

/-- A cell keeps an outcome just if it is filled with it. -/
theorem State.kept?_eq_some {state : State U} {scope : ScopeId} {entry : CacheKey}
    {outcome : Outcome U} :
    state.kept? scope entry = some outcome ↔
      state.cell? scope entry = some (.filled outcome) := by
  rw [State.kept?_eq]
  cases state.cell? scope entry with
  | none => simp
  | some cell => cases cell <;> simp [Cell.outcome?]

/-- Writing to one cell leaves all others as they are. -/
theorem State.cell?_setScope_fillCell (state : State U) (scope other : ScopeId)
    (entry wanted : CacheKey) (cell : Cell U) :
    (state.setScope scope (Operation.fillCell (state.scope scope) entry cell)).cell? other wanted =
      if scope = other ∧ entry = wanted then some cell else state.cell? other wanted := by
  unfold State.cell?
  rw [State.scope_setScope]
  by_cases here : scope = other
  · subst here
    simp [Operation.fillCell, Table.get?_put]
  · simp [here]

/-- A change of a scope that leaves its cells as they are changes no cell. -/
theorem State.cell?_setScope_of_cells {state : State U} {scope : ScopeId} {next : ScopeState U}
    (same : next.cells = (state.scope scope).cells) (other : ScopeId) (wanted : CacheKey) :
    (state.setScope scope next).cell? other wanted = state.cell? other wanted := by
  unfold State.cell?
  rw [State.scope_setScope]
  by_cases here : scope = other
  · rw [if_pos here, same, here]
  · rw [if_neg here]

/-- The ways in which an operation can go, each with what it finds in the state and what it leaves
there. -/
inductive Operation.Effect (state : State U) :
    (operation : Operation U) → operation.Answer → State U → Prop where
  | contextError (context : ContextId) :
      Effect state (.contextError context) (state.contexts.error? context) state
  | isClosed (scope : ScopeId) : Effect state (.isClosed scope) (state.scope scope).closed state
  | isDropped (scope : ScopeId) : Effect state (.isDropped scope) (state.scope scope).dropped state
  | peek (scope : ScopeId) (entry : CacheKey) :
      Effect state (.peek scope entry) (state.kept? scope entry) state
  | found {scope : ScopeId} {entry : CacheKey} {outcome : Outcome U}
      (filled : state.cell? scope entry = some (.filled outcome)) :
      Effect state (.enter scope entry) (some outcome) state
  | entered {scope : ScopeId} {entry : CacheKey} (empty : state.cell? scope entry = none) :
      Effect state (.enter scope entry) none
        (state.setScope scope (fillCell (state.scope scope) entry .filling))
  | settled (scope : ScopeId) (entry : CacheKey) (outcome : Outcome U) :
      Effect state (.settle scope entry outcome) ()
        (state.setScope scope (fillCell (state.scope scope) entry (.filled outcome)))
  | attached {scope : ScopeId} (closer : PendingCloser U)
      (opened : (state.scope scope).closed = false) :
      Effect state (.attach scope closer) true
        (state.setScope scope
          { state.scope scope with closers := (state.scope scope).closers ++ [closer] })
  | refused {scope : ScopeId} (closer : PendingCloser U)
      (closed : (state.scope scope).closed = true) :
      Effect state (.attach scope closer) false state
  | shut {scope : ScopeId} (opened : (state.scope scope).closed = false) :
      Effect state (.shut scope) (some (state.scope scope).closers)
        (state.setScope scope { state.scope scope with closed := true, closers := [] })
  | wasShut {scope : ScopeId} (closed : (state.scope scope).closed = true) :
      Effect state (.shut scope) none state
  | discarded (scope : ScopeId) (pending : Nat) :
      Effect state (.discard scope) pending
        (state.setScope scope { state.scope scope with dropped := true })
  | newScope :
      Effect state .newScope ⟨state.nextScope⟩ { state with nextScope := state.nextScope + 1 }
  | newFlag : Effect state .newFlag ⟨state.nextFlag⟩ { state with nextFlag := state.nextFlag + 1 }
  | raised (flag : FlagId) :
      Effect state (.raise flag) () { state with raised := flag :: state.raised }
  | isRaised (flag : FlagId) : Effect state (.isRaised flag) (state.isRaised flag) state

/-- An operation goes in one of the ways that are listed. -/
theorem Operation.effect_of_perform {operation : Operation U} {answer : operation.Answer}
    {before after : State U} (performs : operation.perform before = some (answer, after)) :
    operation.Effect before answer after := by
  cases operation with
  | enter scope entry =>
      simp only [perform] at performs
      split at performs
      · next filled => cases performs; exact .found filled
      · cases performs
      · next empty => cases performs; exact .entered empty
  | attach scope closer =>
      simp only [perform] at performs
      split at performs
      · next closed => cases performs; exact .refused closer closed
      · next opened => cases performs; exact .attached closer (by simpa using opened)
  | shut scope =>
      simp only [perform] at performs
      split at performs
      · next closed => cases performs; exact .wasShut closed
      · next opened => cases performs; exact .shut (by simpa using opened)
  | _ => cases performs; constructor

/-- Operations leave contexts as they are. -/
theorem Operation.contexts_perform {operation : Operation U} {answer : operation.Answer}
    {before after : State U} (performs : operation.perform before = some (answer, after)) :
    after.contexts = before.contexts := by
  cases effect_of_perform performs <;> rfl

/-- Whoever looks into a cell sees what is in it. -/
theorem Operation.perform_peek {before after : State U} {scope : ScopeId} {entry : CacheKey}
    {kept : Option (Outcome U)}
    (performs : (Operation.peek scope entry).perform before = some (kept, after)) :
    before.kept? scope entry = kept ∧ after = before := by
  cases performs
  exact ⟨rfl, rfl⟩

/-- Whoever enters a filled cell is told the outcome. -/
theorem Operation.perform_enter_some {before after : State U} {scope : ScopeId}
    {entry : CacheKey} {outcome : Outcome U}
    (performs : (Operation.enter scope entry).perform before = some (some outcome, after)) :
    before.cell? scope entry = some (.filled outcome) ∧ after = before := by
  cases effect_of_perform performs with
  | found filled => exact ⟨filled, rfl⟩

/-- Only an empty cell is entered, and it is being filled then. -/
theorem Operation.perform_enter_none {before after : State U} {scope : ScopeId}
    {entry : CacheKey}
    (performs : (Operation.enter scope entry).perform before = some (none, after)) :
    before.cell? scope entry = none ∧ after.cell? scope entry = some .filling := by
  cases effect_of_perform performs with
  | entered empty => exact ⟨empty, by simp [State.cell?_setScope_fillCell]⟩

/-- Settling a cell fills it. -/
theorem Operation.perform_settle {before after : State U} {scope : ScopeId} {entry : CacheKey}
    {outcome : Outcome U} {answer : Unit}
    (performs : (Operation.settle scope entry outcome).perform before = some (answer, after)) :
    after.cell? scope entry = some (.filled outcome) := by
  cases performs
  simp [State.cell?_setScope_fillCell]

namespace Event.Changes

variable {event : Event U} {before after : State U}

/-- Events that neither enter nor settle a cell leave it as it is. -/
theorem cell?_of_other (changes : event.Changes before after) {scope : ScopeId} {entry : CacheKey}
    (unentered : event ≠ .performed (.enter scope entry) none)
    (unsettled : ∀ outcome, event ≠ .performed (.settle scope entry outcome) ()) :
    after.cell? scope entry = before.cell? scope entry := by
  cases event with
  | performed operation answer =>
      cases Operation.effect_of_perform changes with
      | @entered other wanted empty =>
          have differs : ¬ (other = scope ∧ wanted = entry) := by
            rintro ⟨rfl, rfl⟩
            exact unentered rfl
          rw [State.cell?_setScope_fillCell, if_neg differs]
      | settled other wanted outcome =>
          have differs : ¬ (other = scope ∧ wanted = entry) := by
            rintro ⟨rfl, rfl⟩
            exact unsettled outcome rfl
          rw [State.cell?_setScope_fillCell, if_neg differs]
      | attached closer _ => apply State.cell?_setScope_of_cells; rfl
      | shut _ => apply State.cell?_setScope_of_cells; rfl
      | discarded other pending => apply State.cell?_setScope_of_cells; rfl
      | _ => rfl
  | _ => cases changes; rfl

/-- Entering an empty cell and settling one are all that changes a cell. -/
theorem cell? (changes : event.Changes before after) (scope : ScopeId) (entry : CacheKey) :
    (event = .performed (.enter scope entry) none ∧ before.cell? scope entry = none ∧
        after.cell? scope entry = some .filling) ∨
      (∃ outcome, event = .performed (.settle scope entry outcome) () ∧
        after.cell? scope entry = some (.filled outcome)) ∨
      (after.cell? scope entry = before.cell? scope entry ∧
        event ≠ .performed (.enter scope entry) none ∧
          ∀ outcome, event ≠ .performed (.settle scope entry outcome) ()) := by
  by_cases entered : event = .performed (.enter scope entry) none
  · subst entered
    exact .inl ⟨rfl, Operation.perform_enter_none changes⟩
  by_cases settled : ∃ outcome, event = .performed (.settle scope entry outcome) ()
  · obtain ⟨outcome, rfl⟩ := settled
    exact .inr (.inl ⟨outcome, rfl, Operation.perform_settle changes⟩)
  · have unsettled : ∀ outcome, event ≠ .performed (.settle scope entry outcome) () :=
      fun outcome same => settled ⟨outcome, same⟩
    exact .inr (.inr ⟨changes.cell?_of_other entered unsettled, entered, unsettled⟩)

end Event.Changes

/-- An open scope takes a closer. -/
theorem Operation.perform_attach_true {before after : State U} {scope : ScopeId}
    {closer : PendingCloser U}
    (performs : (Operation.attach scope closer).perform before = some (true, after)) :
    (before.scope scope).closed = false ∧ (after.scope scope).closed = false ∧
      (after.scope scope).closers = (before.scope scope).closers ++ [closer] := by
  cases effect_of_perform performs with
  | attached _ opened =>
      rw [State.scope_setScope_self]
      exact ⟨opened, opened, rfl⟩

/-- A closed scope refuses a closer. -/
theorem Operation.perform_attach_false {before after : State U} {scope : ScopeId}
    {closer : PendingCloser U}
    (performs : (Operation.attach scope closer).perform before = some (false, after)) :
    (before.scope scope).closed = true ∧ after = before := by
  cases effect_of_perform performs with
  | refused _ closed => exact ⟨closed, rfl⟩

/-- Shutting an open scope takes its closers out, newest first. -/
theorem Operation.perform_shut_some {before after : State U} {scope : ScopeId}
    {closers : List (PendingCloser U)}
    (performs : (Operation.shut scope).perform before = some (some closers, after)) :
    closers = (before.scope scope).closers ∧ (before.scope scope).closed = false ∧
      (after.scope scope).closed = true ∧ (after.scope scope).closers = [] := by
  cases effect_of_perform performs with
  | shut opened =>
      rw [State.scope_setScope_self]
      exact ⟨rfl, opened, rfl, rfl⟩

/-- A closed scope cannot be shut again. -/
theorem Operation.perform_shut_none {before after : State U} {scope : ScopeId}
    (performs : (Operation.shut scope).perform before = some (none, after)) :
    (before.scope scope).closed = true ∧ after = before := by
  cases effect_of_perform performs with
  | wasShut closed => exact ⟨closed, rfl⟩

/-- What is put in the place of a scope with the same flag and the same closers changes neither of
any scope. -/
theorem State.closers_setScope_of_closers {state : State U} {scope : ScopeId}
    {next : ScopeState U} (closed : next.closed = (state.scope scope).closed)
    (closers : next.closers = (state.scope scope).closers) (other : ScopeId) :
    ((state.setScope scope next).scope other).closed = (state.scope other).closed ∧
      ((state.setScope scope next).scope other).closers = (state.scope other).closers := by
  rw [State.scope_setScope]
  split
  · next same => exact same ▸ ⟨closed, closers⟩
  · exact ⟨rfl, rfl⟩

/-- A change of a scope that leaves it there or gone changes no other in that. -/
theorem State.dropped_setScope_of_dropped {state : State U} {scope : ScopeId}
    {next : ScopeState U} (same : next.dropped = (state.scope scope).dropped) (other : ScopeId) :
    ((state.setScope scope next).scope other).dropped = (state.scope other).dropped := by
  rw [State.scope_setScope]
  split
  · next here => exact here ▸ same
  · rfl

namespace Event.Changes

variable {event : Event U} {before after : State U}

/-- Events that neither attach closers nor shut a scope leave its closers as they are. -/
theorem closers_of_other (changes : event.Changes before after) {scope : ScopeId}
    (unattached : ∀ closer, event ≠ .performed (.attach scope closer) true)
    (unshut : ∀ closers, event ≠ .performed (.shut scope) (some closers)) :
    (after.scope scope).closed = (before.scope scope).closed ∧
      (after.scope scope).closers = (before.scope scope).closers := by
  cases event with
  | performed operation answer =>
      cases Operation.effect_of_perform changes with
      | @attached other closer _ =>
          have differs : other ≠ scope := by
            rintro rfl
            exact unattached closer rfl
          rw [State.scope_setScope, if_neg differs]
          exact ⟨rfl, rfl⟩
      | @shut other _ =>
          have differs : other ≠ scope := by
            rintro rfl
            exact unshut _ rfl
          rw [State.scope_setScope, if_neg differs]
          exact ⟨rfl, rfl⟩
      | entered _ => apply State.closers_setScope_of_closers <;> rfl
      | settled _ _ _ => apply State.closers_setScope_of_closers <;> rfl
      | discarded _ _ => apply State.closers_setScope_of_closers <;> rfl
      | _ => exact ⟨rfl, rfl⟩
  | _ => cases changes; exact ⟨rfl, rfl⟩

/-- Handing over a closer and closing the scope are all that changes the closers of a scope. -/
theorem closers (changes : event.Changes before after) (scope : ScopeId) :
    (∃ closer, event = .performed (.attach scope closer) true ∧
        (before.scope scope).closed = false ∧ (after.scope scope).closed = false ∧
          (after.scope scope).closers = (before.scope scope).closers ++ [closer]) ∨
      (event = .performed (.shut scope) (some (before.scope scope).closers) ∧
        (before.scope scope).closed = false ∧ (after.scope scope).closed = true ∧
          (after.scope scope).closers = []) ∨
      ((after.scope scope).closed = (before.scope scope).closed ∧
        (after.scope scope).closers = (before.scope scope).closers ∧
          (∀ closer, event ≠ .performed (.attach scope closer) true) ∧
            ∀ closers, event ≠ .performed (.shut scope) (some closers)) := by
  by_cases attached : ∃ closer, event = .performed (.attach scope closer) true
  · obtain ⟨closer, rfl⟩ := attached
    exact .inl ⟨closer, rfl, Operation.perform_attach_true changes⟩
  by_cases shut : ∃ closers, event = .performed (.shut scope) (some closers)
  · obtain ⟨closers, rfl⟩ := shut
    obtain ⟨rfl, empties⟩ := Operation.perform_shut_some changes
    exact .inr (.inl ⟨rfl, empties⟩)
  have unattached := not_exists.mp attached
  have unshut := not_exists.mp shut
  obtain ⟨closed, closers⟩ := changes.closers_of_other unattached unshut
  exact .inr (.inr ⟨closed, closers, unattached, unshut⟩)

/-- Only closing a scope marks it closed. -/
theorem closed_of_ne_shut (changes : event.Changes before after) {scope : ScopeId}
    (unshut : ∀ answer, event ≠ .performed (.shut scope) answer) :
    (after.scope scope).closed = (before.scope scope).closed := by
  rcases changes.closers scope with ⟨_, _, opened, still, _⟩ | ⟨shut, _⟩ | ⟨same, _⟩
  · rw [opened, still]
  · exact absurd shut (unshut _)
  · exact same

/-- Only new scopes are counted. -/
theorem nextScope_of_other (changes : event.Changes before after)
    (unmade : ∀ id, event ≠ .performed .newScope id) : after.nextScope = before.nextScope := by
  cases event with
  | performed operation answer =>
      cases Operation.effect_of_perform changes with
      | newScope => exact absurd rfl (unmade _)
      | _ => rfl
  | _ => cases changes; rfl

/-- Only letting go of a scope makes it gone. -/
theorem dropped_of_other (changes : event.Changes before after) {scope : ScopeId}
    (undiscarded : ∀ pending, event ≠ .performed (.discard scope) pending) :
    (after.scope scope).dropped = (before.scope scope).dropped := by
  cases event with
  | performed operation answer =>
      cases Operation.effect_of_perform changes with
      | discarded other pending =>
          have differs : other ≠ scope := by
            rintro rfl
            exact undiscarded _ rfl
          rw [State.scope_setScope, if_neg differs]
      | entered _ => apply State.dropped_setScope_of_dropped; rfl
      | settled _ _ _ => apply State.dropped_setScope_of_dropped; rfl
      | attached _ _ => apply State.dropped_setScope_of_dropped; rfl
      | shut _ => apply State.dropped_setScope_of_dropped; rfl
      | _ => rfl
  | _ => cases changes; rfl

/-- A scope is gone once somebody let go of it, and only then. -/
theorem dropped (changes : event.Changes before after) (scope : ScopeId) :
    (after.scope scope).dropped = true ↔ (before.scope scope).dropped = true ∨
      ∃ pending, event = .performed (.discard scope) pending := by
  by_cases discarded : ∃ pending, event = .performed (.discard scope) pending
  · obtain ⟨pending, rfl⟩ := discarded
    cases Operation.effect_of_perform changes
    rw [State.scope_setScope_self]
    exact iff_of_true rfl (.inr ⟨pending, rfl⟩)
  · rw [changes.dropped_of_other (not_exists.mp discarded), or_iff_left discarded]

/-- Scopes are numbered one after another, and nothing else counts them. -/
theorem nextScope (changes : event.Changes before after) :
    (event = .performed .newScope ⟨before.nextScope⟩ ∧
        after.nextScope = before.nextScope + 1) ∨
      (after.nextScope = before.nextScope ∧ ∀ id, event ≠ .performed .newScope id) := by
  by_cases made : ∃ id, event = .performed .newScope id
  · obtain ⟨id, rfl⟩ := made
    cases changes
    exact .inl ⟨rfl, rfl⟩
  · have unmade := not_exists.mp made
    exact .inr ⟨changes.nextScope_of_other unmade, unmade⟩

end Event.Changes

end Provision
