import Provision.Notice
import Provision.State

/-!
# Programs over a tree of scopes

A request to a container is a program.  It acts on the shared state by operations, each of which
happens at once, and it calls functions of the client.  What the program does next depends
on the answers.  The same program can be run alone from start to end, or one operation at a
time among others.

`Operation.perform` says what an operation does to the state, `Behaviour` what the functions of
a client do, and `Program.run` what a program comes to under both when it runs alone.  A run
without a result is one that never returns.
-/

namespace Provision

/-- What happens at once on the state of a tree of scopes. -/
inductive Operation (U : Client) where
  /-- Look whether a context is done. -/
  | contextError (context : ContextId)
  /-- Look whether a scope is closed. -/
  | isClosed (scope : ScopeId)
  /-- Look whether a scope is gone. -/
  | isDropped (scope : ScopeId)
  /-- Look at what a scope keeps, without waiting. -/
  | peek (scope : ScopeId) (entry : CacheKey)
  /-- Ask for what a scope keeps, ready to fill the cell oneself; waits while another fills it. -/
  | enter (scope : ScopeId) (entry : CacheKey)
  /-- Fill a cell that was entered. -/
  | settle (scope : ScopeId) (entry : CacheKey) (outcome : Outcome U)
  /-- Promise to run a closer, unless the scope is closed. -/
  | attach (scope : ScopeId) (closer : PendingCloser U)
  /-- Close a scope and take its closers, unless it is closed. -/
  | shut (scope : ScopeId)
  /-- Forget a scope that nobody holds. -/
  | discard (scope : ScopeId)
  /-- Number a new scope. -/
  | newScope
  /-- Number a new flag, not raised. -/
  | newFlag
  /-- Raise a flag. -/
  | raise (flag : FlagId)
  /-- Look whether a flag is raised. -/
  | isRaised (flag : FlagId)

/-- What an operation answers. -/
def Operation.Answer {U : Client} : Operation U → Type
  | contextError _ => Option ContextError
  | isClosed _ => Bool
  | isDropped _ => Bool
  | peek _ _ => Option (Outcome U)
  | enter _ _ => Option (Outcome U)
  | settle _ _ _ => Unit
  | attach _ _ => Bool
  | shut _ => Option (List (PendingCloser U))
  | discard _ => Nat
  | newScope => ScopeId
  | newFlag => FlagId
  | raise _ => Unit
  | isRaised _ => Bool

/-- What a function of the client is called for: the recipe, and the scope that the result
belongs to. -/
structure Site (U : Client) where
  scope : ScopeId
  recipe : Recipe U

/-- A call of a function of the client, or a notice to it.  Conversions and decorations also tell
the key that the service was registered under. -/
inductive Call (U : Client) where
  | construct (site : Site U) (make : U.Constructor) (arguments : List (Argument U))
  | decorate (site : Site U) (key : Key) (transform : U.Transform) (target : Content U)
      (arguments : List (Argument U))
  | convert (site : Site U) (key : Key) (cast : U.Cast) (content : Content U)
  | close (site : Site U) (closer : U.Closer) (subject : Content U) (context : ContextId)
  | enact (routine : U.Routine) (arguments : List (Argument U))
  /-- Does a parameter take the value that was resolved for it? -/
  | accepts (value : Value U)
  | report (notice : Notice)

/-- What a call answers.  Conversions and notices cannot fail; closers and routines only tell
whether they failed. -/
def Call.Answer {U : Client} : Call U → Type
  | construct _ _ _ => Except UserError (Content U)
  | decorate _ _ _ _ _ => Except UserError (Content U)
  | convert _ _ _ _ => Content U
  | close _ _ _ _ => Option UserError
  | enact _ _ => Option UserError
  | accepts _ => Bool
  | report _ => Unit

/-- The call that runs a pending closer of a scope. -/
def PendingCloser.call {U : Client} (closer : PendingCloser U) (scope : ScopeId)
    (context : ContextId) : Call U :=
  .close { scope, recipe := closer.recipe } closer.close closer.subject context

/-- A program: it is done, performs an operation, calls the client, or never returns. -/
inductive Program (U : Client) (α : Type) : Type where
  | done (result : α)
  | perform (operation : Operation U) (next : operation.Answer → Program U α)
  | ask (call : Call U) (next : call.Answer → Program U α)
  | never

namespace Program

variable {U : Client} {α β γ : Type}

/-- Continue with what a program comes to. -/
def andThen : Program U α → (α → Program U β) → Program U β
  | done result, next => next result
  | perform operation after, next => perform operation fun answer => (after answer).andThen next
  | ask call after, next => ask call fun answer => (after answer).andThen next
  | never, _ => never

instance : Monad (Program U) where
  pure := done
  bind := andThen

/-- Perform one operation. -/
def act (operation : Operation U) : Program U operation.Answer :=
  perform operation done

/-- Call the client once. -/
def callClient (call : Call U) : Program U call.Answer :=
  ask call done

@[simp] theorem pure_eq_done (result : α) : (pure result : Program U α) = done result := rfl

@[simp] theorem bind_eq_andThen (program : Program U α) (next : α → Program U β) :
    program >>= next = program.andThen next := rfl

/-- A program that just comes to its result adds nothing. -/
@[simp] theorem andThen_done (program : Program U α) : program.andThen done = program := by
  induction program with
  | done => rfl
  | perform operation after ih => exact congrArg _ (funext ih)
  | ask call after ih => exact congrArg _ (funext ih)
  | never => rfl

/-- To go on twice is to go on with both. -/
theorem andThen_assoc (program : Program U α) (next : α → Program U β)
    (last : β → Program U γ) :
    (program.andThen next).andThen last = program.andThen fun a => (next a).andThen last := by
  induction program with
  | done => rfl
  | perform operation after ih => exact congrArg _ (funext ih)
  | ask call after ih => exact congrArg _ (funext ih)
  | never => rfl

instance : LawfulMonad (Program U) :=
  LawfulMonad.mk' (Program U) andThen_done (fun _ _ => rfl) andThen_assoc

end Program

/-- A program that may fail. -/
abbrev Request (U : Client) (α : Type) : Type :=
  ExceptT Error (Program U) α

/-- The state of the scopes beside whatever the client remembers. -/
structure World (U : Client) (σ : Type) where
  state : State U
  memory : σ

variable {U : Client} {σ α β : Type}

namespace Operation

/-- Fill the cell of an entry. -/
def fillCell (scope : ScopeState U) (entry : CacheKey) (cell : Cell U) : ScopeState U :=
  { scope with cells := scope.cells.put entry cell }

/-- What an operation answers and what becomes of the state.  Only entering a cell that is being
filled has to wait and yields nothing. -/
def perform : (operation : Operation U) → State U → Option (operation.Answer × State U)
  | contextError context, state => some (state.contexts.error? context, state)
  | isClosed scope, state => some ((state.scope scope).closed, state)
  | isDropped scope, state => some ((state.scope scope).dropped, state)
  | peek scope entry, state => some (state.kept? scope entry, state)
  | enter scope entry, state =>
      match (state.scope scope).cells.get? entry with
      | some (.filled outcome) => some (some outcome, state)
      | some .filling => none
      | none =>
          some (none, state.setScope scope (fillCell (state.scope scope) entry .filling))
  | settle scope entry outcome, state =>
      some ((), state.setScope scope (fillCell (state.scope scope) entry (.filled outcome)))
  | attach scope closer, state =>
      let before := state.scope scope
      if before.closed then
        some (false, state)
      else
        some (true, state.setScope scope { before with closers := before.closers ++ [closer] })
  | shut scope, state =>
      let before := state.scope scope
      if before.closed then
        some (none, state)
      else
        some (some before.closers,
          state.setScope scope { before with closed := true, closers := [] })
  | discard scope, state =>
      let before := state.scope scope
      let pending : Nat := if before.closed then 0 else before.closers.length
      some (pending, state.setScope scope { before with dropped := true })
  | newScope, state => some (⟨state.nextScope⟩, { state with nextScope := state.nextScope + 1 })
  | newFlag, state => some (⟨state.nextFlag⟩, { state with nextFlag := state.nextFlag + 1 })
  | raise flag, state => some ((), { state with raised := flag :: state.raised })
  | isRaised flag, state => some (state.isRaised flag, state)

end Operation

/-- What the functions of a client do: to each call an answer, after changes to what the client
remembers and, where a function uses containers or contexts itself, to their state.  A call
without an answer never returns. -/
abbrev Behaviour (U : Client) (σ : Type) : Type :=
  (call : Call U) → World U σ → Option (call.Answer × World U σ)

namespace Program

/-- Run a program alone, from start to end. -/
def run (behaviour : Behaviour U σ) : Program U α → World U σ → Option (α × World U σ)
  | done result, world => some (result, world)
  | perform operation next, world =>
      match operation.perform world.state with
      | some (answer, state) => (next answer).run behaviour { world with state }
      | none => none
  | ask call next, world =>
      match behaviour call world with
      | some (answer, world) => (next answer).run behaviour world
      | none => none
  | never, _ => none

/-- Running one program after another is running the second where the first ends. -/
theorem run_andThen (behaviour : Behaviour U σ) (program : Program U α)
    (next : α → Program U β) (world : World U σ) :
    (program.andThen next).run behaviour world =
      (program.run behaviour world).bind fun reached =>
        (next reached.1).run behaviour reached.2 := by
  induction program generalizing world with
  | done => rfl
  | perform operation after ih =>
      simp only [andThen, run]
      cases operation.perform world.state with
      | none => rfl
      | some reached => exact ih reached.1 _
  | ask call after ih =>
      simp only [andThen, run]
      cases behaviour call world with
      | none => rfl
      | some reached => exact ih reached.1 _
  | never => rfl

/-- A run that starts with an operation goes on with what the operation answered. -/
theorem run_perform_eq_some {behaviour : Behaviour U σ} {operation : Operation U}
    {next : operation.Answer → Program U α} {world : World U σ} {reached : α × World U σ} :
    (perform operation next).run behaviour world = some reached ↔
      ∃ answer state, operation.perform world.state = some (answer, state) ∧
        (next answer).run behaviour { world with state } = some reached := by
  simp only [run]
  constructor
  · intro runs
    split at runs
    · next answer state performs => exact ⟨answer, state, performs, runs⟩
    · cases runs
  · rintro ⟨answer, state, performs, runs⟩
    rwa [performs]

/-- A run that starts with a call goes on with what the call answered. -/
theorem run_ask_eq_some {behaviour : Behaviour U σ} {call : Call U}
    {next : call.Answer → Program U α} {world : World U σ} {reached : α × World U σ} :
    (ask call next).run behaviour world = some reached ↔
      ∃ answer between, behaviour call world = some (answer, between) ∧
        (next answer).run behaviour between = some reached := by
  simp only [run]
  constructor
  · intro runs
    split at runs
    · next answer between answers => exact ⟨answer, between, answers, runs⟩
    · cases runs
  · rintro ⟨answer, between, answers, runs⟩
    rwa [answers]

/-- One step of a program: an operation or a call, and what is left to do.  A program that is
done, or has to wait, takes no step. -/
def step (behaviour : Behaviour U σ) :
    Program U α → World U σ → Option (Program U α × World U σ)
  | done _, _ => none
  | perform operation next, world =>
      (operation.perform world.state).map fun reached =>
        (next reached.1, { world with state := reached.2 })
  | ask call next, world =>
      (behaviour call world).map fun reached => (next reached.1, reached.2)
  | never, _ => none

end Program

end Provision
