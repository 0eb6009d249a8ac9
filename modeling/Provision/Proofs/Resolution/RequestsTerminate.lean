import Provision.Proofs.Execution.RunningAlone
import Provision.Proofs.Resolution.NestingDepth
import Provision.Proofs.Resolution.DemandPrograms

/-!
# Requests that end

A request ends after finitely many operations and calls, whatever these answer, and it holds at
most one cell at a time: it settles a cell that it entered before it enters another, and before it
ends.  Alone it therefore returns if the functions of the client do and nothing was being filled.

Main statements: `Scope.Built.resolve_terminates`, `Demand.terminates` and
`Program.Terminates.returns`.
-/

namespace Provision

variable {U : Client} {σ α β : Type}

/-- The cell that a program entered and has yet to settle, if there is one. -/
abbrev Held : Type := Option (ScopeId × CacheKey)

/-- When an operation may be performed: a cell is entered only if none is held, and only the cell
that is held is settled. -/
def Operation.InTurn (held : Held) : Operation U → Prop
  | enter _ _ => held = none
  | settle scope cell _ => held = some (scope, cell)
  | _ => True

/-- The cell that is held after an operation. -/
def Operation.holding (held : Held) : (operation : Operation U) → operation.Answer → Held
  | enter scope cell, none => some (scope, cell)
  | settle _ _ _, _ => none
  | _, _ => held

/-- Whatever operations and functions answer, a program is done after finitely many of them, with
all cells settled that it entered, one at a time. -/
def Program.Terminates : Program U α → Held → Prop
  | .done _, held => held = none
  | .perform operation next, held =>
      operation.InTurn held ∧
        ∀ answer, (next answer).Terminates (operation.holding held answer)
  | .ask _ next, held => ∀ answer, (next answer).Terminates held
  | .never, _ => False

/-- What holds of a program for a request without a cell. -/
abbrev Request.Terminates (request : Request U α) : Prop :=
  Program.Terminates request.run none

/-- An event that neither enters nor settles a cell. -/
def Event.Cellless : Event U → Prop
  | .performed (.enter _ _) _ => False
  | .performed (.settle _ _ _) _ => False
  | _ => True

/-- Making a value touches no cell but through keeping it. -/
theorem Event.Making.cellless {event : Event U} (making : event.Making) : event.Cellless := by
  cases event with
  | performed operation answer => cases operation <;> first | exact trivial | exact making.elim
  | _ => trivial

/-- Requests that do not resolve touch no cells. -/
theorem Event.Tending.cellless {event : Event U} (tending : event.Tending) : event.Cellless := by
  cases event with
  | performed operation answer => cases operation <;> first | exact trivial | exact tending.elim
  | _ => trivial

theorem Event.Idle.cellless {event : Event U} (idle : event.Idle) : event.Cellless :=
  idle.making.cellless

/-! ## Composing requests that end -/

namespace Program

variable {program : Program U α} {next : α → Program U β} {held : Held}

/-- One program after another ends if both do. -/
theorem Terminates.andThen (first : program.Terminates held)
    (rest : ∀ result, (next result).Terminates none) : (program.andThen next).Terminates held := by
  induction program generalizing held with
  | done result =>
      obtain rfl : held = none := first
      exact rest result
  | perform operation after ih => exact ⟨first.1, fun answer => ih answer (first.2 answer)⟩
  | ask call after ih => exact fun answer => ih answer (first answer)
  | never => exact first.elim

variable {own : Event U → Prop} {yields : α → Prop}

/-- A program that has nothing to do with cells leaves the cell that is held to what follows. -/
theorem Only.terminates_andThen (only : program.Only own yields)
    (cellless : ∀ event, own event → event.Cellless)
    (rest : ∀ result, (next result).Terminates held) :
    (program.andThen next).Terminates held := by
  induction program with
  | done result => exact rest result
  | perform operation after ih =>
      have goesOn (answer : operation.Answer) := ih answer (only answer).2
      cases operation with
      | enter scope cell => exact (cellless _ (only none).1).elim
      | settle scope cell outcome => exact (cellless _ (only ()).1).elim
      | _ => exact ⟨trivial, goesOn⟩
  | ask call after ih => exact fun answer => ih answer (only.2 answer).2
  | never => exact only.elim

/-- A program that touches no cells ends. -/
theorem Only.terminates (only : program.Only own yields)
    (cellless : ∀ event, own event → event.Cellless) : program.Terminates none := by
  rw [← andThen_done program]
  exact only.terminates_andThen cellless fun _ => rfl

end Program

namespace Request

variable {request : Request U α} {next : α → Request U β}

theorem terminates_pure (value : α) : (pure value : Request U α).Terminates := rfl

theorem terminates_fail (error : Error) : (fail error : Request U α).Terminates := rfl

theorem terminates_ofExcept (outcome : Except Error α) :
    (ofExcept outcome : Request U α).Terminates := rfl

/-- One request after another ends if both do. -/
theorem Terminates.bind (first : request.Terminates) (rest : ∀ value, (next value).Terminates) :
    (request >>= next).Terminates := by
  apply Program.Terminates.andThen first
  intro outcome
  cases outcome with
  | ok value => exact rest value
  | error error => rfl

/-- A request ends with its errors handled if the handlers end. -/
theorem Terminates.tryCatch {handle : Error → Request U α} (first : request.Terminates)
    (handles : ∀ error, (handle error).Terminates) : (tryCatch request handle).Terminates := by
  apply Program.Terminates.andThen first
  intro outcome
  cases outcome with
  | ok value => rfl
  | error error => exact handles error

/-- A request that touches no cells ends. -/
theorem Terminates.ofOnly {own : Event U → Prop} {yields : Except Error α → Prop}
    (only : request.Only own yields) (cellless : ∀ event, own event → event.Cellless) :
    request.Terminates :=
  Program.Only.terminates only cellless

/-- A program that has nothing to do with cells, and then a request. -/
theorem terminates_bind_lift {own : Event U → Prop} {yields : α → Prop} {program : Program U α}
    {held : Held} (only : program.Only own yields) (cellless : ∀ event, own event → event.Cellless)
    (rest : ∀ result, (next result).run.Terminates held) :
    (ExceptT.lift program >>= next : Request U β).run.Terminates held := by
  have lifts : (ExceptT.lift program >>= next : Request U β).run =
      program.andThen fun result => (next result).run :=
    Program.andThen_assoc ..
  rw [lifts]
  exact only.terminates_andThen cellless rest

/-- A cell is settled once its value is made, whatever that comes to. -/
theorem terminates_keepIf (kept : Bool) (scope : ScopeId) (cell : CacheKey)
    {create : Request U (Value U)} {yields : Outcome U → Prop}
    (making : create.Only Event.Making yields) : (keepIf kept scope cell create).Terminates := by
  cases kept with
  | false => exact .ofOnly making fun _ => Event.Making.cellless
  | true =>
      refine ⟨rfl, fun found => ?_⟩
      cases found with
      | some outcome => rfl
      | none =>
          apply terminates_bind_lift making fun _ => Event.Making.cellless
          exact fun outcome => ⟨rfl, fun _ => rfl⟩

end Request

open Request

/-- Making and keeping a value ends. -/
theorem terminates_produceFrom (home : Scope U) (context : ContextId) (key : Key)
    (binding : Binding U) (inputs : Inputs U) :
    (produceFrom home context key binding inputs).Terminates := by
  have makes := terminates_keepIf binding.recipe.lifetime.isKept home.id (.made binding.recipe.id)
    (only_construct home.id context binding.recipe inputs.arguments inputs.flag
      binding.cast.isSome)
  apply makes.bind
  intro made
  exact terminates_keepIf _ _ _ (only_finish home.id context key binding inputs.stages made)

/-! ## Requests for keys -/

/-- All requests that a resolver makes end. -/
def Resolver.Terminates (resolver : Resolver U) : Prop :=
  ∀ scope context key active, (resolver scope context key active).Terminates

namespace Resolver.Terminates

variable {resolver : Resolver U} (terminates : resolver.Terminates)

include terminates

/-- Resolving a parameter ends. -/
theorem argument (scope : Scope U) (context : ContextId) (active : List Key) (flag : FlagId)
    (param : Param) : (resolver.argument scope context active flag param).Terminates := by
  cases param with
  | context => exact terminates_pure _
  | scope => exact terminates_pure _
  | service key => exact (terminates scope context key active).bind fun _ => terminates_pure _

/-- Resolving parameters ends. -/
theorem arguments (scope : Scope U) (context : ContextId) (service : Key) (active : List Key)
    (flag : FlagId) (params : List Param) :
    (resolver.arguments scope context service active flag params).Terminates := by
  induction params with
  | nil => exact terminates_pure _
  | cons param params ih =>
      have first := terminates.argument scope context active flag param
      have wrapped : (wrapDependency service param
          (resolver.argument scope context active flag param)).Terminates := by
        cases param with
        | context => exact first
        | scope => exact first
        | service key => exact first.tryCatch fun _ => terminates_fail _
      exact wrapped.bind fun _ => ih.bind fun _ => terminates_pure _

/-- Resolving what decorators need ends. -/
theorem stages (scope : Scope U) (context : ContextId) (service : Key) (active : List Key)
    (decorators : List (Decorator U)) :
    (resolver.stages scope context service active decorators).Terminates := by
  induction decorators with
  | nil => exact terminates_pure _
  | cons decorator decorators ih =>
      refine ⟨trivial, fun flag => ?_⟩
      have first := terminates.arguments scope context service active flag decorator.params
      exact first.bind fun _ => ih.bind fun _ => terminates_pure _

omit terminates in

/-- Looking whether an instance is made ends. -/
theorem isMade (scope : ScopeId) (recipe : Recipe U) : (isMade scope recipe).Terminates := by
  unfold Provision.isMade
  split
  · exact ⟨trivial, fun _ => rfl⟩
  · exact terminates_pure _

/-- Resolving what a service needs ends. -/
theorem inputs (scope : Scope U) (context : ContextId) (key : Key) (binding : Binding U)
    (active : List Key) :
    (resolver.inputs scope context key binding active).Terminates := by
  refine ⟨trivial, fun flag => ?_⟩
  have arguments := terminates.arguments scope context key active flag binding.recipe.params
  have stages := terminates.stages scope context key active
    (scope.registry.decoratorsOf binding.registered)
  apply (isMade scope.id binding.recipe).bind
  intro made
  cases made with
  | true => exact stages.bind fun _ => terminates_pure _
  | false => exact arguments.bind fun _ => stages.bind fun _ => terminates_pure _

/-- Creating a value ends. -/
theorem create (scope : Scope U) (context : ContextId) (key : Key) (binding : Binding U)
    (active : List Key) :
    (resolver.create scope context key binding active).Terminates := by
  rw [Resolver.create_eq]
  apply (terminates.inputs scope context key binding (active ++ [key])).bind
  exact fun inputs => terminates_produceFrom scope context key binding inputs

/-- Resolving a value in its home ends. -/
theorem resolveIn (scope : Scope U) (context : ContextId) (key : Key) (binding : Binding U)
    (active : List Key) :
    (resolver.resolveIn scope context key binding active).Terminates := by
  have recalls : (recallShown scope.id binding).Terminates := by
    by_cases kept : binding.recipe.lifetime.isKept = true
    · have looks : recallShown scope.id binding =
          act (.peek scope.id (.shown binding.recipe.id binding.registered)) := if_pos kept
      rw [looks]
      exact ⟨trivial, fun _ => rfl⟩
    · have skips : recallShown scope.id binding = pure none := if_neg kept
      rw [skips]
      exact terminates_pure none
  apply recalls.bind
  intro shown
  cases shown with
  | some outcome => exact fun _ => terminates_ofExcept outcome
  | none =>
      by_cases isActive : key ∈ active
      · simp only [isActive, if_true]
        exact terminates_fail _
      · simp only [isActive, if_false]
        exact terminates.create scope context key binding active

/-- One request around requests that end. -/
theorem resolve : resolver.resolve.Terminates := by
  intro scope context key active
  have usable : (ensureUsable context : Request U Unit).Terminates :=
    .ofOnly (only_ensureUsable context) fun _ => Event.Idle.cellless
  have opened : (ensureOpen scope.id : Request U Unit).Terminates :=
    .ofOnly (only_ensureOpen scope.id) fun _ => Event.Idle.cellless
  apply usable.bind
  intro _
  apply opened.bind
  intro _
  cases scope.registry.find? key with
  | none => exact terminates_fail _
  | some binding =>
      have effective : (effectiveScope scope key binding).Terminates :=
        .ofOnly (only_effectiveScope scope key binding) fun _ => Event.Idle.cellless
      have goesOn := effective.bind fun home => terminates.resolveIn home context key binding active
      cases source : binding.recipe.source with
      | value content =>
          simp only [source]
          exact .ofOnly (only_convert binding scope.id key _) fun _ serving =>
            serving.making.cellless
      | factory make => simpa only [source] using goesOn
      | list item => simpa only [source] using goesOn

/-- Resolution ends at every depth. -/
theorem iterate (depth : Nat) : (Resolver.resolve^[depth] resolver).Terminates := by
  induction depth with
  | zero => exact terminates
  | succ depth ih =>
      rw [Function.iterate_succ_apply']
      exact ih.resolve

end Resolver.Terminates

/-- A request for a key ends, whatever operations and functions answer. -/
theorem Scope.Built.resolve_terminates {scope : Scope U} (built : scope.Built)
    (context : ContextId) (key : Key) : (resolve scope context key).Terminates := by
  have refuses : Resolver.Terminates fun (_ : Scope U) _ _ _ => Request.fail .closed :=
    fun _ _ _ _ => rfl
  rw [← built.nested_eq context key fun _ _ _ _ => Request.fail .closed]
  exact refuses.iterate _ scope context key []

/-! ## Demands -/

namespace Scope.Built

variable {scope : Scope U} (built : scope.Built)

include built

/-- A typed request for a key ends. -/
theorem resolveTyped_terminates (context : ContextId) (key : Key) :
    (scope.resolveTyped context key).Terminates := by
  apply (built.resolve_terminates context key).bind
  intro value
  split
  · exact terminates_pure value
  · exact terminates_fail _

/-- Resolving the arguments of a routine ends. -/
theorem inject_terminates (context : ContextId) (flag : FlagId) (params : List Param) :
    (scope.inject context flag params).Terminates := by
  induction params with
  | nil => exact terminates_pure _
  | cons param params ih =>
      have rest (first : Argument U) : (do
          let rest ← scope.inject context flag params
          pure (first :: rest) : Request U (List (Argument U))).Terminates :=
        ih.bind fun _ => terminates_pure _
      cases param with
      | context => exact rest _
      | scope => exact rest _
      | service key =>
          apply Terminates.bind _ rest
          exact (built.resolve_terminates context key).bind fun _ => terminates_pure _

/-- Invoking a routine ends, up to its call. -/
theorem invocation_terminates (context : ContextId) (params : List Param) :
    (scope.invocation context params).Terminates := by
  have usable : (ensureUsable context : Request U Unit).Terminates :=
    .ofOnly (only_ensureUsable context) fun _ => Event.Idle.cellless
  have opened : (ensureOpen scope.id : Request U Unit).Terminates :=
    .ofOnly (only_ensureOpen scope.id) fun _ => Event.Idle.cellless
  apply usable.bind
  intro _
  apply opened.bind
  intro _
  refine ⟨trivial, fun flag => ⟨trivial, fun _ => ?_⟩⟩
  apply (built.inject_terminates context flag params).bind
  intro arguments
  have taken : (takeAll params arguments).Terminates :=
    .ofOnly (only_takeAll params arguments) fun _ taking => taking.idle.cellless
  exact taken.bind fun _ => terminates_pure arguments

end Scope.Built

/-- Looking at the flag of a handle ends. -/
theorem Handle.ensureReady_terminates (handle : Handle U) (key : Key) :
    (handle.ensureReady key).Terminates :=
  .ofOnly (Upkeep.only_ensureReady handle key) fun _ => Event.Idle.cellless

/-- Whatever a client may ask of containers ends. -/
theorem Demand.terminates {demand : Demand U} (built : ∀ scope ∈ demand.scopes, scope.Built) :
    demand.request.Terminates := by
  by_cases resolves : demand.Resolves
  · cases demand with
    | build parent registrations => exact resolves.elim
    | close scope context => exact resolves.elim
    | discard scope => exact resolves.elim
    | resolve scope context key =>
        have here := built scope List.mem_cons_self
        exact (here.resolve_terminates context key).bind fun _ => terminates_pure _
    | resolveTyped scope context key =>
        have here := built scope List.mem_cons_self
        exact (here.resolveTyped_terminates context key).bind fun _ => terminates_pure _
    | resolveThrough handle context key =>
        have here := built handle.scope List.mem_cons_self
        have resolved := (handle.ensureReady_terminates key).bind fun _ =>
          here.resolve_terminates context key
        exact resolved.bind fun _ => terminates_pure _
    | resolveTypedThrough handle context key =>
        have here := built handle.scope List.mem_cons_self
        have resolved := (handle.ensureReady_terminates key).bind fun _ =>
          here.resolveTyped_terminates context key
        exact resolved.bind fun _ => terminates_pure _
    | invoke scope context params routine =>
        have here := built scope List.mem_cons_self
        have calls (arguments : List (Argument U)) : Request.Terminates
            (ExceptT.lift (Program.callClient (.enact routine arguments)) :
              Request U (Option UserError)) := fun _ => rfl
        have invoked := (here.invocation_terminates context params).bind calls
        exact invoked.bind fun _ => terminates_pure _
  · exact .ofOnly (Demand.only_tending resolves) fun _ => Event.Tending.cellless

/-! ## Running alone -/

/-- Every call of a function returns. -/
def Behaviour.Returns (behaviour : Behaviour U σ) : Prop :=
  ∀ call world, ∃ answer after, behaviour call world = some (answer, after)

namespace Operation

variable {operation : Operation U} {answer : operation.Answer} {held : Held} {scope : ScopeId}
  {cell : CacheKey}

/-- A cell that is held stays held until it is settled. -/
theorem holding_of_unsettled (inTurn : operation.InTurn (some (scope, cell)))
    (unsettled : ∀ outcome, operation ≠ .settle scope cell outcome) :
    operation.holding (some (scope, cell)) answer = some (scope, cell) := by
  cases operation with
  | enter other wanted => cases inTurn
  | settle other wanted outcome =>
      cases inTurn
      exact absurd rfl (unsettled outcome)
  | _ => rfl

/-- A cell that is being filled after an operation is the one that is held then. -/
theorem holding_of_filling {before after : State U}
    (performs : operation.perform before = some (answer, after)) (inTurn : operation.InTurn held)
    (owns : ∀ {scope cell}, before.cell? scope cell = some .filling → held = some (scope, cell))
    (filling : after.cell? scope cell = some .filling) :
    operation.holding held answer = some (scope, cell) := by
  have changes : (Event.performed operation answer).Changes before after := performs
  rcases changes.cell? scope cell with ⟨enters, _⟩ | ⟨outcome, _, filled⟩ | ⟨same, _, unsettled⟩
  · cases enters
    rfl
  · rw [filled] at filling
    cases filling
  · obtain rfl := owns (same.symm.trans filling)
    apply holding_of_unsettled inTurn
    rintro outcome rfl
    exact unsettled outcome rfl

/-- An operation is performed unless it would enter a cell that is being filled. -/
theorem exists_perform {state : State U}
    (ready : ∀ scope cell, operation = .enter scope cell →
      state.cell? scope cell ≠ some .filling) :
    ∃ answer next, operation.perform state = some (answer, next) := by
  cases operation with
  | enter scope cell =>
      cases content : state.cell? scope cell with
      | none =>
          have found : (state.scope scope).cells.get? cell = none := content
          exact ⟨none, _, by rw [perform, found]⟩
      | some content' =>
          cases content' with
          | filling => exact absurd content (ready scope cell rfl)
          | filled outcome =>
              have found : (state.scope scope).cells.get? cell = some (.filled outcome) := content
              exact ⟨some outcome, _, by rw [perform, found]⟩
  | attach scope closer => simp only [perform]; split <;> exact ⟨_, _, rfl⟩
  | shut scope => simp only [perform]; split <;> exact ⟨_, _, rfl⟩
  | _ => exact ⟨_, _, rfl⟩

end Operation

/-- Alone, a program that terminates returns, and leaves no cell being filled, if there was none
but the one that it holds. -/
theorem Program.Terminates.returns {behaviour : Behaviour U σ} {program : Program U α}
    {held : Held} (terminates : program.Terminates held) (returns : behaviour.Returns)
    (detached : behaviour.Detached) {world : World U σ}
    (owns : ∀ {scope cell}, world.state.cell? scope cell = some .filling →
      held = some (scope, cell)) :
    ∃ result last, program.run behaviour world = some (result, last) ∧
      ∀ scope cell, last.state.cell? scope cell ≠ some .filling := by
  induction program generalizing held world with
  | done result =>
      obtain rfl : held = none := terminates
      exact ⟨result, world, rfl, fun scope cell filling => nomatch owns filling⟩
  | perform operation next ih =>
      obtain ⟨inTurn, rest⟩ := terminates
      have ready : ∀ scope cell, operation = .enter scope cell →
          world.state.cell? scope cell ≠ some .filling := by
        rintro scope cell rfl filling
        obtain rfl : held = none := inTurn
        cases owns filling
      obtain ⟨answer, state, performs⟩ := Operation.exists_perform ready
      let after : World U σ := { world with state }
      have owns' : ∀ {scope cell}, after.state.cell? scope cell = some .filling →
          operation.holding held answer = some (scope, cell) :=
        Operation.holding_of_filling performs inTurn owns
      obtain ⟨result, last, runs, quiet⟩ := ih answer (rest answer) owns'
      exact ⟨result, last, by rw [run, performs]; exact runs, quiet⟩
  | ask call next ih =>
      obtain ⟨answer, after, answers⟩ := returns call world
      obtain ⟨contexts, same⟩ := detached call world answer after answers
      have owns' : ∀ {scope cell}, after.state.cell? scope cell = some .filling →
          held = some (scope, cell) := by
        intro scope cell filling
        rw [same] at filling
        exact owns filling
      obtain ⟨result, last, runs, quiet⟩ := ih answer (terminates answer) owns'
      exact ⟨result, last, by rw [run, answers]; exact runs, quiet⟩
  | never => exact terminates.elim

end Provision
