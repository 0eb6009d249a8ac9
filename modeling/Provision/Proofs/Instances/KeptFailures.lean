import Provision.Proofs.Execution.RequestTraces
import Provision.Proofs.Instances.FailureReplay

/-!
# Failures that are kept

A cell keeps what making a value came to, be it a value or an error.  The dependencies of a service
are resolved before any cell of it is entered, so what a cell keeps is never the failure of a
dependency, only a failure of creation itself: a function of the client failed, a value had the
wrong type, the context was done or the scope closed.

Main statement: `creation_failures_kept`.  Its part on single requests for keys holds however the
dependencies are resolved, and `Resolver.does_resolve` shows it along the text of resolution.
-/

namespace Provision

open Moment

variable {U : Client}

/-! ## What is kept -/

/-- A request is told the outcome in a cell. -/
inductive Event.Recalls : Event U → Outcome U → Prop where
  | peeked (scope : ScopeId) (cell : CacheKey) (outcome : Outcome U) :
      Recalls (.performed (.peek scope cell) (some outcome)) outcome
  | entered (scope : ScopeId) (cell : CacheKey) (outcome : Outcome U) :
      Recalls (.performed (.enter scope cell) (some outcome)) outcome

/-- If a cell is filled, then with a value or a failure of creation itself. -/
def Event.KeepsCreation : Event U → Prop
  | .performed (.settle _ _ outcome) _ => Creates outcome
  | _ => True

/-- Only values and failures of creation itself are kept. -/
def Conduct.creating : Conduct U := fun _ entry => entry.event.KeepsCreation

/-- Events that are aside keep no failure but of creation. -/
theorem Event.Aside.keepsCreation {event : Event U} (aside : event.Aside) :
    event.KeepsCreation := by
  cases event with
  | performed operation answer => cases operation <;> first | exact trivial | exact aside.elim
  | _ => exact trivial

/-- Keeping what can only fail as a creation keeps only such failures. -/
theorem only_keepIf_creation {kept : Bool} {scope : ScopeId} {cell : CacheKey}
    {create : Request U (Value U)} (creates : Request.Only Event.Making Creates create) :
    Request.Only Event.KeepsCreation (fun _ => True) (keepIf kept scope cell create) := by
  have making : Request.Only Event.KeepsCreation Creates create :=
    creates.mono (fun _ making => making.aside.keepsCreation) fun _ creates => creates
  exact only_keepIf making (fun _ _ => trivial) fun _ _ creates => creates

/-- Making and keeping a value keeps only failures of creation. -/
theorem only_produceFrom_creation (home : Scope U) (context : ContextId) (key : Key)
    (binding : Binding U) (inputs : Inputs U) :
    Request.Only Event.KeepsCreation (fun _ => True)
      (produceFrom home context key binding inputs) := by
  apply Request.only_bind (only_keepIf_creation ?_) (fun _ _ => trivial)
  · intro made _
    apply only_keepIf_creation
    exact (only_finish home.id context key binding inputs.stages made).mono
      (fun _ making => making) fun _ makes => makes.creates
  · exact (only_construct home.id context binding.recipe inputs.arguments inputs.flag
      binding.cast.isSome).mono (fun _ making => making) fun _ makes => makes.creates

/-- All requests keep only values and failures of creation itself, whatever others do. -/
theorem kept_creating {rely : Conduct U} : Conduct.Kept rely Conduct.creating := by
  refine .ofResolving (fun _ _ _ => trivial) (·.aside.keepsCreation)
    (fun _ _ _ _ _ _ => trivial) ?_
  intro moment id demand after _ _ _ resolves
  have produces : ∀ (start : Moment U) (home : Scope U) (context : ContextId) (key : Key)
      (binding : Binding U) (inputs : Inputs U),
      Request.Keeps rely Conduct.creating id (fun _ _ => True)
        (produceFrom home context key binding inputs) start := by
    intro start home context key binding inputs
    have only := only_produceFrom_creation home context key binding inputs
    exact (only.keeps fun _ _ _ _ keeps => keeps).mono fun _ _ _ _ => trivial
  exact ((resolving rely id (·.aside.keepsCreation) produces).asking resolves
    (fun _ _ => trivial) trivial).mono fun _ _ _ _ => trivial

/-- What cells hold and what requests are told of them are values and failures of creation. -/
theorem Moment.Lawful.creations {conduct : Conduct U} {moment : Moment U}
    (lawful : moment.Lawful conduct)
    (creates : ∀ moment entry, conduct moment entry → Conduct.creating moment entry) :
    (∀ scope cell outcome, moment.state.kept? scope cell = some outcome → Creates outcome) ∧
      ∀ id event outcome, moment.Did id event → event.Recalls outcome → Creates outcome := by
  induction lawful with
  | initial =>
      constructor
      · intro scope cell outcome kept
        cases State.kept?_eq_some.mp kept
      · intro id event outcome did
        cases did
  | contexts contexts _ ih => exact ih
  | @records moment next entry _ recorded allowed ih =>
      obtain ⟨held, told⟩ := ih
      obtain ⟨request, event⟩ := entry
      constructor
      · intro scope cell outcome kept
        have filled := State.kept?_eq_some.mp kept
        rcases recorded.state.cell? scope cell with
          ⟨_, _, filling⟩ | ⟨other, settles, now⟩ | ⟨same, _⟩
        · rw [filled] at filling
          cases filling
        · rw [filled] at now
          cases now
          have keeps := creates _ _ allowed
          rw [show event = _ from settles] at keeps
          exact keeps
        · rw [same] at filled
          exact held scope cell outcome (State.kept?_eq_some.mpr filled)
      · intro id did outcome happened recalls
        cases recorded.did_iff.mp happened with
        | inr before => exact told id did outcome before recalls
        | inl now =>
            obtain ⟨_, rfl⟩ := now
            cases recalls with
            | peeked scope cell =>
                exact held scope cell outcome (Operation.perform_peek recorded.state).1
            | entered scope cell =>
                have filled := (Operation.perform_enter_some recorded.state).1
                exact held scope cell outcome (State.kept?_eq_some.mpr filled)

/-! ## Requests within a request -/

/-- What a request did, with the requests within it set apart: what it did itself, and the keys it
asked for, each with what that came to. -/
inductive Nests (inner : Key → List (Event U) → Outcome U → Prop) :
    List (Event U) → List (Event U) → List (Key × Outcome U) → Prop where
  | nil : Nests inner [] [] []
  | own (event : Event U) {events own : List (Event U)} {asked : List (Key × Outcome U)} :
      Nests inner events own asked → Nests inner (event :: events) (event :: own) asked
  | asked {needed : Key} {events rest own : List (Event U)} {outcome : Outcome U}
      {asked : List (Key × Outcome U)} : inner needed events outcome →
        Nests inner rest own asked → Nests inner (events ++ rest) own ((needed, outcome) :: asked)

section Nests

variable {inner : Key → List (Event U) → Outcome U → Prop}

/-- What nests in two parts nests in the whole. -/
theorem Nests.append {first rest own more : List (Event U)} {asked other : List (Key × Outcome U)}
    (nests : Nests inner first own asked) (nests' : Nests inner rest more other) :
    Nests inner (first ++ rest) (own ++ more) (asked ++ other) := by
  induction nests with
  | nil => exact nests'
  | own event _ ih => exact .own event ih
  | asked asks _ ih =>
      rw [List.append_assoc]
      exact .asked asks ih

/-- Events of its own nest in a request that asks for nothing. -/
theorem Nests.alone (events : List (Event U)) : Nests inner events events [] := by
  induction events with
  | nil => exact .nil
  | cons event rest ih => exact .own event ih

/-- A request resolves what a service needs: itself it does only idle things, and it fails with the
error of a dependency if and only if that dependency failed. -/
def Gathers {α : Type} (inner : Key → List (Event U) → Outcome U → Prop) (service : Key)
    (events : List (Event U)) (outcome : Except Error α) : Prop :=
  ∃ own asked, Nests inner events own asked ∧ (∀ event ∈ own, event.Idle) ∧
    ∀ error, outcome = .error error ↔
      ∃ needed cause, error = .dependency service needed cause ∧ (needed, .error cause) ∈ asked

namespace Gathers

variable {α β : Type} {service : Key} {events first rest : List (Event U)}

/-- A request that is idle gathers its value. -/
theorem idle (value : α) (idle : ∀ event ∈ events, event.Idle) :
    Gathers inner service events (.ok value : Except Error α) :=
  ⟨events, [], .alone events, idle, by simp⟩

/-- A request for one key gathers its outcome, wrapped if it is an error. -/
theorem asks {needed : Key} {outcome : Outcome U} {result : Except Error α}
    (asked : inner needed events outcome)
    (same : ∀ error, result = .error error ↔
      ∃ cause, error = .dependency service needed cause ∧ outcome = .error cause) :
    Gathers inner service events result := by
  refine ⟨[], [(needed, outcome)], ?_, by simp, ?_⟩
  · simpa using Nests.asked asked Nests.nil
  · intro error
    simp only [same, List.mem_singleton, Prod.mk.injEq]
    constructor
    · rintro ⟨cause, isError, fails⟩
      exact ⟨needed, cause, isError, rfl, fails.symm⟩
    · rintro ⟨_, cause, isError, rfl, fails⟩
      exact ⟨cause, isError, fails.symm⟩

/-- Of a success it does not matter which value was gathered. -/
theorem ok {value : α} (gathers : Gathers inner service events (.ok value : Except Error α))
    (other : β) : Gathers inner service events (.ok other : Except Error β) := by
  obtain ⟨own, asked, nests, idle, fails⟩ := gathers
  exact ⟨own, asked, nests, idle, by simpa using fails⟩

/-- Of a failure it does not matter what was to be gathered. -/
theorem error {failure : Error}
    (gathers : Gathers inner service events (.error failure : Except Error α)) :
    Gathers inner service events (.error failure : Except Error β) := by
  obtain ⟨own, asked, nests, idle, fails⟩ := gathers
  exact ⟨own, asked, nests, idle, by simpa using fails⟩

/-- What was gathered in two parts was gathered. -/
theorem append {value : α} {outcome : Except Error β}
    (gathers : Gathers inner service first (.ok value : Except Error α))
    (gathers' : Gathers inner service rest outcome) :
    Gathers inner service (first ++ rest) outcome := by
  obtain ⟨own, asked, nests, idle, fails⟩ := gathers
  obtain ⟨more, other, nests', idle', fails'⟩ := gathers'
  have none : ∀ needed cause, (needed, .error cause) ∉ asked := by
    intro needed cause member
    have impossible := (fails (.dependency service needed cause)).mpr ⟨needed, cause, rfl, member⟩
    cases impossible
  refine ⟨own ++ more, asked ++ other, nests.append nests', ?_, ?_⟩
  · intro event member
    exact (List.mem_append.mp member).elim (idle event) (idle' event)
  · intro error
    simp only [fails', List.mem_append, none, false_or]

/-- One request after another. -/
theorem bind {request : Request U α} {next : α → Request U β} {outcome : Except Error β}
    (does : Request.Does (request >>= next) events outcome)
    (gathers : ∀ {events outcome}, Request.Does request events outcome →
      Gathers inner service events outcome)
    (goesOn : ∀ {value events outcome}, Request.Does (next value) events outcome →
      Gathers inner service events outcome) :
    Gathers inner service events outcome := by
  rcases Request.does_bind.mp does with ⟨error, rfl, fails⟩ | ⟨first, value, rest, rfl, goes, ends⟩
  · exact (gathers fails).error
  · exact (gathers goes).append (goesOn ends)

/-- An idle operation goes before what is gathered. -/
theorem bind_act {operation : Operation U} {next : operation.Answer → Request U α}
    {outcome : Except Error α}
    (does : Request.Does (Request.act operation >>= next) events outcome)
    (isIdle : operation.Idle)
    (goesOn : ∀ {answer events outcome}, Request.Does (next answer) events outcome →
      Gathers inner service events outcome) :
    Gathers inner service events outcome := by
  obtain ⟨answer, rest, rfl, ends⟩ := Request.does_bind_act.mp does
  have own : Gathers inner service [.performed operation answer] (.ok () : Except Error Unit) :=
    idle () (by simpa [Event.Idle] using isIdle)
  exact own.append (goesOn ends)

/-- A value is gathered at once. -/
theorem pure {value : α} {outcome : Except Error α}
    (does : Request.Does (pure value : Request U α) events outcome) :
    Gathers inner service events outcome := by
  obtain ⟨rfl, rfl⟩ := Request.does_pure.mp does
  exact idle value (by simp)

end Gathers

end Nests

/-! ## Inputs -/

section Inputs

variable {inner : Key → List (Event U) → Outcome U → Prop} {resolver : Resolver U}
  {scope : Scope U} {context : ContextId} {service : Key} {active : List Key} {flag : FlagId}
  {events : List (Event U)}

/-- The argument for a parameter is gathered. -/
theorem gathers_argument {param : Param} {outcome : Except Error (Argument U)}
    (asks : ∀ needed, param = .service needed → ∀ events outcome,
      Request.Does (resolver scope context needed active) events outcome →
        inner needed events outcome)
    (does : Request.Does
      (wrapDependency service param (resolver.argument scope context active flag param))
      events outcome) :
    Gathers inner service events outcome := by
  cases param with
  | context => exact Gathers.pure does
  | scope => exact Gathers.pure does
  | service needed =>
      have asked := asks needed rfl
      rcases Request.does_tryCatch.mp does with
        ⟨argument, rfl, resolves⟩ | ⟨first, error, rest, rfl, resolves, fails⟩
      · rcases Request.does_bind.mp resolves with
          ⟨_, impossible, _⟩ | ⟨first, value, rest, rfl, yields, ends⟩
        · cases impossible
        · obtain ⟨rfl, _⟩ := Request.does_pure.mp ends
          rw [List.append_nil]
          exact Gathers.asks (asked first _ yields) (by simp)
      · obtain ⟨rfl, rfl⟩ := Request.does_fail.mp fails
        rw [List.append_nil]
        rcases Request.does_bind.mp resolves with
          ⟨_, same, fails⟩ | ⟨_, _, _, _, _, ends⟩
        · cases same
          apply Gathers.asks (asked first _ fails)
          simp [eq_comm]
        · cases (Request.does_pure.mp ends).2

/-- The arguments for parameters are gathered. -/
theorem gathers_arguments {params : List Param} {outcome : Except Error (List (Argument U))}
    (asks : ∀ needed, .service needed ∈ params → ∀ events outcome,
      Request.Does (resolver scope context needed active) events outcome →
        inner needed events outcome)
    (does : Request.Does (resolver.arguments scope context service active flag params)
      events outcome) :
    Gathers inner service events outcome := by
  induction params generalizing events outcome with
  | nil => exact Gathers.pure does
  | cons param params ih =>
      apply Gathers.bind does
      · intro events outcome does
        apply gathers_argument _ does
        rintro needed rfl
        exact asks needed List.mem_cons_self
      · intro first events outcome does
        apply Gathers.bind does
        · exact ih fun needed member => asks needed (List.mem_cons_of_mem _ member)
        · exact Gathers.pure

/-- The arguments for decorators are gathered. -/
theorem gathers_stages {decorators : List (Decorator U)} {outcome : Except Error (List (Stage U))}
    (asks : ∀ decorator ∈ decorators, ∀ needed, .service needed ∈ decorator.params →
      ∀ events outcome, Request.Does (resolver scope context needed active) events outcome →
        inner needed events outcome)
    (does : Request.Does (resolver.stages scope context service active decorators)
      events outcome) :
    Gathers inner service events outcome := by
  induction decorators generalizing events outcome with
  | nil => exact Gathers.pure does
  | cons decorator decorators ih =>
      apply Gathers.bind_act does trivial
      intro flag events outcome does
      apply Gathers.bind does
      · exact gathers_arguments (asks decorator List.mem_cons_self)
      · intro arguments events outcome does
        apply Gathers.bind does
        · exact ih fun other member => asks other (List.mem_cons_of_mem _ member)
        · exact Gathers.pure

/-- Looking whether an instance is made gathers nothing. -/
theorem gathers_isMade {home : ScopeId} {recipe : Recipe U} {outcome : Except Error Bool}
    (does : Request.Does (isMade home recipe) events outcome) :
    Gathers inner service events outcome := by
  unfold isMade at does
  by_cases kept : recipe.lifetime.isKept = true
  · rw [if_pos kept] at does
    exact Gathers.bind_act does trivial Gathers.pure
  · rw [if_neg kept] at does
    exact Gathers.pure does

/-- Before anything is made, all that a service needs is resolved, and nothing else is done. -/
theorem gathers_inputs {home : Scope U} {binding : Binding U} {outcome : Except Error (Inputs U)}
    (asks : ∀ needed, binding.Needs home needed → ∀ events outcome,
      Request.Does (resolver home context needed active) events outcome →
        inner needed events outcome)
    (does : Request.Does (resolver.inputs home context service binding active) events outcome) :
    Gathers inner service events outcome := by
  have staged : ∀ {arguments flag events outcome}, Request.Does (do
      let stages ← resolver.stages home context service active
        (home.registry.decoratorsOf binding.registered)
      pure { arguments, flag, stages }) events outcome →
        Gathers inner service events (outcome : Except Error (Inputs U)) := by
    intro arguments flag events outcome does
    apply Gathers.bind does
    · exact gathers_stages fun decorator member needed needs =>
        asks needed (.inr ⟨decorator, member, needs⟩)
    · exact Gathers.pure
  apply Gathers.bind_act does trivial
  intro flag events outcome does
  apply Gathers.bind does gathers_isMade
  intro made events outcome does
  by_cases isMade : made = true
  · rw [if_pos isMade] at does
    exact staged does
  · rw [if_neg isMade] at does
    apply Gathers.bind does
    · exact gathers_arguments fun needed member => asks needed (.inl member)
    · exact staged

end Inputs

/-! ## Requests for keys -/

/-- All that is told of cells are values and failures of creation. -/
def RecallsCreations (events : List (Event U)) : Prop :=
  ∀ event ∈ events, ∀ outcome, event.Recalls outcome → Creates outcome

/-- Keeping a creation comes to a creation, if cells recall only such. -/
theorem creates_keepIf {kept : Bool} {scope : ScopeId} {cell : CacheKey}
    {create : Request U (Value U)} {own : Event U → Prop} {events : List (Event U)}
    {outcome : Outcome U} (creates : Request.Only own Creates create)
    (recalls : RecallsCreations events)
    (does : Request.Does (keepIf kept scope cell create) events outcome) : Creates outcome := by
  cases kept with
  | false => exact (creates.does does).2
  | true =>
      obtain ⟨found, rest, rfl, goes⟩ := Request.does_bind_act.mp does
      cases found with
      | some told =>
          obtain ⟨rfl, rfl⟩ := Request.does_ofExcept.mp goes
          exact recalls _ List.mem_cons_self _ (.entered scope cell outcome)
      | none =>
          rcases Request.does_bind.mp goes with ⟨_, _, fails⟩ | ⟨_, made, _, _, makes, settles⟩
          · obtain ⟨_, impossible, _⟩ := Request.does_lift.mp fails
            cases impossible
          · obtain ⟨_, same, makes⟩ := Request.does_lift.mp makes
            cases same
            obtain ⟨_, _, _, ends⟩ := Request.does_bind_act.mp settles
            obtain ⟨_, rfl⟩ := Request.does_ofExcept.mp ends
            exact (creates.does makes).2

/-- Making and keeping a value comes to a creation, if cells recall only such. -/
theorem creates_produceFrom {home : Scope U} {context : ContextId} {key : Key}
    {binding : Binding U} {inputs : Inputs U} {events : List (Event U)} {outcome : Outcome U}
    (recalls : RecallsCreations events)
    (does : Request.Does (produceFrom home context key binding inputs) events outcome) :
    Creates outcome := by
  have makes := (only_construct home.id context binding.recipe inputs.arguments inputs.flag
    binding.cast.isSome).mono (fun _ making => making) fun _ makes => makes.creates
  rcases Request.does_bind.mp does with ⟨error, rfl, fails⟩ | ⟨first, made, rest, rfl, _, finishes⟩
  · have creates : Creates (.error error : Outcome U) := creates_keepIf makes recalls fails
    exact Creates.error (creates error rfl)
  · have finishing := (only_finish home.id context key binding inputs.stages made).mono
      (fun _ making => making) fun _ makes => makes.creates
    apply creates_keepIf finishing _ finishes
    exact fun event member => recalls event (List.mem_append_right _ member)

/-- An event leaves all cells as they are. -/
def Event.SparesCells (event : Event U) : Prop :=
  ∀ before after, event.Changes before after → ∀ scope cell,
    after.cell? scope cell = before.cell? scope cell

/-- Idle events leave cells alone. -/
theorem Event.Idle.sparesCells {event : Event U} (idle : event.Idle) : event.SparesCells := by
  intro before after changes scope cell
  apply changes.cell?_of_other
  · rintro rfl
    exact idle
  · rintro outcome rfl
    exact idle

/-- What a request for a key did and came to, with the requests for what the service needs set
apart: it fails with the error of a dependency if and only if that dependency failed, and then it
leaves all cells as they are. -/
structure Accounts (inner : Key → List (Event U) → Outcome U → Prop) (key : Key)
    (events : List (Event U)) (outcome : Outcome U) (own : List (Event U))
    (asked : List (Key × Outcome U)) : Prop where
  nests : Nests inner events own asked
  produces : ∀ event ∈ own, event.Producing
  fails : ∀ service needed cause, outcome = .error (.dependency service needed cause) ↔
    service = key ∧ (needed, .error cause) ∈ asked
  spares : ∀ needed cause, (needed, .error cause) ∈ asked → ∀ event ∈ own, event.SparesCells

section Accounts

variable {inner : Key → List (Event U) → Outcome U → Prop} {key : Key} {events : List (Event U)}
  {outcome : Outcome U}

/-- A request that asked for nothing and failed, if at all, with an error of its own. -/
theorem Accounts.alone (produces : ∀ event ∈ events, event.Producing)
    (direct : ∀ service needed cause, outcome ≠ .error (.dependency service needed cause)) :
    Accounts inner key events outcome events [] :=
  ⟨.alone events, produces, by simpa using direct, by simp⟩

/-- No creation comes to an error of a dependency. -/
theorem Creates.ne_dependency (creates : Creates outcome) (service needed : Key) (cause : Error) :
    outcome ≠ .error (.dependency service needed cause) :=
  fun fails => creates _ fails

/-- More that was done before, without asking for anything. -/
theorem Accounts.after {first own : List (Event U)} {asked : List (Key × Outcome U)}
    (accounts : Accounts inner key events outcome own asked)
    (idle : ∀ event ∈ first, event.Idle) :
    Accounts inner key (first ++ events) outcome (first ++ own) asked where
  nests := (Nests.alone first).append accounts.nests
  produces := by
    intro event member
    cases List.mem_append.mp member with
    | inl earlier => exact (idle event earlier).making.producing
    | inr later => exact accounts.produces event later
  fails := accounts.fails
  spares := by
    intro needed cause failed event member
    cases List.mem_append.mp member with
    | inl earlier => exact (idle event earlier).sparesCells
    | inr later => exact accounts.spares needed cause failed event later

/-- A request that does only idle things before another, and fails with an error of its own. -/
theorem Accounts.guarded {α : Type} {yields : Except Error α → Prop} {guard : Request U α}
    {next : α → Request U (Value U)} (only : Request.Only Event.Idle yields guard)
    (direct : ∀ error, yields (.error error) → error.Direct) (recalls : RecallsCreations events)
    (does : Request.Does (guard >>= next) events outcome)
    (goesOn : ∀ {value rest}, yields (.ok value) → RecallsCreations rest →
      Request.Does (next value) rest outcome →
        ∃ own asked, Accounts inner key rest outcome own asked) :
    ∃ own asked, Accounts inner key events outcome own asked := by
  rcases Request.does_bind.mp does with ⟨error, rfl, fails⟩ | ⟨first, value, rest, rfl, goes, ends⟩
  · obtain ⟨idle, yielded⟩ := only.does fails
    refine ⟨events, [], Accounts.alone (fun event member => (idle event member).making.producing) ?_⟩
    rintro service needed cause ⟨⟩
    exact direct _ yielded
  · obtain ⟨idle, yielded⟩ := only.does goes
    obtain ⟨own, asked, accounts⟩ := goesOn yielded
      (fun event member => recalls event (List.mem_append_right _ member)) ends
    exact ⟨_, asked, accounts.after idle⟩

end Accounts

namespace Resolver

variable {resolver : Resolver U} {scope home : Scope U} {context : ContextId} {key : Key}
  {binding : Binding U} {active : List Key} {events : List (Event U)} {outcome : Outcome U}

/-- A request for a key that a service needs, made on behalf of a request for the service. -/
def Consults (resolver : Resolver U) (scope : Scope U) (context : ContextId) (key : Key)
    (active : List Key) (needed : Key) (events : List (Event U)) (outcome : Outcome U) : Prop :=
  ∃ binding home, scope.Finds key binding home ∧ binding.Needs home needed ∧
    Request.Does (resolver home context needed (active ++ [key])) events outcome

/-- How a value is created accounts for its outcome. -/
theorem does_create (finds : scope.Finds key binding home) (recalls : RecallsCreations events)
    (does : Request.Does (resolver.create home context key binding active) events outcome) :
    ∃ own asked,
      Accounts (resolver.Consults scope context key active) key events outcome own asked := by
  have gathers : ∀ {events outcome}, Request.Does
      (resolver.inputs home context key binding (active ++ [key])) events outcome →
        Gathers (resolver.Consults scope context key active) key events outcome :=
    gathers_inputs fun needed needs events outcome asks => ⟨binding, home, finds, needs, asks⟩
  rw [Resolver.create_eq] at does
  rcases Request.does_bind.mp does with ⟨error, rfl, fails⟩ | ⟨first, inputs, rest, rfl, ready, makes⟩
  · obtain ⟨own, asked, nests, idle, failed⟩ := gathers fails
    refine ⟨own, asked, nests, fun event member => (idle event member).making.producing, ?_,
      fun _ _ _ event member => (idle event member).sparesCells⟩
    intro service needed cause
    have same := failed (.dependency service needed cause)
    simp only [Except.error.injEq, Error.dependency.injEq] at same ⊢
    rw [same]
    constructor
    · rintro ⟨_, _, ⟨rfl, rfl, rfl⟩, member⟩
      exact ⟨rfl, member⟩
    · rintro ⟨rfl, member⟩
      exact ⟨needed, cause, ⟨rfl, rfl, rfl⟩, member⟩
  · obtain ⟨own, asked, nests, idle, failed⟩ := gathers ready
    have none : ∀ needed cause, (needed, .error cause) ∉ asked := by
      intro needed cause member
      have impossible := (failed (.dependency key needed cause)).mpr ⟨needed, cause, rfl, member⟩
      cases impossible
    have creates := creates_produceFrom (fun event member =>
      recalls event (List.mem_append_right _ member)) makes
    have producing := (only_produceFrom home context key binding inputs).does makes
    refine ⟨own ++ rest, asked, ?_, ?_, ?_, fun needed cause member => absurd member (none _ _)⟩
    · simpa using nests.append (Nests.alone rest)
    · intro event member
      cases List.mem_append.mp member with
      | inl earlier => exact (idle event earlier).making.producing
      | inr later => exact producing.1 event later
    · intro service needed cause
      simp [none, creates.ne_dependency]

/-- How a value is resolved in its home accounts for its outcome. -/
theorem does_resolveIn (finds : scope.Finds key binding home) (recalls : RecallsCreations events)
    (does : Request.Does (resolver.resolveIn home context key binding active) events outcome) :
    ∃ own asked,
      Accounts (resolver.Consults scope context key active) key events outcome own asked := by
  have creates : ∀ {events}, RecallsCreations events → Request.Does
      (if key ∈ active then Request.fail (.cycle (cycleChain active key))
        else resolver.create home context key binding active) events outcome →
      ∃ own asked,
        Accounts (resolver.Consults scope context key active) key events outcome own asked := by
    intro events recalls does
    by_cases isActive : key ∈ active
    · rw [if_pos isActive] at does
      obtain ⟨rfl, rfl⟩ := Request.does_fail.mp does
      exact ⟨[], [], Accounts.alone (by simp) (by simp)⟩
    · rw [if_neg isActive] at does
      exact does_create finds recalls does
  unfold Resolver.resolveIn at does
  by_cases kept : binding.recipe.lifetime.isKept = true
  · have looks : recallShown home.id binding =
        Request.act (.peek home.id (.shown binding.recipe.id binding.registered)) := if_pos kept
    rw [looks] at does
    obtain ⟨found, rest, rfl, goes⟩ := Request.does_bind_act.mp does
    have looking : Event.Idle (.performed (.peek home.id
        (.shown binding.recipe.id binding.registered)) found : Event U) := trivial
    cases found with
    | none =>
        obtain ⟨own, asked, accounts⟩ :=
          creates (fun event member => recalls event (List.mem_cons_of_mem _ member)) goes
        have looked : ∀ event ∈ [Event.performed (.peek home.id
            (.shown binding.recipe.id binding.registered)) none], event.Idle (U := U) := by
          simpa using looking
        exact ⟨_, asked, accounts.after looked⟩
    | some told =>
        have creates := recalls _ List.mem_cons_self told (.peeked ..)
        obtain ⟨_, last, rfl, ends⟩ := Request.does_bind_call.mp goes
        obtain ⟨rfl, rfl⟩ := Request.does_ofExcept.mp ends
        refine ⟨_, [], Accounts.alone ?_ creates.ne_dependency⟩
        simp [Event.Producing, Event.Making]
  · have skips : recallShown home.id binding = pure none := if_neg kept
    rw [skips, pure_bind] at does
    exact creates recalls does

/-- A request for a key, however the dependencies of services are resolved. -/
theorem does_resolve (recalls : RecallsCreations events)
    (does : Request.Does (resolver.resolve scope context key active) events outcome) :
    ∃ own asked,
      Accounts (resolver.Consults scope context key active) key events outcome own asked := by
  unfold Resolver.resolve at does
  apply Accounts.guarded (only_ensureUsable context) (fun _ fails => (fails _ rfl).direct) recalls
    does
  intro _ usable _ recalls does
  apply Accounts.guarded (only_ensureOpen scope.id) (fun _ fails => (fails _ rfl).direct) recalls
    does
  intro _ opened _ recalls does
  cases bound : scope.registry.find? key with
  | none =>
      simp only [bound] at does
      obtain ⟨rfl, rfl⟩ := Request.does_fail.mp does
      exact ⟨[], [], Accounts.alone (by simp) (by simp)⟩
  | some binding =>
      simp only [bound] at does
      have makes : ¬ binding.IsValue → Request.Does (do
          let effective ← effectiveScope scope key binding
          resolver.resolveIn effective context key binding active) opened outcome →
            ∃ own asked, Accounts (resolver.Consults scope context key active) key opened outcome
              own asked := by
        intro made does
        apply Accounts.guarded (only_effectiveScope scope key binding)
          (fun _ fails => fails.2 _ rfl) recalls does
        intro home rest isHome recalls does
        exact does_resolveIn ⟨bound, made, isHome.1 home rfl⟩ recalls does
      cases source : binding.recipe.source with
      | value content =>
          simp only [source] at does
          obtain ⟨serving, made⟩ := (only_convert binding scope.id key _).does does
          exact ⟨opened, [], Accounts.alone (fun event member =>
            (serving event member).making.producing) made.creates.ne_dependency⟩
      | factory make =>
          simp only [source] at does
          exact makes (fun ⟨_, isValue⟩ => by rw [source] at isValue; cases isValue) does
      | list item =>
          simp only [source] at does
          exact makes (fun ⟨_, isValue⟩ => by rw [source] at isValue; cases isValue) does

end Resolver

/-- Only failures of creation itself are kept, whatever the functions of the client do: no cell
holds any other error and no request is told of one by a cell.  A request for a key that fails
because something that its service needs failed, however that was resolved, leaves all cells as
they are. -/
theorem creation_failures_kept {activity : Activity U} (reachable : activity.Reachable) :
    (∀ scope cell error, activity.moment.state.kept? scope cell = some (.error error) →
        error.OfCreation) ∧
      (∀ id event error, activity.moment.Did id event → event.Recalls (.error error) →
        error.OfCreation) ∧
      ∀ id (resolver : Resolver U) scope context key active events outcome,
        (∀ event ∈ events, activity.moment.Did id event) →
          Request.Does (resolver.resolve scope context key active) events outcome →
            ∃ own asked, Accounts (resolver.Consults scope context key active) key events outcome
              own asked := by
  have lawful := reachable.lawful kept_creating
  obtain ⟨held, told⟩ := lawful.creations fun _ _ allowed => allowed.2
  refine ⟨?_, ?_, ?_⟩
  · intro scope cell error kept
    exact held scope cell (.error error) kept error rfl
  · intro id event error did recalls
    exact told id event (.error error) did recalls error rfl
  · intro id resolver scope context key active events outcome did does
    apply Resolver.does_resolve _ does
    exact fun event member outcome recalls => told id event outcome (did event member) recalls

namespace FailedDependency

/-- The key of a service that cannot be made. -/
def base : Key := .of (.concrete "sample" "A")

/-- The key of a service that depends on it. -/
def dependent : Key := .of (.concrete "sample" "B")

/-- The two services. -/
def registrations : List (Registration Client.obliging) :=
  [.service (Offer.factory base.type () []),
    .service (Offer.factory dependent.type () [.service base])]

/-- The scope that registers them. -/
def scope : Scope Client.obliging :=
  ((Builder.root ⟨1⟩).addAll registrations).scope

/-- The world once the scope is built. -/
def built : World Client.obliging Unit :=
  (Demand.build none registrations).afterwards Behaviour.failing { state := {}, memory := () }

/-- The world once the dependent service was asked for. -/
def failed : World Client.obliging Unit :=
  (Demand.resolve scope ⟨0⟩ dependent).afterwards Behaviour.failing built

/-- Why the first service cannot be made. -/
def cause : Error := .creationFailed base (.text "failed")

/-- The failing service was asked for by another. -/
theorem served : ∃ activity : Activity Client.obliging, activity.Reachable ∧
    activity.moment.state = failed.state ∧
      activity.moment.Did ⟨1⟩ (.started (.resolve scope ⟨0⟩ dependent)) ∧
        activity.moment.Did ⟨1⟩ (.finished (.error (.dependency dependent base cause))) := by
  have builds : (Demand.build none registrations).request.run.run Behaviour.failing
      { state := {}, memory := () } = some (.ok (.built scope), built) := rfl
  have fails : (Demand.resolve scope ⟨0⟩ dependent).request.run.run Behaviour.failing built =
      some (.error (.dependency dependent base cause), failed) := rfl
  have detached := Behaviour.failing_detached
  obtain ⟨_, first, _⟩ := (Activity.Served.initial ()).next detached builds nofun
  obtain ⟨activity, second, _⟩ := first.nextOn detached fails rfl List.mem_cons_self
  obtain ⟨began, ended⟩ := second.did 1 rfl
  exact ⟨activity, second.reachable, second.state, began, ended⟩

end FailedDependency

/-- A service whose dependency cannot be made is asked for: the scope keeps why the dependency could
not be made, and the request for the service itself leaves all cells as they are. -/
theorem failed_dependency_unkept : ∃ activity : Activity Client.obliging,
    activity.Reachable ∧
      activity.moment.state.kept? ⟨1⟩ (.made (.registration ⟨1⟩ 0)) =
        some (.error FailedDependency.cause) ∧
      FailedDependency.cause.OfCreation ∧
      ∃ events own asked, (∀ event ∈ events, activity.moment.Did ⟨1⟩ event) ∧
        Accounts ((resolveWithin FailedDependency.scope.registry.bound).Consults
            FailedDependency.scope ⟨0⟩ FailedDependency.dependent [])
          FailedDependency.dependent events
          (.error (.dependency FailedDependency.dependent FailedDependency.base
            FailedDependency.cause)) own asked ∧
        (FailedDependency.base, .error FailedDependency.cause) ∈ asked ∧
        ∀ event ∈ own, event.SparesCells := by
  obtain ⟨activity, reachable, state, began, ended⟩ := FailedDependency.served
  have kept : activity.moment.state.kept? ⟨1⟩ (.made (.registration ⟨1⟩ 0)) =
      some (.error FailedDependency.cause) := by
    rw [state]
    rfl
  obtain ⟨held, _, accounts⟩ := creation_failures_kept reachable
  obtain ⟨events, doings, goes⟩ := reachable.went began ended
  have did : ∀ event ∈ events, activity.moment.Did ⟨1⟩ event := by
    intro event member
    rw [← mem_doings, doings]
    simp [member]
  rcases Request.does_bind.mp goes with ⟨error, same, fails⟩ | ⟨_, _, _, _, _, ends⟩
  · cases same
    obtain ⟨own, asked, accounted⟩ := accounts ⟨1⟩
      (resolveWithin FailedDependency.scope.registry.bound) FailedDependency.scope ⟨0⟩
      FailedDependency.dependent [] events _ did fails
    have failed := ((accounted.fails _ _ _).mp rfl).2
    exact ⟨activity, reachable, kept, held _ _ _ kept, events, own, asked, did, accounted, failed,
      accounted.spares _ _ failed⟩
  · cases (Request.does_pure.mp ends).2

end Provision
