import Provision.Proofs.Execution.RunningAlone
import Provision.Proofs.Instances.KeptInstances
import Provision.Proofs.Meaning.KeyMeaning

/-!
# Requests that succeed alone

Alone, with functions that always succeed, in a context that is usable and a scope that is open,
making an instance and finishing it succeeds if arguments have the types of their parameters.  Some
constructors may fail, as long as it is not theirs.  A request alone is judged along its text, as
one among others is, but here the judgement includes that it returns, and with a value.

Main statements: `succeeds_construct` and `succeeds_finish`.
-/

namespace Provision

open Moment

variable {U : Client} {σ α β : Type}

/-! ## Worlds that are alike -/

/-- Contexts that are usable stay so, and cells and whether scopes are closed are the same in two
worlds. -/
structure World.Alike (world last : World U σ) : Prop where
  usable : ∀ {context}, world.state.contexts.error? context = none →
    last.state.contexts.error? context = none
  closed : ∀ scope, (last.state.scope scope).closed = (world.state.scope scope).closed
  cells : ∀ scope cell, last.state.cell? scope cell = world.state.cell? scope cell

namespace World.Alike

variable {world middle last : World U σ}

theorem refl (world : World U σ) : world.Alike world := ⟨id, fun _ => rfl, fun _ _ => rfl⟩

theorem trans (first : world.Alike middle) (second : middle.Alike last) : world.Alike last where
  usable := fun usable => second.usable (first.usable usable)
  closed := fun scope => (second.closed scope).trans (first.closed scope)
  cells := fun scope cell => (second.cells scope cell).trans (first.cells scope cell)

/-- What is open in a world is open in those that are like it. -/
theorem opened (alike : world.Alike last) {scope : ScopeId}
    (opened : (world.state.scope scope).closed = false) :
    (last.state.scope scope).closed = false :=
  (alike.closed scope).trans opened

/-- All that changed is contexts, and what the client remembers. -/
theorem ofCall (world : World U σ) (memory : σ) {contexts : Contexts}
    (still : ∀ context, world.state.contexts.error? context = none →
      contexts.error? context = none) :
    world.Alike { state := { world.state with contexts }, memory } :=
  ⟨still _, fun _ => rfl, fun _ _ => rfl⟩

/-- Raising a flag leaves a world like it was. -/
theorem ofRaise (world : World U σ) (flag : FlagId) :
    world.Alike { world with state := { world.state with raised := flag :: world.state.raised } } :=
  ⟨id, fun _ => rfl, fun _ _ => rfl⟩

/-- An operation that makes a value changes neither contexts nor cells and closes nothing. -/
theorem ofMaking {operation : Operation U} {answer : operation.Answer} {state : State U}
    (making : (Event.performed operation answer).Making)
    (performs : operation.perform world.state = some (answer, state)) :
    world.Alike { world with state } := by
  have changes : (Event.performed operation answer).Changes world.state state := performs
  refine ⟨fun usable => ?_, fun scope => changes.closed_of_ne_shut fun _ same => ?_,
    fun scope cell => changes.cell?_of_other (fun same => ?_) fun _ same => ?_⟩
  · rw [Operation.contexts_perform performs]
    exact usable
  all_goals cases same; exact making

end World.Alike

/-- The functions of the client always answer, as is said of them, and all that they change is what
the client remembers. -/
def Behaviour.Computes (behaviour : Behaviour U σ) (functions : Functions U) : Prop :=
  ∀ call world, ∃ answer memory,
    behaviour call world = some (answer, { world with memory }) ∧ functions.Answers call answer

variable {behaviour : Behaviour U σ} {functions : Functions U}

/-- What a call answers if the function succeeds. -/
def Call.Granted : (call : Call U) → call.Answer → Prop
  | .construct _ _ _, answer => ∃ content, answer = .ok content
  | .decorate _ _ _ _ _, answer => ∃ content, answer = .ok content
  | .accepts _, answer => answer = true
  | _, _ => True

/-- The functions of the client always succeed.  They use no containers, and contexts that are
usable stay so. -/
def Behaviour.Grants (behaviour : Behaviour U σ) : Prop :=
  ∀ call world, ∃ answer contexts memory,
    behaviour call world = some (answer, { state := { world.state with contexts }, memory }) ∧
      call.Granted answer ∧ ∀ context, world.state.contexts.error? context = none →
        contexts.error? context = none

/-- What a call answers if the function succeeds, or is a constructor that fails. -/
def Call.GrantedBut (fails : U.Constructor → Prop) : (call : Call U) → call.Answer → Prop
  | .construct _ make _, answer =>
      (∃ content, answer = .ok content) ∧ ¬ fails make ∨
        (∃ failure, answer = .error failure) ∧ fails make
  | .decorate _ _ _ _ _, answer => ∃ content, answer = .ok content
  | .accepts _, answer => answer = true
  | _, _ => True

/-- The functions of the client always succeed, but for some constructors that always fail.  They
use no containers, and contexts that are usable stay so. -/
def Behaviour.GrantsBut (behaviour : Behaviour U σ) (fails : U.Constructor → Prop) : Prop :=
  ∀ call world, ∃ answer contexts memory,
    behaviour call world = some (answer, { state := { world.state with contexts }, memory }) ∧
      call.GrantedBut fails answer ∧ ∀ context, world.state.contexts.error? context = none →
        contexts.error? context = none

/-- Functions that always succeed are functions of which none fails. -/
theorem Behaviour.Grants.but (grants : behaviour.Grants) : behaviour.GrantsBut fun _ => False := by
  intro call world
  obtain ⟨answer, contexts, memory, answers, granted, still⟩ := grants call world
  refine ⟨answer, contexts, memory, answers, ?_, still⟩
  cases call with
  | construct site make arguments => exact .inl ⟨granted, not_false⟩
  | decorate site key transform target arguments => exact granted
  | accepts value => exact granted
  | _ => trivial

variable {fails : U.Constructor → Prop}

theorem Behaviour.GrantsBut.detached (grants : behaviour.GrantsBut fails) :
    behaviour.Detached := by
  intro call world answer after runs
  obtain ⟨_, contexts, memory, answers, _⟩ := grants call world
  rw [answers] at runs
  cases runs
  exact ⟨contexts, rfl⟩

/-- Functions that answer as they should succeed. -/
theorem Functions.Answers.granted {call : Call U} {answer : call.Answer}
    (answers : functions.Answers call answer) : call.Granted answer := by
  cases call with
  | construct site make arguments => exact ⟨_, answers⟩
  | decorate site key transform target arguments => exact ⟨_, answers⟩
  | accepts value => exact answers
  | _ => trivial

/-- A client whose functions compute something has functions that succeed. -/
theorem Behaviour.Computes.grants (computes : behaviour.Computes functions) :
    behaviour.Grants := by
  intro call world
  obtain ⟨answer, memory, runs, answers⟩ := computes call world
  exact ⟨answer, world.state.contexts, memory, runs, answers.granted, fun _ usable => usable⟩

theorem Behaviour.Grants.detached (grants : behaviour.Grants) : behaviour.Detached :=
  grants.but.detached

theorem Behaviour.Computes.detached (computes : behaviour.Computes functions) :
    behaviour.Detached :=
  computes.grants.detached

/-- The obliging client has functions that succeed. -/
theorem Behaviour.obliging_grants : Behaviour.obliging.Grants := by
  intro call world
  cases call with
  | construct site make arguments => exact ⟨_, _, _, rfl, ⟨_, rfl⟩, fun _ usable => usable⟩
  | decorate site key transform target arguments =>
      exact ⟨_, _, _, rfl, ⟨_, rfl⟩, fun _ usable => usable⟩
  | accepts value => exact ⟨_, _, _, rfl, rfl, fun _ usable => usable⟩
  | _ => exact ⟨_, _, _, rfl, trivial, fun _ usable => usable⟩

/-- What a program that only makes values comes to alone is of its sort, and the world is alike. -/
theorem Program.Only.alike {yields : α → Prop} {program : Program U α}
    (only : program.Only Event.Making yields) (grants : behaviour.GrantsBut fails)
    {world last : World U σ} {result : α}
    (runs : program.run behaviour world = some (result, last)) :
    yields result ∧ world.Alike last := by
  induction program generalizing world with
  | done result =>
      cases runs
      exact ⟨only, .refl _⟩
  | perform operation next ih =>
      obtain ⟨answer, state, performs, rest⟩ := Program.run_perform_eq_some.mp runs
      obtain ⟨ends, alike⟩ := ih answer (only answer).2 rest
      exact ⟨ends, (World.Alike.ofMaking (only answer).1 performs).trans alike⟩
  | ask call next ih =>
      obtain ⟨answer, contexts, memory, answers, _, still⟩ := grants call world
      simp only [Program.run, answers] at runs
      obtain ⟨ends, alike⟩ := ih answer (only.2 answer).2 runs
      exact ⟨ends, (World.Alike.ofCall world memory still).trans alike⟩
  | never => cases runs

/-! ## Succeeding -/

/-- Alone, a request returns with a value, and something holds of it and the world then. -/
def Request.Succeeds (request : Request U α) (behaviour : Behaviour U σ) (world : World U σ)
    (post : α → World U σ → Prop) : Prop :=
  ∃ value last, request.alone behaviour world = some (.ok value, last) ∧ post value last

namespace Request

variable {world : World U σ} {post : α → World U σ → Prop}

theorem Succeeds.mono {request : Request U α} {weaker : α → World U σ → Prop}
    (succeeds : request.Succeeds behaviour world post)
    (implies : ∀ value last, post value last → weaker value last) :
    request.Succeeds behaviour world weaker := by
  obtain ⟨value, last, runs, holds⟩ := succeeds
  exact ⟨value, last, runs, implies value last holds⟩

theorem succeeds_pure {value : α} (holds : post value world) :
    (pure value : Request U α).Succeeds behaviour world post :=
  ⟨value, world, rfl, holds⟩

/-- One request after another succeeds if both do. -/
theorem succeeds_bind {request : Request U α} {next : α → Request U β}
    {post' : β → World U σ → Prop} (first : request.Succeeds behaviour world post)
    (second : ∀ value last, post value last → (next value).Succeeds behaviour last post') :
    (request >>= next).Succeeds behaviour world post' := by
  obtain ⟨value, middle, runs, holds⟩ := first
  obtain ⟨result, last, runs', holds'⟩ := second value middle holds
  exact ⟨result, last, (alone_bind_ok runs).trans runs', holds'⟩

/-- An operation that can be performed succeeds. -/
theorem succeeds_bind_act {operation : Operation U} {next : operation.Answer → Request U α}
    {answer : operation.Answer} {state : State U}
    (performs : operation.perform world.state = some (answer, state))
    (rest : (next answer).Succeeds behaviour { world with state } post) :
    (act operation >>= next).Succeeds behaviour world post := by
  obtain ⟨result, last, runs, holds⟩ := rest
  exact ⟨result, last, (alone_bind_act performs).trans runs, holds⟩

/-- A function that does not fail succeeds. -/
theorem succeeds_bind_call {call : Call U} {next : call.Answer → Request U α}
    (grants : behaviour.GrantsBut fails)
    (rest : ∀ answer after, call.GrantedBut fails answer → world.Alike after →
      (next answer).Succeeds behaviour after post) :
    (callClient call >>= next).Succeeds behaviour world post := by
  obtain ⟨answer, contexts, memory, answers, granted, still⟩ := grants call world
  obtain ⟨result, last, runs, holds⟩ := rest answer _ granted (.ofCall world memory still)
  refine ⟨result, last, (alone_bind_call call next).trans ?_, holds⟩
  rw [answers]
  exact runs

/-- A request whose outcome is taken as it is, and then another one. -/
theorem succeeds_bind_run {request : Request U α} {next : Except Error α → Request U β}
    {post' : β → World U σ → Prop} (first : request.Succeeds behaviour world post)
    (second : ∀ value last, post value last → (next (.ok value)).Succeeds behaviour last post') :
    (ExceptT.lift request.run >>= next : Request U β).Succeeds behaviour world post' := by
  obtain ⟨value, middle, runs, holds⟩ := first
  obtain ⟨result, last, runs', holds'⟩ := second value middle holds
  let lifted : Request U (Except Error α) := ExceptT.lift request.run
  have lifts : lifted.alone behaviour world = some (.ok (.ok value), middle) :=
    (Program.run_andThen ..).trans (Option.bind_eq_some_iff.mpr ⟨_, runs, rfl⟩)
  exact ⟨result, last, (alone_bind_ok lifts).trans runs', holds'⟩

/-- An outcome that is a value succeeds. -/
theorem succeeds_bind_ofExcept {value : α} {next : α → Request U β}
    {post' : β → World U σ → Prop} (rest : (next value).Succeeds behaviour world post') :
    (ofExcept (.ok value) >>= next).Succeeds behaviour world post' :=
  rest

/-- A request that succeeds does so along with what can be said of its text. -/
theorem Succeeds.along {request : Request U α} {yields : Except Error α → Prop}
    (only : Request.Only Event.Making yields request) (grants : behaviour.GrantsBut fails)
    (succeeds : request.Succeeds behaviour world post) :
    request.Succeeds behaviour world fun value last =>
      post value last ∧ yields (.ok value) ∧ world.Alike last := by
  obtain ⟨value, last, runs, holds⟩ := succeeds
  exact ⟨value, last, runs, holds, Program.Only.alike only grants runs⟩

end Request

/-! ## Making values -/

section Making

open Request

variable {world : World U σ} {scope : ScopeId} {context : ContextId}

/-- A context that is usable is found so. -/
theorem succeeds_ensureUsable (usable : world.state.contexts.error? context = none) :
    (ensureUsable context).Succeeds behaviour world fun _ last => last = world :=
  ⟨(), world, alone_ensureUsable usable, rfl⟩

/-- A scope that is open is found so. -/
theorem succeeds_ensureOpen (opened : (world.state.scope scope).closed = false) :
    (ensureOpen scope).Succeeds behaviour world fun _ last => last = world :=
  ⟨(), world, alone_ensureOpen opened, rfl⟩

variable (grants : behaviour.GrantsBut fails)

include grants

/-- Notices are reported without fail. -/
theorem succeeds_report (notice : Notice) :
    (Request.report notice : Request U Unit).Succeeds behaviour world fun _ last =>
      world.Alike last := by
  obtain ⟨answer, contexts, memory, answers, _, still⟩ := grants (.report notice) world
  refine ⟨(), _, ?_, .ofCall world memory still⟩
  exact (Request.alone_bind_call (.report notice) fun answer => pure answer).trans
    (by rw [answers]; rfl)

/-- An open scope takes closers. -/
theorem succeeds_attachCloser (recipe : Recipe U) (subject : Value U)
    (opened : (world.state.scope scope).closed = false) :
    (attachCloser scope context recipe subject).Succeeds behaviour world fun _ _ => True := by
  unfold attachCloser
  cases recipe.closerFor? subject with
  | none => exact succeeds_pure trivial
  | some closer =>
      have performs : ∃ state, (Operation.attach scope closer).perform world.state =
          some (true, state) := by
        simp only [Operation.perform, opened]
        exact ⟨_, rfl⟩
      obtain ⟨state, performs⟩ := performs
      exact succeeds_bind_act performs ((succeeds_report grants _).mono fun _ _ _ => trivial)

/-- Arguments that fit their parameters are taken. -/
theorem succeeds_takeAll {params : List Param} {arguments : List (Argument U)}
    (fits : List.Forall₂ (Fits Typed) params arguments) :
    (takeAll params arguments).Succeeds behaviour world fun _ _ => True := by
  induction fits generalizing world with
  | nil => exact succeeds_pure trivial
  | @cons param argument params arguments fit _ ih =>
      cases fit with
      | context context => exact ih
      | scope handle => exact ih
      | @service key value typed =>
          rw [takeAll, takes_typed typed]
          refine succeeds_bind_call grants fun accepted _ granted _ => ?_
          have accepts : accepted = true := granted
          subst accepts
          exact ih

/-- A recipe whose constructor does not fail produces something. -/
theorem succeeds_produce {recipe : Recipe U} {arguments : List (Argument U)}
    (sound : ∀ make, recipe.source = .factory make → ¬ fails make)
    (fits : List.Forall₂ (Fits Typed) recipe.params arguments) :
    (recipe.produce scope arguments).Succeeds behaviour world fun _ _ => True := by
  unfold Recipe.produce
  cases source : recipe.source with
  | value content => exact succeeds_pure trivial
  | list item => exact succeeds_pure trivial
  | factory make =>
      refine succeeds_bind (succeeds_takeAll grants fits) fun _ _ _ => ?_
      refine succeeds_bind_call grants fun answer _ granted _ => ?_
      rcases granted with ⟨⟨content, rfl⟩, _⟩ | ⟨_, failing⟩
      · exact succeeds_pure trivial
      · exact absurd failing (sound make source)

/-- An instance is made if its arguments have the types of their parameters, and its constructor is
none that fails. -/
theorem succeeds_construct {recipe : Recipe U} {arguments : List (Argument U)} (flag : FlagId)
    (closeMade : Bool) (sound : ∀ make, recipe.source = .factory make → ¬ fails make)
    (usable : world.state.contexts.error? context = none)
    (opened : (world.state.scope scope).closed = false)
    (fits : List.Forall₂ (Fits Typed) recipe.params arguments) :
    (construct scope context recipe arguments flag closeMade).Succeeds behaviour world
      fun _ _ => True := by
  refine succeeds_bind (succeeds_ensureUsable usable) ?_
  rintro _ _ rfl
  refine succeeds_bind (succeeds_report grants _) fun _ reported alike => ?_
  have making := (only_produce recipe scope arguments).mono (fun _ => Event.Serving.making)
    fun _ makes => makes
  refine succeeds_bind_run ((succeeds_produce grants sound fits).along making grants) ?_
  rintro made produced ⟨_, _, alike'⟩
  refine succeeds_bind_act rfl (succeeds_bind_ofExcept ?_)
  have alike := (alike.trans alike').trans (.ofRaise produced flag)
  refine succeeds_bind (succeeds_ensureUsable (alike.usable usable)) ?_
  rintro _ _ rfl
  cases closeMade with
  | false => exact succeeds_pure trivial
  | true =>
      refine succeeds_bind (succeeds_attachCloser grants _ _ (alike.opened opened)) ?_
      exact fun _ _ _ => succeeds_pure trivial

/-! ## Finishing values -/

/-- A value of the type that is made can be converted. -/
theorem succeeds_convert {binding : Binding U} (key : Key) {value : Value U}
    (typed : value.type = binding.recipe.produces) :
    (binding.convert scope key value).Succeeds behaviour world fun _ _ => True := by
  unfold Binding.convert
  cases binding.cast with
  | none => exact succeeds_pure trivial
  | some cast =>
      simp only [typed, if_true]
      exact succeeds_bind_call grants fun _ _ _ _ => succeeds_pure trivial

variable {site : Site U} {stage : Stage U} {stages : List (Stage U)}

/-- A stage whose arguments fit is applied. -/
theorem succeeds_apply {value : Value U} (typed : value.type = stage.decorator.target.type)
    (fits : List.Forall₂ (Fits Typed) stage.decorator.params stage.arguments) :
    (stage.apply site value).Succeeds behaviour world fun _ _ => True := by
  unfold Stage.apply
  simp only [typed, if_true]
  refine succeeds_bind (succeeds_takeAll grants fits) fun _ _ _ => ?_
  refine succeeds_bind_call grants fun answer _ granted _ => ?_
  obtain ⟨content, rfl⟩ := granted
  exact succeeds_pure trivial

/-- Stages whose arguments fit are all applied. -/
theorem succeeds_decorateAll {value : Value U} {type : ServiceType} (typed : value.type = type)
    (targets : ∀ stage ∈ stages, stage.decorator.target.type = type)
    (fits : ∀ stage ∈ stages, List.Forall₂ (Fits Typed) stage.decorator.params stage.arguments) :
    (decorateAll site stages value).Succeeds behaviour world fun _ _ => True := by
  induction stages generalizing value world with
  | nil => exact succeeds_pure trivial
  | cons stage stages ih =>
      have isTarget := targets stage List.mem_cons_self
      have making := (only_apply stage site value).mono (fun _ => Event.Serving.making)
        fun _ makes => makes
      have applies : (stage.apply site value).Succeeds behaviour world fun _ _ => True :=
        succeeds_apply grants (typed.trans isTarget.symm) (fits stage List.mem_cons_self)
      refine succeeds_bind_run (applies.along making grants) ?_
      rintro decorated _ ⟨_, makes, _⟩
      refine succeeds_bind_act rfl (succeeds_bind_ofExcept ?_)
      exact ih ((makes.type trivial decorated rfl).trans isTarget)
        (fun other member => targets other (List.mem_cons_of_mem _ member))
        fun other member => fits other (List.mem_cons_of_mem _ member)

/-- An instance is finished if the arguments of its decorators have the types of their
parameters. -/
theorem succeeds_finish {binding : Binding U} (key : Key) {made : Value U}
    (opened : (world.state.scope scope).closed = false)
    (typed : made.type = binding.recipe.produces)
    (uncast : binding.cast = none → binding.recipe.produces = binding.registered.type)
    (targets : ∀ stage ∈ stages, stage.decorator.target.type = binding.registered.type)
    (fits : ∀ stage ∈ stages, List.Forall₂ (Fits Typed) stage.decorator.params stage.arguments) :
    (finish scope context key binding stages made).Succeeds behaviour world fun _ _ => True := by
  have converting := (only_convert binding scope key made).mono (fun _ => Event.Serving.making)
    fun _ makes => makes
  have converts : (binding.convert scope key made).Succeeds behaviour world fun _ _ => True :=
    succeeds_convert grants key typed
  refine succeeds_bind (converts.along converting grants) ?_
  rintro converted middle ⟨_, isConverted, alike⟩
  have type := isConverted.type (fun none => typed.trans (uncast none)) converted rfl
  have decorating := (only_decorateAll ⟨scope, binding.recipe⟩ stages converted
    binding.registered.type).mono (fun _ => Event.Serving.making) fun _ makes => makes
  have decorates : (decorateAll ⟨scope, binding.recipe⟩ stages converted).Succeeds behaviour middle
      fun _ _ => True := succeeds_decorateAll grants type targets fits
  refine succeeds_bind (decorates.along decorating grants) ?_
  rintro value last ⟨_, _, alike'⟩
  by_cases none : binding.cast.isNone = true
  · simp only [none, if_true]
    refine succeeds_bind (succeeds_attachCloser grants _ _ ?_) fun _ _ _ => succeeds_pure trivial
    exact (alike.trans alike').opened opened
  · simp only [none]
    exact succeeds_pure trivial

end Making

end Provision
