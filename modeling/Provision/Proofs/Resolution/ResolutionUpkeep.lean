import Provision.Proofs.Execution.RequestConduct
import Provision.Proofs.Execution.Moments
import Provision.Proofs.Registries.ScopeTree
import Mathlib.Data.List.Forall2

/-!
# Upkeep during resolution

Resolution looks up a binding, finds the scope that keeps the value, and resolves all parameters
before anything is made.  An `Upkeep` says what a statement about moments has to satisfy in order
to hold from one request for a key to the next, what results then satisfy, and what becomes of an
error on its way up; for the part that makes and keeps a value it asks the proof itself.

Main statement: `Upkeep.resolve`, which follows the recursion of resolution once for all.
-/

namespace Provision

open Moment

variable {U : Client}

/-- The operations that concern no cell, no closer and no scope. -/
def Operation.Idle : Operation U → Prop
  | .contextError _ => True
  | .isClosed _ => True
  | .isDropped _ => True
  | .peek _ _ => True
  | .newFlag => True
  | .raise _ => True
  | .isRaised _ => True
  | _ => False

/-- The calls that make, decorate, convert and close nothing. -/
def Call.Idle : Call U → Prop
  | .enact _ _ => True
  | .accepts _ => True
  | .report _ => True
  | _ => False

/-- Operations and calls that are idle. -/
def Event.Idle : Event U → Prop
  | .performed operation _ => operation.Idle
  | .called call => call.Idle
  | .returned call _ => call.Idle
  | _ => False

/-- An error that does not come from a dependency cycle. -/
def Error.Acyclic (error : Error) : Prop :=
  ∀ chain, error.root ≠ .cycle chain

/-- An error of creation itself: a function of the client failed, a value was not of the type that
its use requires, the context was done or the scope closed. -/
def Error.OfCreation : Error → Prop
  | .creationFailed _ _ => True
  | .typeMismatch _ => True
  | .contextDone _ => True
  | .closed => True
  | _ => False

/-- An error that a request for a key finds itself, not one that it is told by a request for a
dependency, and no cycle. -/
def Error.Direct : Error → Prop
  | .dependency _ _ _ => False
  | .cycle _ => False
  | _ => True

/-- An error of creation is an error of the service itself. -/
theorem Error.OfCreation.direct {error : Error} (creation : error.OfCreation) : error.Direct := by
  cases error <;> first | exact trivial | exact creation.elim

/-- An error of a service itself comes from no cycle. -/
theorem Error.Direct.acyclic {error : Error} (direct : error.Direct) : error.Acyclic := by
  intro chain
  cases error <;> first | exact direct.elim | simp [Error.root]

/-- The scope that keeps what a binding yields to a scope, as far as there is one. -/
def Binding.home? (binding : Binding U) (scope : Scope U) : Option (Scope U) :=
  match binding.recipe.lifetime with
  | .singleton => scope.ancestor? binding.owner
  | .perScope => if scope.id = binding.owner then none else some scope
  | .transient => some scope

/-- The home of a service is above the scopes that see it. -/
theorem Binding.above_of_home {binding : Binding U} {scope home : Scope U}
    (isHome : binding.home? scope = some home) : home.Above scope := by
  unfold Binding.home? at isHome
  cases lifetime : binding.recipe.lifetime with
  | singleton =>
      rw [lifetime] at isHome
      exact .ofAncestor isHome
  | perScope =>
      simp only [lifetime, Option.ite_none_left_eq_some, Option.some.injEq] at isHome
      exact isHome.2 ▸ .refl _
  | transient =>
      rw [lifetime] at isHome
      exact Option.some.inj isHome ▸ .refl _

/-- Whether a binding is for a fixed value. -/
def Binding.IsValue (binding : Binding U) : Prop :=
  ∃ content, binding.recipe.source = .value content

/-- A key is bound in a scope, to something that has to be made in its home. -/
structure Scope.Finds (scope : Scope U) (key : Key) (binding : Binding U) (home : Scope U) :
    Prop where
  bound : scope.registry.find? key = some binding
  made : ¬ binding.IsValue
  home : binding.home? scope = some home

/-- The keys on which a service depends in its home: those of its constructor and those of its
decorators. -/
def Binding.Needs (binding : Binding U) (home : Scope U) (dependency : Key) : Prop :=
  .service dependency ∈ binding.recipe.params ∨
    ∃ decorator ∈ home.registry.decoratorsOf binding.registered,
      .service dependency ∈ decorator.params

/-- What resolution does with its inputs: it makes the instance and finishes it. -/
def produceFrom (home : Scope U) (context : ContextId) (key : Key) (binding : Binding U)
    (inputs : Inputs U) : Request U (Value U) := do
  let recipe := binding.recipe
  let kept := recipe.lifetime.isKept
  let made ← keepIf kept home.id (.made recipe.id)
    (construct home.id context recipe inputs.arguments inputs.flag binding.cast.isSome)
  keepIf kept home.id (.shown recipe.id binding.registered)
    (finish home.id context key binding inputs.stages made)

/-- To create a value is to resolve what it needs, then to produce it. -/
theorem Resolver.create_eq (resolver : Resolver U) (scope : Scope U) (context : ContextId)
    (key : Key) (binding : Binding U) (active : List Key) :
    resolver.create scope context key binding active =
      (do
        let inputs ← resolver.inputs scope context key binding (active ++ [key])
        produceFrom scope context key binding inputs) := rfl

/-- An argument for a parameter, if services satisfy a statement. -/
inductive Fits (yields : Key → Value U → Prop) : Param → Argument U → Prop where
  | context (context : ContextId) : Fits yields .context (.context context)
  | scope (handle : Handle U) : Fits yields .scope (.scope handle)
  | service {key : Key} {value : Value U} :
      yields key value → Fits yields (.service key) (.service value)

/-- A service has the type of a key. -/
abbrev Typed (key : Key) (value : Value U) : Prop :=
  value.type = key.type

theorem Fits.mono {yields other : Key → Value U → Prop} {param : Param} {argument : Argument U}
    (fits : Fits yields param argument) (weaker : ∀ key value, yields key value → other key value) :
    Fits other param argument := by
  cases fits with
  | context context => exact .context context
  | scope handle => exact .scope handle
  | service holds => exact .service (weaker _ _ holds)

/-- A parameter is asked whether it accepts a service of its type. -/
theorem takes_typed {key : Key} {value : Value U} (typed : Typed key value) :
    takes (.service key) (.service value) = Request.callClient (.accepts value) :=
  if_pos typed

/-- Where all parameters ask for items of a list, the arguments are as many services of its type. -/
theorem services_of_fits {item : ServiceType} {params : List Param} {arguments : List (Argument U)}
    (fits : List.Forall₂ (Fits Typed) params arguments)
    (listed : ∀ param ∈ params, ∃ index, param = .service (.item item index)) :
    ∃ values : List (Value U), arguments = values.map .service ∧
      values.length = params.length ∧ ∀ value ∈ values, value.type = item := by
  induction fits with
  | nil => exact ⟨[], rfl, rfl, nofun⟩
  | @cons param argument params arguments fit _ ih =>
      obtain ⟨⟨index, rfl⟩, others⟩ := List.forall_mem_cons.mp listed
      obtain ⟨values, rfl, length, typed⟩ := ih others
      cases fit with
      | @service _ value isItem =>
          exact ⟨value :: values, rfl, congrArg Nat.succ length,
            List.forall_mem_cons.mpr ⟨isItem, typed⟩⟩

/-- Items of the right type are all taken up into the list. -/
theorem itemsOf_services {item : ServiceType} {values : List (Value U)}
    (typed : ∀ value ∈ values, value.type = item) :
    itemsOf item (values.map .service) = values.map Value.content := by
  induction values with
  | nil => rfl
  | cons value values ih =>
      obtain ⟨isItem, typed⟩ := List.forall_mem_cons.mp typed
      rw [List.map_cons, List.map_cons, ← ih typed]
      simp [itemsOf, isItem]

/-- What holds when a request ends: one statement about a result and one about an error. -/
def Ends {α : Type} (result : α → Moment U → Prop) (error : Error → Moment U → Prop)
    (outcome : Except Error α) (moment : Moment U) : Prop :=
  match outcome with
  | .ok value => result value moment
  | .error failure => error failure moment

/-- Where nothing is said of results and errors, what holds afterwards is all there is to show. -/
theorem Ends.of_holds {α : Type} {holds : Moment U → Prop} {outcome : Except Error α}
    {moment : Moment U} (still : holds moment) :
    Ends (fun _ moment => holds moment ∧ True) (fun _ _ => True) outcome moment := by
  cases outcome with
  | ok value => exact ⟨still, trivial⟩
  | error error => trivial

/-- Where nothing is asked of an end, every outcome will do. -/
theorem Ends.of_trivial {α : Type} {outcome : Except Error α} {moment : Moment U} :
    Ends (fun _ _ => True) (fun _ _ => True) outcome moment := by
  cases outcome <;> exact trivial

/-- A request looked at the instance of a recipe and found it. -/
def Recalls (id : RequestId) (scope : ScopeId) (recipe : Recipe U) (moment : Moment U) : Prop :=
  ∃ outcome, moment.Did id (.performed (.peek scope (.made recipe.id)) (some outcome))

/-- Inputs that are as many and of the kinds that a binding needs.  Only if the instance is kept
already are the arguments of its constructor missing. -/
structure Inputs.Suit (inputs : Inputs U) (yields : Key → Value U → Prop) (binding : Binding U)
    (home : Scope U) (recalled : Prop) : Prop where
  arguments : (binding.recipe.lifetime.isKept = true ∧ recalled) ∨
    List.Forall₂ (Fits yields) binding.recipe.params inputs.arguments
  decorators : inputs.stages.map Stage.decorator =
    home.registry.decoratorsOf binding.registered
  stages : ∀ stage ∈ inputs.stages,
    List.Forall₂ (Fits yields) stage.decorator.params stage.arguments

theorem Inputs.Suit.mono {inputs : Inputs U} {yields other : Key → Value U → Prop}
    {binding : Binding U} {home : Scope U} {recalled still : Prop}
    (suit : inputs.Suit yields binding home recalled)
    (weaker : ∀ key value, yields key value → other key value) (stays : recalled → still) :
    inputs.Suit other binding home still where
  arguments := by
    rcases suit.arguments with ⟨kept, was⟩ | fits
    · exact .inl ⟨kept, stays was⟩
    · exact .inr (fits.imp fun _ _ fit => fit.mono weaker)
  decorators := suit.decorators
  stages := fun stage member => (suit.stages stage member).imp fun _ _ fit => fit.mono weaker

/-- What is past stays past while a request is idle. -/
theorem Moment.stable_suffix (rely : Conduct U) (origin : Moment U) (id : RequestId) :
    Stable rely id Event.Idle fun moment => origin.history <:+ moment.history :=
  fun passage grown => grown.trans passage.suffix

/-- What requests for keys uphold: `holds` before and after each, `yields` of a value for a key of
a scope, and `failed` of the error of a request made while other keys are being resolved. -/
structure Upkeep (rely guar : Conduct U) (id : RequestId) where
  holds : Moment U → Prop
  among : Scope U → Prop
  yields : Moment U → Scope U → Key → Value U → Prop
  failed : Moment U → Scope U → Key → List Key → Error → Prop
  stable : Stable rely id Event.Idle holds
  harmless : ∀ moment event, holds moment → event.Idle → guar moment ⟨id, event⟩
  ancestor : ∀ {scope wanted above}, among scope → scope.ancestor? wanted = some above →
    among above
  lasts : ∀ {moment next scope key value}, moment.history <:+ next.history →
    yields moment scope key value → yields next scope key value
  plain : ∀ {moment scope key active error}, holds moment → error.Acyclic →
    failed moment scope key active error
  cycle : ∀ {moment scope key active binding home}, holds moment → scope.Finds key binding home →
    key ∈ active → failed moment scope key active (.cycle (cycleChain active key))
  dependency : ∀ {moment scope key active binding home needed error},
    scope.Finds key binding home → binding.Needs home needed → key ∉ active →
      failed moment home needed (active ++ [key]) error →
        failed moment scope key active (.dependency key needed error)
  recalled : ∀ {moment next scope key binding home} {outcome : Outcome U} (active : List Key),
    among scope → scope.Finds key binding home → binding.recipe.lifetime.isKept = true →
      moment.Lawful rely → holds moment →
        moment.state.kept? home.id (.shown binding.recipe.id binding.registered) = some outcome →
          Passage rely id Event.Idle moment next → next.Lawful rely →
            Ends (fun value last => yields last scope key value)
              (fun error last => failed last scope key active error) outcome next
  convert : ∀ {start scope key binding content} (active : List Key), among scope →
    scope.registry.find? key = some binding → binding.recipe.source = .value content →
      start.Lawful rely → holds start →
        Request.Keeps rely guar id
          (Ends (fun value moment => holds moment ∧ yields moment scope key value)
            (fun error moment => failed moment scope key active error))
          (binding.convert scope.id key { type := binding.recipe.produces, content }) start
  produce : ∀ {start scope key binding home inputs} (context : ContextId) (active : List Key),
    among scope → scope.Finds key binding home → start.Lawful rely → holds start →
      inputs.Suit (yields start home) binding home
        (Recalls id home.id binding.recipe start) →
        Request.Keeps rely guar id
          (Ends (fun value moment => holds moment ∧ yields moment scope key value)
            (fun error moment => failed moment scope key active error))
          (produceFrom home context key binding inputs) start

/-! ## Idle requests -/

/-- Failing with an acyclic error, if at all. -/
def Acyclic {α : Type} (outcome : Except Error α) : Prop :=
  ∀ error, outcome = .error error → error.Acyclic

theorem Acyclic.ok {α : Type} (value : α) : Acyclic (.ok value) := nofun

theorem Acyclic.error {α : Type} {error : Error} (acyclic : error.Acyclic) :
    Acyclic (.error error : Except Error α) := by
  rintro _ ⟨⟩
  exact acyclic

/-- Failing with an error of creation itself, if at all. -/
def Creates {α : Type} (outcome : Except Error α) : Prop :=
  ∀ error, outcome = .error error → error.OfCreation

theorem Creates.ok {α : Type} (value : α) : Creates (.ok value) := nofun

theorem Creates.error {α : Type} {error : Error} (creation : error.OfCreation) :
    Creates (.error error : Except Error α) := by
  rintro _ ⟨⟩
  exact creation

/-- A creation comes from no cycle. -/
theorem Creates.acyclic {α : Type} {outcome : Except Error α} (creates : Creates outcome) :
    Acyclic outcome :=
  fun error fails => (creates error fails).direct.acyclic

/-- Looking at a context is idle. -/
theorem only_ensureUsable (context : ContextId) :
    Request.Only (@Event.Idle U) Creates (ensureUsable context) := by
  refine Request.only_bind_act fun answer => ⟨trivial, ?_⟩
  cases answer with
  | none => exact Creates.ok _
  | some reason => exact Creates.error trivial

/-- Looking whether a scope is open is idle. -/
theorem only_ensureOpen (scope : ScopeId) :
    Request.Only (@Event.Idle U) Creates (ensureOpen scope) := by
  refine Request.only_bind_act fun closed => ⟨trivial, ?_⟩
  cases closed with
  | false => exact Creates.ok _
  | true => exact Creates.error trivial

/-- Finding the scope that keeps a value is idle, and finds its home. -/
theorem only_effectiveScope (scope : Scope U) (key : Key) (binding : Binding U) :
    Request.Only Event.Idle
      (fun outcome => (∀ home, outcome = .ok home → binding.home? scope = some home) ∧
        ∀ error, outcome = .error error → error.Direct)
      (effectiveScope scope key binding) := by
  unfold effectiveScope Binding.home?
  cases binding.recipe.lifetime with
  | singleton =>
      cases found : scope.ancestor? binding.owner with
      | none => exact ⟨nofun, by rintro _ ⟨⟩; exact trivial⟩
      | some owner =>
          refine Request.only_bind (only_ensureOpen owner.id) ?_ ?_
          · intro error creates
            exact ⟨nofun, by rintro _ ⟨⟩; exact (creates error rfl).direct⟩
          · rintro _ _
            exact ⟨fun home same => Except.ok.inj same ▸ rfl, nofun⟩
  | perScope =>
      by_cases owns : scope.id = binding.owner
      · simp only [owns, if_true]
        exact ⟨nofun, by rintro _ ⟨⟩; exact trivial⟩
      · simp only [owns, if_false]
        exact ⟨fun home same => Except.ok.inj same ▸ rfl, nofun⟩
  | transient => exact ⟨fun home same => Except.ok.inj same ▸ rfl, nofun⟩

namespace Upkeep

variable {rely guar : Conduct U} {id : RequestId} (upkeep : Upkeep rely guar id)
  {start : Moment U}

/-- Idle requests change nothing of what is upheld. -/
theorem idle {α : Type} {yields : Except Error α → Prop} {request : Request U α}
    (only : Request.Only Event.Idle yields request) (holds : upkeep.holds start) :
    Request.Keeps rely guar id (fun outcome moment => yields outcome ∧ upkeep.holds moment)
      request start :=
  Program.Only.upholds only upkeep.stable upkeep.harmless holds

/-- What is upheld still holds after others have acted. -/
theorem meanwhile {moment : Moment U} (passage : Interference rely id start moment)
    (holds : upkeep.holds start) : upkeep.holds moment :=
  upkeep.stable passage.ofInterference holds

/-- What resolution upholds among scopes it upholds in the homes of their services. -/
theorem among_home {scope home : Scope U} {binding : Binding U} (among : upkeep.among scope)
    (isHome : binding.home? scope = some home) : upkeep.among home := by
  unfold Binding.home? at isHome
  cases lifetime : binding.recipe.lifetime with
  | singleton =>
      rw [lifetime] at isHome
      exact upkeep.ancestor among isHome
  | perScope =>
      simp only [lifetime, Option.ite_none_left_eq_some, Option.some.injEq] at isHome
      exact isHome.2 ▸ among
  | transient =>
      rw [lifetime] at isHome
      exact Option.some.inj isHome ▸ among

/-- How a request for a key of a scope ends. -/
abbrev Reaches (scope : Scope U) (key : Key) (active : List Key) :
    Outcome U → Moment U → Prop :=
  Ends (fun value moment => upkeep.holds moment ∧ upkeep.yields moment scope key value)
    fun error moment => upkeep.failed moment scope key active error

/-- How resolving the inputs of a binding in its home ends, for a key of a scope. -/
abbrev Readies (scope : Scope U) (key : Key) (active : List Key) (binding : Binding U)
    (home : Scope U) : Except Error (Inputs U) → Moment U → Prop :=
  Ends
    (fun inputs moment => upkeep.holds moment ∧ inputs.Suit (upkeep.yields moment home) binding
      home (Recalls id home.id binding.recipe moment))
    fun error moment => upkeep.failed moment scope key active error

/-- What a resolver upholds for every key. -/
def Upholds (resolver : Resolver U) : Prop :=
  ∀ {start : Moment U} {scope : Scope U} (context : ContextId) (key : Key) (active : List Key),
    upkeep.among scope → upkeep.holds start →
      Request.Keeps rely guar id (upkeep.Reaches scope key active)
        (resolver scope context key active) start

section Parameters

variable {upkeep} {resolver : Resolver U} {scope : Scope U} {service : Key} {active : List Key}
  (failed : Error → Moment U → Prop)

/-- Resolving an argument upholds what resolution upholds. -/
theorem Upholds.argument (resolves : upkeep.Upholds resolver) (among : upkeep.among scope)
    (holds : upkeep.holds start) (context : ContextId) (flag : FlagId) {param : Param}
    (wraps : ∀ needed error moment, param = .service needed →
      upkeep.failed moment scope needed active error →
        failed (.dependency service needed error) moment) :
    Request.Keeps rely guar id
      (Ends (fun argument moment => upkeep.holds moment ∧
        Fits (upkeep.yields moment scope) param argument) failed)
      (wrapDependency service param (resolver.argument scope context active flag param)) start := by
  cases param with
  | context =>
      exact Request.keeps_pure fun moment passage _ =>
        ⟨upkeep.meanwhile passage holds, .context context⟩
  | scope =>
      exact Request.keeps_pure fun moment passage _ =>
        ⟨upkeep.meanwhile passage holds, .scope _⟩
  | service needed =>
      have resolved : Request.Keeps rely guar id
          (Ends (fun argument moment => upkeep.holds moment ∧
              Fits (upkeep.yields moment scope) (.service needed) argument)
            (fun error moment => upkeep.failed moment scope needed active error))
          (resolver.argument scope context active flag (.service needed)) start := by
        refine Request.keeps_bind (resolves context needed active among holds) ?_ ?_
        · exact fun error moment _ reached => reached
        · intro value moment _ reached
          exact Request.keeps_pure fun later passage _ =>
            ⟨upkeep.meanwhile passage reached.1, .service (upkeep.lasts passage.suffix reached.2)⟩
      refine Request.keeps_tryCatch resolved.always ?_ ?_
      · exact fun argument moment lawful reached => reached moment (.refl _) lawful
      · intro error moment _ reached
        exact Request.keeps_fail fun later passage lawful =>
          wraps needed error later rfl (reached later passage lawful)

/-- The parameters of a constructor or a decorator, one after another. -/
theorem Upholds.arguments (resolves : upkeep.Upholds resolver) (among : upkeep.among scope)
    (holds : upkeep.holds start) (context : ContextId) (flag : FlagId) {params : List Param}
    (wraps : ∀ needed error moment, .service needed ∈ params →
      upkeep.failed moment scope needed active error →
        failed (.dependency service needed error) moment) :
    Request.Keeps rely guar id
      (Ends (fun arguments moment => upkeep.holds moment ∧
        List.Forall₂ (Fits (upkeep.yields moment scope)) params arguments) failed)
      (resolver.arguments scope context service active flag params) start := by
  induction params generalizing start with
  | nil =>
      exact Request.keeps_pure fun moment passage _ => ⟨upkeep.meanwhile passage holds, .nil⟩
  | cons param params ih =>
      refine Request.keeps_bind (resolves.argument failed among holds context flag ?_) ?_ ?_
      · rintro needed error moment rfl
        exact wraps needed error moment List.mem_cons_self
      · exact fun error moment _ reached => reached
      · intro first moment _ reached
        have rest := ih reached.1 fun needed error moment member =>
          wraps needed error moment (List.mem_cons_of_mem _ member)
        refine Request.keeps_bind rest.grows ?_ ?_
        · exact fun error moment _ reached => reached.2
        · intro rest last _ reached'
          obtain ⟨grown, holds', fits⟩ := reached'
          refine Request.keeps_pure fun later passage _ => ⟨upkeep.meanwhile passage holds', ?_⟩
          refine .cons ?_ (fits.imp fun _ _ fit => fit.mono ?_)
          · exact reached.2.mono fun _ _ =>
              upkeep.lasts (grown.trans passage.suffix)
          · exact fun _ _ => upkeep.lasts passage.suffix

/-- The decorators of a service, one after another. -/
theorem Upholds.stages (resolves : upkeep.Upholds resolver) (among : upkeep.among scope)
    (holds : upkeep.holds start) (context : ContextId) {decorators : List (Decorator U)}
    (wraps : ∀ decorator needed error moment, decorator ∈ decorators →
      .service needed ∈ decorator.params → upkeep.failed moment scope needed active error →
        failed (.dependency service needed error) moment) :
    Request.Keeps rely guar id
      (Ends (fun stages moment => upkeep.holds moment ∧
        stages.map Stage.decorator = decorators ∧ ∀ stage ∈ stages,
          List.Forall₂ (Fits (upkeep.yields moment scope)) stage.decorator.params
            stage.arguments) failed)
      (resolver.stages scope context service active decorators) start := by
  induction decorators generalizing start with
  | nil =>
      exact Request.keeps_pure fun moment passage _ =>
        ⟨upkeep.meanwhile passage holds, rfl, nofun⟩
  | cons decorator decorators ih =>
      refine Request.keeps_bind_act fun moment flag after passage _ recorded => ?_
      have holds' := upkeep.meanwhile passage holds
      refine ⟨upkeep.harmless _ _ holds' trivial, ?_⟩
      refine Request.keeps_bind (resolves.arguments failed among
        (upkeep.stable (.own (.refl _) recorded trivial) holds') context flag ?_) ?_ ?_
      · exact fun needed error moment => wraps decorator needed error moment List.mem_cons_self
      · exact fun error moment _ reached => reached
      · intro arguments middle _ reached
        have rest := ih reached.1 fun decorator needed error moment member =>
          wraps decorator needed error moment (List.mem_cons_of_mem _ member)
        refine Request.keeps_bind rest.grows ?_ ?_
        · exact fun error moment _ reached => reached.2
        · intro rest last _ reached'
          obtain ⟨grown, holds', same, fits⟩ := reached'
          refine Request.keeps_pure fun later passage _ =>
            ⟨upkeep.meanwhile passage holds', congrArg _ same, ?_⟩
          intro stage member
          rcases List.mem_cons.mp member with rfl | below
          · exact reached.2.imp fun _ _ fit => fit.mono fun _ _ =>
              upkeep.lasts (grown.trans passage.suffix)
          · exact (fits stage below).imp fun _ _ fit => fit.mono fun _ _ =>
              upkeep.lasts passage.suffix

end Parameters

section Making

variable {upkeep} {resolver : Resolver U} {scope home : Scope U} {key : Key}
  {binding : Binding U} {active : List Key}

/-- Looking whether an instance is made upholds what resolution upholds. -/
theorem keeps_isMade (holds : upkeep.holds start) (recipe : Recipe U) (scope : ScopeId) :
    Request.Keeps rely guar id
      (Ends (fun made moment => upkeep.holds moment ∧
        (made = true → recipe.lifetime.isKept = true ∧ Recalls id scope recipe moment))
        fun _ _ => False)
      (isMade scope recipe) start := by
  unfold isMade
  by_cases kept : recipe.lifetime.isKept = true
  · rw [if_pos kept]
    refine Request.keeps_bind_act fun moment answer after passage _ recorded => ?_
    have holds' := upkeep.meanwhile passage holds
    refine ⟨upkeep.harmless _ _ holds' trivial, Request.keeps_pure fun later passage' _ => ?_⟩
    refine ⟨upkeep.meanwhile passage' (upkeep.stable (.own (.refl _) recorded trivial) holds'), ?_⟩
    intro made
    obtain ⟨outcome, rfl⟩ := Option.isSome_iff_exists.mp made
    exact ⟨kept, outcome, passage'.suffix.mem recorded.did⟩
  · rw [if_neg kept]
    exact Request.keeps_pure fun moment passage _ => ⟨upkeep.meanwhile passage holds, nofun⟩

/-- Resolving what a service needs upholds what resolution upholds. -/
theorem Upholds.inputs (resolves : upkeep.Upholds resolver) (among : upkeep.among home)
    (holds : upkeep.holds start) (context : ContextId) (finds : scope.Finds key binding home)
    (inactive : key ∉ active) :
    Request.Keeps rely guar id (upkeep.Readies scope key active binding home)
      (resolver.inputs home context key binding (active ++ [key])) start := by
  unfold Resolver.inputs
  refine Request.keeps_bind_act fun moment flag after passage _ recorded => ?_
  have holds' := upkeep.meanwhile passage holds
  refine ⟨upkeep.harmless _ _ holds' trivial, ?_⟩
  refine Request.keeps_bind (keeps_isMade
    (upkeep.stable (.own (.refl _) recorded trivial) holds') binding.recipe home.id) ?_ ?_
  · exact fun _ _ _ impossible => impossible.elim
  intro made middle _ reached
  have staged : ∀ arguments settled, upkeep.holds settled →
      ((binding.recipe.lifetime.isKept = true ∧ Recalls id home.id binding.recipe settled) ∨
        List.Forall₂ (Fits (upkeep.yields settled home)) binding.recipe.params arguments) →
      Request.Keeps rely guar id (upkeep.Readies scope key active binding home) (do
        let stages ← resolver.stages home context key (active ++ [key])
          (home.registry.decoratorsOf binding.registered)
        pure { arguments, flag, stages }) settled := by
    intro arguments settled holds argued
    have stages := resolves.stages (fun error moment => upkeep.failed moment scope key active error)
      among holds context fun decorator needed error moment member needs failed =>
        upkeep.dependency finds (.inr ⟨decorator, member, needs⟩) inactive failed
    refine Request.keeps_bind stages.grows ?_ ?_
    · exact fun error moment _ reached => reached.2
    intro stages last _ staged
    obtain ⟨grown, holds', same, fits⟩ := staged
    refine Request.keeps_pure fun later passage _ => ⟨upkeep.meanwhile passage holds', ?_⟩
    have suit : Inputs.Suit { arguments, flag, stages } (upkeep.yields last home) binding home
        (Recalls id home.id binding.recipe last) := by
      refine ⟨?_, same, fits⟩
      rcases argued with ⟨kept, outcome, looked⟩ | argumentsFit
      · exact .inl ⟨kept, outcome, grown.mem looked⟩
      · exact .inr (argumentsFit.imp fun _ _ fit => fit.mono fun _ _ => upkeep.lasts grown)
    exact suit.mono (fun _ _ => upkeep.lasts passage.suffix) fun ⟨outcome, looked⟩ =>
      ⟨outcome, passage.suffix.mem looked⟩
  by_cases isMade : made = true
  · rw [if_pos isMade]
    exact staged [] middle reached.1 (.inl (reached.2 isMade))
  · rw [if_neg isMade]
    refine Request.keeps_bind (resolves.arguments
      (fun error moment => upkeep.failed moment scope key active error) among reached.1 context
        flag ?_) ?_ ?_
    · exact fun needed error moment member failed =>
        upkeep.dependency finds (.inl member) inactive failed
    · exact fun error moment _ reached => reached
    · exact fun arguments settled _ argued => staged arguments settled argued.1 (.inr argued.2)

/-- Making a value that is not kept yet. -/
theorem Upholds.create (resolves : upkeep.Upholds resolver) (among : upkeep.among scope)
    (amongHome : upkeep.among home) (holds : upkeep.holds start) (context : ContextId)
    (finds : scope.Finds key binding home) (inactive : key ∉ active) :
    Request.Keeps rely guar id (upkeep.Reaches scope key active)
      (resolver.create home context key binding active) start := by
  rw [Resolver.create_eq]
  refine Request.keeps_bind (resolves.inputs amongHome holds context finds inactive) ?_ ?_
  · exact fun error moment _ reached => reached
  · exact fun inputs moment lawful reached =>
      upkeep.produce context active among finds lawful reached.1 reached.2

/-- A key that is bound to something that has to be made, in the home of its value. -/
theorem Upholds.resolveIn (resolves : upkeep.Upholds resolver) (among : upkeep.among scope)
    (amongHome : upkeep.among home) (holds : upkeep.holds start) (context : ContextId)
    (finds : scope.Finds key binding home) :
    Request.Keeps rely guar id (upkeep.Reaches scope key active)
      (resolver.resolveIn home context key binding active) start := by
  have creates : ∀ moment, upkeep.holds moment → Request.Keeps rely guar id
      (upkeep.Reaches scope key active)
      (if key ∈ active then Request.fail (.cycle (cycleChain active key))
        else resolver.create home context key binding active) moment := by
    intro moment holds
    by_cases isActive : key ∈ active
    · rw [if_pos isActive]
      exact Request.keeps_fail fun later passage _ =>
        upkeep.cycle (upkeep.meanwhile passage holds) finds isActive
    · rw [if_neg isActive]
      exact resolves.create among amongHome holds context finds isActive
  unfold Resolver.resolveIn
  by_cases kept : binding.recipe.lifetime.isKept = true
  · have looks : recallShown home.id binding =
        Request.act (.peek home.id (.shown binding.recipe.id binding.registered)) := if_pos kept
    rw [looks]
    refine Request.keeps_bind_act fun moment recalled after passage lawful recorded => ?_
    have holds' := upkeep.meanwhile passage holds
    have looked := upkeep.stable (.own (.refl _) recorded trivial) holds'
    refine ⟨upkeep.harmless _ _ holds' trivial, ?_⟩
    cases recalled with
    | none => exact creates after looked
    | some outcome =>
        obtain ⟨found, _⟩ := Operation.perform_peek recorded.state
        have reports : Request.Only Event.Idle (fun last => last = outcome)
            (do
              Request.report (.resolvedFromCache key home.id)
              Request.ofExcept outcome : Request U (Value U)) :=
          Request.only_bind_call trivial fun _ => ⟨trivial, rfl⟩
        refine (reports.keeps ?_).mono ?_
        · exact fun later event passage _ idle =>
            upkeep.harmless _ _ (upkeep.stable passage looked) idle
        · rintro result later lawful' ⟨same, passage⟩
          rw [same]
          have ends := upkeep.recalled active among finds kept lawful holds' found
            ((Passage.own (.refl _) recorded trivial).trans passage) lawful'
          cases outcome with
          | error error => exact ends
          | ok value => exact ⟨upkeep.stable passage looked, ends⟩
  · have skips : recallShown home.id binding = pure none := if_neg kept
    rw [skips]
    exact creates start holds

/-- A key as seen from a scope, if the keys it depends on are. -/
theorem Upholds.resolve (resolves : upkeep.Upholds resolver) : upkeep.Upholds resolver.resolve := by
  intro start scope context key active among holds
  unfold Resolver.resolve
  refine Request.keeps_bind (upkeep.idle (only_ensureUsable context) holds) ?_ ?_
  · exact fun error moment _ reached => upkeep.plain reached.2 (reached.1 _ rfl).direct.acyclic
  rintro _ usable _ ⟨_, holds⟩
  refine Request.keeps_bind (upkeep.idle (only_ensureOpen scope.id) holds) ?_ ?_
  · exact fun error moment _ reached => upkeep.plain reached.2 (reached.1 _ rfl).direct.acyclic
  rintro _ opened lawful ⟨_, holds⟩
  cases bound : scope.registry.find? key with
  | none =>
      exact Request.keeps_fail fun moment passage _ =>
        upkeep.plain (upkeep.meanwhile passage holds) nofun
  | some binding =>
      have makes : ¬ binding.IsValue → Request.Keeps rely guar id
          (upkeep.Reaches scope key active)
          (do
            let effective ← effectiveScope scope key binding
            resolver.resolveIn effective context key binding active) opened := by
        intro made
        refine Request.keeps_bind
          (upkeep.idle (only_effectiveScope scope key binding) holds) ?_ ?_
        · exact fun error moment _ reached => upkeep.plain reached.2 (reached.1.2 _ rfl).acyclic
        · intro home moment _ reached
          have isHome := reached.1.1 home rfl
          exact resolves.resolveIn among (upkeep.among_home among isHome) reached.2 context
            ⟨bound, made, isHome⟩
      cases source : binding.recipe.source with
      | value content =>
          simp only [source]
          exact upkeep.convert active among bound source lawful holds
      | factory make =>
          simp only [source]
          exact makes fun ⟨_, isValue⟩ => by rw [source] at isValue; cases isValue
      | list item =>
          simp only [source]
          exact makes fun ⟨_, isValue⟩ => by rw [source] at isValue; cases isValue

/-- Requests nested to any depth. -/
theorem upholds_resolveWithin (depth : Nat) : upkeep.Upholds (resolveWithin depth) := by
  induction depth with
  | zero => exact fun _ _ _ _ _ => trivial
  | succ depth ih => exact ih.resolve

end Making

/-- Resolving a key upholds what requests for keys uphold. -/
theorem resolve {scope : Scope U} (context : ContextId) (key : Key) (among : upkeep.among scope)
    (holds : upkeep.holds start) :
    Request.Keeps rely guar id (upkeep.Reaches scope key []) (Provision.resolve scope context key)
      start :=
  upholds_resolveWithin (scope.registry.bound + 1) context key [] among holds

end Upkeep

end Provision
