import Provision.Proofs.Resolution.ResolutionUpkeep

/-!
# Type guards

Values travel with the type that they are held as, and before a value is used as one of some type,
a guard looks whether it is: when a service is converted to the type of a view, when a parameter
takes its argument, when a decorator is applied and a closer is given its subject, when the items of
a list are gathered, and when something is resolved as a service of a type.  Here the requests are
written with any guards in these places.

Main statement: `Guards.exact_request`, that with exact guards these are the requests themselves.
What a request does under lenient guards, which may let through anything besides what has the right
type, then says whether a guard ever turned something away.
-/

namespace Provision

variable {U : Client}

/-- What is looked at before a value is used as one of a type, and before a parameter takes its
argument, if there is one. -/
structure Guards (U : Client) where
  passes : Value U → ServiceType → Bool
  suits : Param → Option (Argument U) → Bool

namespace Guards

/-- Only a value of the type passes, and only an argument of the kind and the type suits. -/
def exact : Guards U where
  passes := fun value type => decide (value.type = type)
  suits := fun param argument? =>
    match param, argument? with
    | .context, some (.context _) => true
    | .scope, some (.scope _) => true
    | .service key, some (.service value) => decide (value.type = key.type)
    | _, _ => false

/-- Everything passes and suits, even an argument that is missing. -/
def lax : Guards U where
  passes := fun _ _ => true
  suits := fun _ _ => true

/-- At least what passes exact guards passes. -/
structure Lenient (guards : Guards U) : Prop where
  passes : ∀ value type, exact.passes value type = true → guards.passes value type = true
  suits : ∀ param argument?, exact.suits param argument? = true →
    guards.suits param argument? = true

/-- Exact guards let values of the right type pass. -/
theorem exact_lenient : (exact : Guards U).Lenient :=
  ⟨fun _ _ passes => passes, fun _ _ suits => suits⟩

/-- Guards that let everything pass let values of the right type pass. -/
theorem lax_lenient : (lax : Guards U).Lenient :=
  ⟨fun _ _ _ => rfl, fun _ _ _ => rfl⟩

variable (guards : Guards U)

/-! ## Requests under guards -/

/-- Convert a value to the type of the key it is bound under, if the recipe makes another. -/
def convert (binding : Binding U) (scope : ScopeId) (key : Key) (value : Value U) :
    Request U (Value U) :=
  match binding.cast with
  | none => pure value
  | some cast =>
      if guards.passes value binding.recipe.produces then do
        let content ← Request.callClient
          (.convert { scope, recipe := binding.recipe } binding.registered cast value.content)
        pure { type := binding.registered.type, content }
      else
        Request.fail (.typeMismatch key)

/-- Whether an argument suits its parameter, and the parameter takes it. -/
def takes (param : Param) (argument? : Option (Argument U)) : Request U Bool :=
  if guards.suits param argument? then
    match argument? with
    | some (.service value) => Request.callClient (.accepts value)
    | _ => pure true
  else
    pure false

/-- Hand arguments to parameters, in order. -/
def takeAll : List Param → List (Argument U) → Request U Unit
  | [], _ => pure ()
  | param :: params, arguments => do
      if ← guards.takes param arguments.head? then
        takeAll params arguments.tail
      else
        Request.fail (.typeMismatch (.of param.type))

/-- The promise to close a value, if the recipe has a closer and the value passes as its
subject. -/
def closerFor? (recipe : Recipe U) (value : Value U) : Option (PendingCloser U) :=
  match recipe.closer with
  | none => none
  | some close =>
      if guards.passes value recipe.produces then
        some { recipe, close, subject := value.content }
      else
        none

/-- Give a closer to a scope, or run it at once and fail if the scope is closed. -/
def attachCloser (scope : ScopeId) (context : ContextId) (recipe : Recipe U)
    (subject : Value U) : Request U Unit :=
  match guards.closerFor? recipe subject with
  | none => pure ()
  | some closer => do
      let attached : Bool ← Request.act (.attach scope closer)
      if attached then
        Request.report (.registeredCloser closer.service)
      else
        match ← Request.callClient (closer.call scope context) with
        | some failure => Request.report (.closerFailed closer.service failure.message)
        | none => pure ()
        Request.fail .closed

/-- The services among the arguments that pass as items. -/
def itemsOf (item : ServiceType) (arguments : List (Argument U)) : List (Content U) :=
  arguments.filterMap fun argument =>
    match argument with
    | .service value => if guards.passes value item then some value.content else none
    | _ => none

/-- Items that pass are all taken up into the list. -/
theorem itemsOf_services {guards : Guards U} {item : ServiceType} {values : List (Value U)}
    (passes : ∀ value ∈ values, guards.passes value item = true) :
    guards.itemsOf item (values.map .service) = values.map Value.content := by
  induction values with
  | nil => rfl
  | cons value values ih =>
      obtain ⟨first, passes⟩ := List.forall_mem_cons.mp passes
      rw [List.map_cons, List.map_cons, ← ih passes]
      simp [itemsOf, first]

/-- Make a new instance from its arguments. -/
def produce (recipe : Recipe U) (scope : ScopeId) (arguments : List (Argument U)) :
    Request U (Value U) :=
  match recipe.source with
  | .value content => pure { type := recipe.produces, content }
  | .factory make => do
      guards.takeAll recipe.params arguments
      match ← Request.callClient (.construct { scope, recipe } make arguments) with
      | .ok content => pure { type := recipe.produces, content }
      | .error failure => Request.fail (.creationFailed (.of recipe.produces) failure)
  | .list item =>
      pure { type := recipe.produces, content := .list (guards.itemsOf item arguments) }

/-- Make the instance of a recipe. -/
def construct (scope : ScopeId) (context : ContextId) (recipe : Recipe U)
    (arguments : List (Argument U)) (flag : FlagId) (closeMade : Bool) :
    Request U (Value U) := do
  ensureUsable context
  Request.report (.constructing (.of recipe.produces) recipe.lifetime scope)
  let outcome ← ExceptT.lift (guards.produce recipe scope arguments).run
  Request.act (.raise flag)
  let made ← Request.ofExcept outcome
  ensureUsable context
  if closeMade then
    guards.attachCloser scope context recipe made
  pure made

/-- Apply a decorator to a value with its arguments. -/
def apply (stage : Stage U) (site : Site U) (value : Value U) : Request U (Value U) := do
  let target := stage.decorator.target
  if guards.passes value target.type then
    guards.takeAll stage.decorator.params stage.arguments
    match ← Request.callClient
        (.decorate site target stage.decorator.transform value.content stage.arguments) with
    | .ok content => pure { type := target.type, content }
    | .error failure => Request.fail (.creationFailed (.of target.type) failure)
  else
    Request.fail (.typeMismatch (.of target.type))

/-- Apply decorators in order. -/
def decorateAll (site : Site U) : List (Stage U) → Value U → Request U (Value U)
  | [], value => pure value
  | stage :: stages, value => do
      let outcome ← ExceptT.lift (guards.apply stage site value).run
      Request.act (.raise stage.flag)
      let decorated ← Request.ofExcept outcome
      decorateAll site stages decorated

/-- What a closer is for when the service is not converted. -/
def closeSubject (recipe : Recipe U) (made decorated : Value U) : Value U :=
  if recipe.closer.isSome && (guards.closerFor? recipe decorated).isNone then made else decorated

/-- Finish an instance for a key. -/
def finish (scope : ScopeId) (context : ContextId) (key : Key) (binding : Binding U)
    (stages : List (Stage U)) (made : Value U) : Request U (Value U) := do
  let converted ← guards.convert binding scope key made
  let value ← guards.decorateAll { scope, recipe := binding.recipe } stages converted
  if binding.cast.isNone then
    guards.attachCloser scope context binding.recipe
      (guards.closeSubject binding.recipe made value)
  pure value

/-- Make an instance from its inputs and finish it. -/
def produceFrom (home : Scope U) (context : ContextId) (key : Key) (binding : Binding U)
    (inputs : Inputs U) : Request U (Value U) := do
  let recipe := binding.recipe
  let kept := recipe.lifetime.isKept
  let made ← keepIf kept home.id (.made recipe.id)
    (guards.construct home.id context recipe inputs.arguments inputs.flag binding.cast.isSome)
  keepIf kept home.id (.shown recipe.id binding.registered)
    (guards.finish home.id context key binding inputs.stages made)

/-- Resolve a key whose value is not kept yet. -/
def create (resolver : Resolver U) (scope : Scope U) (context : ContextId) (key : Key)
    (binding : Binding U) (active : List Key) : Request U (Value U) := do
  let inputs ← resolver.inputs scope context key binding (active ++ [key])
  guards.produceFrom scope context key binding inputs

/-- Resolve a binding that is not a fixed value, in the scope that its value belongs to. -/
def resolveIn (resolver : Resolver U) (scope : Scope U) (context : ContextId) (key : Key)
    (binding : Binding U) (active : List Key) : Request U (Value U) := do
  match ← recallShown scope.id binding with
  | some outcome =>
      Request.report (.resolvedFromCache key scope.id)
      Request.ofExcept outcome
  | none =>
      if key ∈ active then
        Request.fail (.cycle (cycleChain active key))
      else
        guards.create resolver scope context key binding active

/-- Resolve a key as seen from a scope, given how its dependencies are resolved. -/
def resolveBy (resolver : Resolver U) : Resolver U := fun scope context key active => do
  ensureUsable context
  ensureOpen scope.id
  match scope.registry.find? key with
  | none => Request.fail (.notRegistered key)
  | some binding =>
      match binding.recipe.source with
      | .value content =>
          guards.convert binding scope.id key { type := binding.recipe.produces, content }
      | _ => do
          let effective ← effectiveScope scope key binding
          guards.resolveIn resolver effective context key binding active

/-- Resolve a key with requests nested no deeper than `depth`. -/
def resolveWithin : (depth : Nat) → Resolver U
  | 0 => fun _ _ _ _ => Request.never
  | depth + 1 => guards.resolveBy (resolveWithin depth)

/-- Resolve a key as seen from a scope. -/
def resolve (scope : Scope U) (context : ContextId) (key : Key) : Request U (Value U) :=
  guards.resolveWithin (scope.registry.bound + 1) scope context key []

/-- Resolve a key as a service of the key's type. -/
def resolveTyped (scope : Scope U) (context : ContextId) (key : Key) : Request U (Value U) := do
  let value ← guards.resolve scope context key
  if guards.passes value key.type then pure value else Request.fail (.typeMismatch key)

/-- The arguments for parameters outside of any service. -/
def inject (scope : Scope U) (context : ContextId) (flag : FlagId) :
    List Param → Request U (List (Argument U))
  | [] => pure []
  | param :: params => do
      let first ← Resolver.argument (fun scope context key _ => guards.resolve scope context key)
        scope context [] flag param
      let rest ← inject scope context flag params
      pure (first :: rest)

/-- The arguments to call a function with. -/
def invocation (scope : Scope U) (context : ContextId) (params : List Param) :
    Request U (List (Argument U)) := do
  ensureUsable context
  ensureOpen scope.id
  let flag ← Request.act .newFlag
  Request.act (.raise flag)
  let arguments ← guards.inject scope context flag params
  guards.takeAll params arguments
  pure arguments

/-- The closer of a fixed value. -/
def valueCloser? (recipe : Recipe U) : Option (PendingCloser U) :=
  match recipe.source with
  | .value content => guards.closerFor? recipe { type := recipe.produces, content }
  | _ => none

/-- Bind an offer without issues under all its types. -/
def accept (builder : Builder U) (offer : Offer U) : Builder U :=
  let recipe := offer.recipe (.registration builder.id builder.accepted)
  let bound := offer.views.foldl (Builder.bindView recipe offer.tag) builder
  { bound with
    closers := bound.closers ++ (guards.valueCloser? recipe).toList
    accepted := bound.accepted + 1 }

/-- Apply a registration: collect its issues, or else bind it. -/
def add (builder : Builder U) (registration : Registration U) : Builder U :=
  match registration.issues with
  | [] =>
      match registration with
      | .service offer => guards.accept builder offer
      | .decorator decorator =>
          { builder with
            registry := builder.registry.decorate decorator, ownsRegistry := true }
  | issues => { builder with issues := builder.issues ++ issues }

/-- Apply registrations in order, reporting each that is bound. -/
def register : List (Registration U) → Builder U → Program U (Builder U)
  | [], builder => pure builder
  | registration :: rest, builder => do
      match builder.notice? registration with
      | some notice => Program.callClient (.report notice)
      | none => pure ()
      register rest (guards.add builder registration)

/-- Build a scope from a list of registrations. -/
def buildScope (parent : Option (Scope U)) (registrations : List (Registration U)) :
    Request U (Scope U) := do
  let builder ← ExceptT.lift (newBuilder parent)
  let builder ← ExceptT.lift (guards.register registrations builder)
  builder.build

/-- The request that a demand stands for.  Closing and letting go of a scope look at no value. -/
def request : Demand U → Request U (Reply U)
  | .build parent registrations => do
      let scope ← guards.buildScope parent registrations
      pure (.built scope)
  | .resolve scope context key => do
      let value ← guards.resolve scope context key
      pure (.resolved value)
  | .resolveTyped scope context key => do
      let value ← guards.resolveTyped scope context key
      pure (.resolved value)
  | .resolveThrough handle context key => do
      let value ← (do
        handle.ensureReady key
        guards.resolve handle.scope context key)
      pure (.resolved value)
  | .resolveTypedThrough handle context key => do
      let value ← (do
        handle.ensureReady key
        guards.resolveTyped handle.scope context key)
      pure (.resolved value)
  | .invoke scope context params routine => do
      let failure ← (do
        let arguments ← guards.invocation scope context params
        ExceptT.lift (Program.callClient (.enact routine arguments)))
      pure (.invoked failure)
  | demand => demand.request

/-! ## Building under lenient guards -/

section Lenient

variable {guards} (lenient : guards.Lenient)

include lenient

/-- Lenient guards let a value pass as its own type. -/
theorem Lenient.passes_of_eq {value : Value U} {type : ServiceType} (typed : value.type = type) :
    guards.passes value type = true :=
  lenient.passes value type (decide_eq_true typed)

/-- The closer of a value of the type that the recipe makes. -/
theorem Lenient.closerFor? {recipe : Recipe U} {value : Value U}
    (typed : value.type = recipe.produces) :
    guards.closerFor? recipe value = recipe.closerFor? value := by
  unfold Guards.closerFor? Recipe.closerFor?
  cases recipe.closer with
  | none => rfl
  | some close => simp only [lenient.passes_of_eq typed, typed]

/-- A fixed value is bound by its closer whatever lenient guards are set. -/
theorem Lenient.valueCloser? (recipe : Recipe U) :
    guards.valueCloser? recipe = Builder.valueCloser? recipe := by
  unfold Guards.valueCloser? Builder.valueCloser?
  cases recipe.source with
  | value content => exact lenient.closerFor? rfl
  | _ => rfl

/-- A registration is added alike under all lenient guards. -/
theorem Lenient.add (builder : Builder U) (registration : Registration U) :
    guards.add builder registration = builder.add registration := by
  cases registration with
  | service offer =>
      simp only [Guards.add, accept, lenient.valueCloser?]
      rfl
  | decorator decorator => rfl

/-- A fixed value has the type that its closer takes, so building does not depend on guards. -/
theorem Lenient.buildScope (parent : Option (Scope U)) (registrations : List (Registration U)) :
    guards.buildScope parent registrations = Provision.buildScope parent registrations := by
  have same : guards.register registrations = Builder.register registrations := by
    induction registrations with
    | nil => rfl
    | cons registration rest ih =>
        funext builder
        simp only [register, lenient.add, ih]
        rfl
  unfold Guards.buildScope Provision.buildScope
  rw [same]

end Lenient

/-! ## Exact guards -/

/-- Exact guards let just the values of the type pass. -/
theorem exact_passes_iff {value : Value U} {type : ServiceType} :
    exact.passes value type = true ↔ value.type = type :=
  decide_eq_true_iff

/-- Exact guards take a service for just the keys of its type. -/
theorem exact_suits_iff {key : Key} {value : Value U} :
    exact.suits (.service key) (some (.service value)) = true ↔ value.type = key.type :=
  decide_eq_true_iff

/-- Under exact guards values are converted as they are. -/
theorem exact_convert (binding : Binding U) (scope : ScopeId) (key : Key) (value : Value U) :
    exact.convert binding scope key value = binding.convert scope key value := by
  unfold convert
  simp only [exact_passes_iff]
  rfl

/-- Under exact guards an argument is taken as it is. -/
theorem exact_takes (param : Param) (argument : Argument U) :
    exact.takes param (some argument) = Provision.takes param argument := by
  cases param with
  | context => cases argument <;> rfl
  | scope => cases argument <;> rfl
  | service key =>
      cases argument with
      | service value =>
          unfold takes Provision.takes
          simp only [exact_suits_iff]
      | _ => rfl

/-- Under exact guards arguments are taken as they are. -/
theorem exact_takeAll (params : List Param) (arguments : List (Argument U)) :
    exact.takeAll params arguments = Provision.takeAll params arguments := by
  induction params generalizing arguments with
  | nil => rfl
  | cons param params ih =>
      cases arguments with
      | nil => cases param <;> rfl
      | cons argument arguments =>
          simp only [takeAll, List.head?_cons, List.tail_cons, exact_takes, ih,
            Provision.takeAll]

/-- Under exact guards closers are bound as they are. -/
theorem exact_closerFor? (recipe : Recipe U) (value : Value U) :
    exact.closerFor? recipe value = recipe.closerFor? value := by
  unfold closerFor?
  simp only [exact_passes_iff]
  rfl

/-- Under exact guards closers are attached as they are. -/
theorem exact_attachCloser (scope : ScopeId) (context : ContextId) (recipe : Recipe U)
    (subject : Value U) : exact.attachCloser scope context recipe subject =
      Provision.attachCloser scope context recipe subject := by
  unfold attachCloser
  simp only [exact_closerFor?]
  rfl

/-- Under exact guards lists are made as they are. -/
theorem exact_itemsOf (item : ServiceType) (arguments : List (Argument U)) :
    exact.itemsOf item arguments = Provision.itemsOf item arguments := by
  unfold itemsOf
  simp only [exact_passes_iff]
  rfl

/-- Under exact guards instances are produced as they are. -/
theorem exact_produce (recipe : Recipe U) (scope : ScopeId) (arguments : List (Argument U)) :
    exact.produce recipe scope arguments = recipe.produce scope arguments := by
  unfold produce
  simp only [exact_takeAll, exact_itemsOf]
  rfl

/-- Under exact guards instances are constructed as they are. -/
theorem exact_construct (scope : ScopeId) (context : ContextId) (recipe : Recipe U)
    (arguments : List (Argument U)) (flag : FlagId) (closeMade : Bool) :
    exact.construct scope context recipe arguments flag closeMade =
      Provision.construct scope context recipe arguments flag closeMade := by
  unfold construct Provision.construct
  simp only [exact_produce, exact_attachCloser]

/-- Under exact guards a stage is applied as it is. -/
theorem exact_apply (stage : Stage U) (site : Site U) (value : Value U) :
    exact.apply stage site value = stage.apply site value := by
  unfold apply
  simp only [exact_takeAll, exact_passes_iff]
  rfl

/-- Under exact guards values are decorated as they are. -/
theorem exact_decorateAll (site : Site U) (stages : List (Stage U)) (value : Value U) :
    exact.decorateAll site stages value = Provision.decorateAll site stages value := by
  induction stages generalizing value with
  | nil => rfl
  | cons stage stages ih => simp only [decorateAll, Provision.decorateAll, exact_apply, ih]

/-- Under exact guards values are finished as they are. -/
theorem exact_finish (scope : ScopeId) (context : ContextId) (key : Key) (binding : Binding U)
    (stages : List (Stage U)) (made : Value U) :
    exact.finish scope context key binding stages made =
      Provision.finish scope context key binding stages made := by
  unfold finish Provision.finish closeSubject Recipe.closeSubject
  simp only [exact_convert, exact_decorateAll, exact_attachCloser, exact_closerFor?]

/-- Under exact guards values are created as they are. -/
theorem exact_create (resolver : Resolver U) (scope : Scope U) (context : ContextId) (key : Key)
    (binding : Binding U) (active : List Key) :
    exact.create resolver scope context key binding active =
      resolver.create scope context key binding active := by
  rw [Resolver.create_eq]
  unfold create produceFrom Provision.produceFrom
  simp only [exact_construct, exact_finish]

/-- Under exact guards one level of resolution goes as it does. -/
theorem exact_resolveBy (resolver : Resolver U) : exact.resolveBy resolver = resolver.resolve := by
  funext scope context key active
  unfold resolveBy resolveIn
  simp only [exact_convert, exact_create]
  rfl

/-- Under exact guards resolution goes as it does at every depth. -/
theorem exact_resolveWithin (depth : Nat) :
    (exact.resolveWithin depth : Resolver U) = Provision.resolveWithin depth := by
  induction depth with
  | zero => rfl
  | succ depth ih => rw [resolveWithin, ih, exact_resolveBy, Provision.resolveWithin]

/-- Under exact guards a key is resolved as it is. -/
theorem exact_resolve (scope : Scope U) (context : ContextId) (key : Key) :
    exact.resolve scope context key = Provision.resolve scope context key := by
  rw [resolve, exact_resolveWithin, Provision.resolve]

/-- Under exact guards a typed request for a key goes as it does. -/
theorem exact_resolveTyped (scope : Scope U) (context : ContextId) (key : Key) :
    exact.resolveTyped scope context key = scope.resolveTyped context key := by
  unfold resolveTyped Scope.resolveTyped
  simp only [exact_resolve, exact_passes_iff]

/-- Under exact guards arguments of a routine are resolved as they are. -/
theorem exact_inject (scope : Scope U) (context : ContextId) (flag : FlagId)
    (params : List Param) :
    exact.inject scope context flag params = scope.inject context flag params := by
  induction params with
  | nil => rfl
  | cons param params ih => simp only [inject, Scope.inject, exact_resolve, ih]

/-- Under exact guards a routine is invoked as it is. -/
theorem exact_invocation (scope : Scope U) (context : ContextId) (params : List Param) :
    exact.invocation scope context params = scope.invocation context params := by
  unfold invocation Scope.invocation
  simp only [exact_takeAll]
  rw [show exact.inject scope context = scope.inject context from
    funext₂ fun flag params => exact_inject scope context flag params]

/-- With exact guards the requests are those of the container. -/
theorem exact_request : (exact.request : Demand U → Request U (Reply U)) = Demand.request := by
  funext demand
  cases demand <;>
    simp only [request, Demand.request, exact_lenient.buildScope, exact_resolve,
      exact_resolveTyped, exact_invocation, Handle.resolve, Handle.resolveTyped, Scope.invoke]

end Guards

end Provision
