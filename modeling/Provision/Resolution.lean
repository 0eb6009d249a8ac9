import Provision.Program

/-!
# Resolution

Resolving a key finds its binding in the registry of the calling scope and the scope that the
instance belongs to: the owner of a singleton, and the calling scope otherwise.  There the
parameters of the recipe and of the decorators are resolved, depth first and in order, the
instance is made, converted to the type of the key and decorated.

A scope keeps an instance once for its recipe and a finished value once for each key the recipe
was registered under.  So all aliases of a registration share one instance, and an item of a
list is the very value that its own key yields.  No cell is held while parameters are resolved:
only constructors, conversions and decorators run between entering and settling one.

The keys being resolved are pairwise different and bound, so requests are nested at most one
deeper than there are bound keys.  `resolveWithin` carries that depth along.
-/

namespace Provision

variable {U : Client}

namespace Request

/-- Fail with an error. -/
def fail {α : Type} (error : Error) : Request U α :=
  throw error

/-- Go on with an outcome that is known. -/
def ofExcept {α : Type} (outcome : Except Error α) : Request U α :=
  ExceptT.mk (pure outcome)

/-- Perform one operation. -/
def act (operation : Operation U) : Request U operation.Answer :=
  ExceptT.lift (Program.act operation)

/-- Call the client once. -/
def callClient (call : Call U) : Request U call.Answer :=
  ExceptT.lift (Program.callClient call)

/-- Report a notice to the client. -/
def report (notice : Notice) : Request U Unit :=
  callClient (.report notice)

/-- A request that never returns. -/
def never {α : Type} : Request U α :=
  ExceptT.mk Program.never

end Request

/-- Fail if the context is done. -/
def ensureUsable (context : ContextId) : Request U Unit := do
  match ← Request.act (.contextError context) with
  | some reason => Request.fail (.contextDone reason)
  | none => pure ()

/-- Fail if a scope is closed. -/
def ensureOpen (scope : ScopeId) : Request U Unit := do
  let closed : Bool ← Request.act (.isClosed scope)
  if closed then
    Request.fail .closed

/-- The scope that keeps what is resolved from `scope`: the owner of a singleton, which must be
open, and otherwise the calling scope, which must not own a scoped service. -/
def effectiveScope (scope : Scope U) (key : Key) (binding : Binding U) :
    Request U (Scope U) :=
  match binding.recipe.lifetime with
  | .singleton =>
      match scope.ancestor? binding.owner with
      | none => Request.fail (.notRegistered key)
      | some owner => do
          ensureOpen owner.id
          pure owner
  | .perScope =>
      if scope.id = binding.owner then Request.fail (.scopedFromOwner key) else pure scope
  | .transient => pure scope

/-- Convert a value to the type of the key it is bound under, if the recipe makes another. -/
def Binding.convert (binding : Binding U) (scope : ScopeId) (key : Key) (value : Value U) :
    Request U (Value U) :=
  match binding.cast with
  | none => pure value
  | some cast =>
      if value.type = binding.recipe.produces then do
        let content ← Request.callClient
          (.convert { scope, recipe := binding.recipe } binding.registered cast value.content)
        pure { type := binding.registered.type, content }
      else
        Request.fail (.typeMismatch key)

/-- Fill a cell of a scope unless it is filled; either way go on with the outcome in it. -/
def keep (scope : ScopeId) (entry : CacheKey) (create : Request U (Value U)) :
    Request U (Value U) := do
  match ← Request.act (.enter scope entry) with
  | some outcome => Request.ofExcept outcome
  | none =>
      let outcome ← ExceptT.lift create.run
      Request.act (.settle scope entry outcome)
      Request.ofExcept outcome

/-! ## Parameters -/

/-- The type by which a parameter that refuses its value is named. -/
def Param.type : Param → ServiceType
  | context => .context
  | scope => .scopeHandle
  | service key => key.type

/-- Whether an argument is of the kind of its parameter, and the parameter takes it. -/
def takes (param : Param) (argument : Argument U) : Request U Bool :=
  match param, argument with
  | .context, .context _ => pure true
  | .scope, .scope _ => pure true
  | .service key, .service value =>
      if value.type = key.type then Request.callClient (.accepts value) else pure false
  | _, _ => pure false

/-- Hand arguments to parameters, in order.  The first parameter that has no argument, or does
not take the one it has, is an error. -/
def takeAll : List Param → List (Argument U) → Request U Unit
  | [], _ => pure ()
  | param :: _, [] => Request.fail (.typeMismatch (.of param.type))
  | param :: params, argument :: arguments => do
      if ← takes param argument then
        takeAll params arguments
      else
        Request.fail (.typeMismatch (.of param.type))

/-- How the service under a key is resolved from a scope, while other keys are being resolved. -/
abbrev Resolver (U : Client) : Type :=
  Scope U → ContextId → Key → List Key → Request U (Value U)

/-- The argument for one parameter.  The context and the scope are injected and never looked up. -/
def Resolver.argument (resolver : Resolver U) (scope : Scope U) (context : ContextId)
    (active : List Key) (flag : FlagId) : Param → Request U (Argument U)
  | .context => pure (.context context)
  | .scope => pure (.scope { scope, flag })
  | .service key => do
      let value ← resolver scope context key active
      pure (.service value)

/-- Name the dependency in the error of resolving it for a service. -/
def wrapDependency {α : Type} (service : Key) (param : Param) (request : Request U α) :
    Request U α :=
  match param with
  | .service key => tryCatch request fun error => Request.fail (.dependency service key error)
  | _ => request

/-- The arguments for the parameters of a service, in order, up to the first that fails. -/
def Resolver.arguments (resolver : Resolver U) (scope : Scope U) (context : ContextId)
    (service : Key) (active : List Key) (flag : FlagId) :
    List Param → Request U (List (Argument U))
  | [] => pure []
  | param :: params => do
      let first ← wrapDependency service param (resolver.argument scope context active flag param)
      let rest ← resolver.arguments scope context service active flag params
      pure (first :: rest)

/-- A decorator with its arguments, and the flag to raise once it has returned. -/
structure Stage (U : Client) where
  decorator : Decorator U
  arguments : List (Argument U)
  flag : FlagId

/-- Everything that making a service needs: the arguments of its recipe, the flag to raise once
its constructor has returned, and its decorators. -/
structure Inputs (U : Client) where
  arguments : List (Argument U)
  flag : FlagId
  stages : List (Stage U)

/-- The decorators of a service with their arguments, in order, up to the first that fails. -/
def Resolver.stages (resolver : Resolver U) (scope : Scope U) (context : ContextId)
    (service : Key) (active : List Key) : List (Decorator U) → Request U (List (Stage U))
  | [] => pure []
  | decorator :: decorators => do
      let flag ← Request.act .newFlag
      let arguments ←
        resolver.arguments scope context service active flag decorator.params
      let rest ← resolver.stages scope context service active decorators
      pure ({ decorator, arguments, flag } :: rest)

/-- Whether a scope keeps the instance of a recipe already. -/
def isMade (scope : ScopeId) (recipe : Recipe U) : Request U Bool := do
  if recipe.lifetime.isKept then
    let made ← Request.act (.peek scope (.made recipe.id))
    pure made.isSome
  else
    pure false

/-- Resolve what making a service needs.  A recipe whose instance is kept needs no arguments;
the decorators are those of the key that the service was registered under. -/
def Resolver.inputs (resolver : Resolver U) (scope : Scope U) (context : ContextId)
    (key : Key) (binding : Binding U) (active : List Key) : Request U (Inputs U) := do
  let flag ← Request.act .newFlag
  let arguments ←
    if ← isMade scope.id binding.recipe then
      pure []
    else
      resolver.arguments scope context key active flag binding.recipe.params
  let stages ←
    resolver.stages scope context key active (scope.registry.decoratorsOf binding.registered)
  pure { arguments, flag, stages }

/-! ## Making instances -/

/-- Give a closer to a scope.  If the scope is closed by now, the closer runs at once and the
request fails. -/
def attachCloser (scope : ScopeId) (context : ContextId) (recipe : Recipe U)
    (subject : Value U) : Request U Unit :=
  match recipe.closerFor? subject with
  | none => pure ()
  | some closer => do
      let attached : Bool ← Request.act (.attach scope closer)
      if attached then
        Request.report (.registeredCloser closer.service)
      else
        match ← Request.callClient (closer.call scope context) with
        | some failure => Request.report (.closerFailed closer.service failure.message)
        | none => pure ()
        Request.fail .closed

/-- The services among the arguments that have a type. -/
def itemsOf (item : ServiceType) (arguments : List (Argument U)) : List (Content U) :=
  arguments.filterMap fun argument =>
    match argument with
    | .service value => if value.type = item then some value.content else none
    | _ => none

/-- Make a new instance from its arguments. -/
def Recipe.produce (recipe : Recipe U) (scope : ScopeId) (arguments : List (Argument U)) :
    Request U (Value U) :=
  match recipe.source with
  | .value content => pure { type := recipe.produces, content }
  | .factory make => do
      takeAll recipe.params arguments
      match ← Request.callClient (.construct { scope, recipe } make arguments) with
      | .ok content => pure { type := recipe.produces, content }
      | .error failure => Request.fail (.creationFailed (.of recipe.produces) failure)
  | .list item => pure { type := recipe.produces, content := .list (itemsOf item arguments) }

/-- Make the instance of a recipe.  The context is looked at before and after.  Handles given to
the constructor may be used from the moment it returns.  A closer is attached here only if it is
for the instance as it was made. -/
def construct (scope : ScopeId) (context : ContextId) (recipe : Recipe U)
    (arguments : List (Argument U)) (flag : FlagId) (closeMade : Bool) :
    Request U (Value U) := do
  ensureUsable context
  Request.report (.constructing (.of recipe.produces) recipe.lifetime scope)
  let outcome ← ExceptT.lift (recipe.produce scope arguments).run
  Request.act (.raise flag)
  let made ← Request.ofExcept outcome
  ensureUsable context
  if closeMade then
    attachCloser scope context recipe made
  pure made

/-- Apply a decorator to a value with its arguments. -/
def Stage.apply (stage : Stage U) (site : Site U) (value : Value U) : Request U (Value U) := do
  let target := stage.decorator.target
  if value.type = target.type then
    takeAll stage.decorator.params stage.arguments
    match ← Request.callClient
        (.decorate site target stage.decorator.transform value.content stage.arguments) with
    | .ok content => pure { type := target.type, content }
    | .error failure => Request.fail (.creationFailed (.of target.type) failure)
  else
    Request.fail (.typeMismatch (.of target.type))

/-- Apply decorators in order.  Handles given to a decorator may be used from the moment it
returns, even if it fails. -/
def decorateAll (site : Site U) : List (Stage U) → Value U → Request U (Value U)
  | [], value => pure value
  | stage :: stages, value => do
      let outcome ← ExceptT.lift (stage.apply site value).run
      Request.act (.raise stage.flag)
      let decorated ← Request.ofExcept outcome
      decorateAll site stages decorated

/-- What a closer is for when the service is not converted: the decorated value, unless the
closer does not take it. -/
def Recipe.closeSubject (recipe : Recipe U) (made decorated : Value U) : Value U :=
  if recipe.closer.isSome && (recipe.closerFor? decorated).isNone then made else decorated

/-- Finish an instance for a key: convert and decorate it, and attach its closer unless the
closer was attached to the instance as it was made. -/
def finish (scope : ScopeId) (context : ContextId) (key : Key) (binding : Binding U)
    (stages : List (Stage U)) (made : Value U) : Request U (Value U) := do
  let converted ← binding.convert scope key made
  let value ← decorateAll { scope, recipe := binding.recipe } stages converted
  if binding.cast.isNone then
    attachCloser scope context binding.recipe (binding.recipe.closeSubject made value)
  pure value

/-! ## Requests -/

/-- The chain from the first active occurrence of a key back to the key. -/
def cycleChain (active : List Key) (key : Key) : List Key :=
  active.dropWhile (fun other => !decide (other = key)) ++ [key]

/-- Run a request through a cell if the recipe's instances are kept. -/
def keepIf (kept : Bool) (scope : ScopeId) (entry : CacheKey) (create : Request U (Value U)) :
    Request U (Value U) :=
  if kept then keep scope entry create else create

/-- Resolve a key whose value is not kept yet: its inputs, its instance, and the finished value. -/
def Resolver.create (resolver : Resolver U) (scope : Scope U) (context : ContextId) (key : Key)
    (binding : Binding U) (active : List Key) : Request U (Value U) := do
  let recipe := binding.recipe
  let kept := recipe.lifetime.isKept
  let inputs ← resolver.inputs scope context key binding (active ++ [key])
  let made ← keepIf kept scope.id (.made recipe.id)
    (construct scope.id context recipe inputs.arguments inputs.flag binding.cast.isSome)
  keepIf kept scope.id (.shown recipe.id binding.registered)
    (finish scope.id context key binding inputs.stages made)

/-- The value that a scope keeps for a key that a recipe was registered under. -/
def recallShown (scope : ScopeId) (binding : Binding U) : Request U (Option (Outcome U)) :=
  if binding.recipe.lifetime.isKept then
    Request.act (.peek scope (.shown binding.recipe.id binding.registered))
  else
    pure none

/-- Resolve a binding that is not a fixed value, in the scope that its value belongs to. -/
def Resolver.resolveIn (resolver : Resolver U) (scope : Scope U) (context : ContextId)
    (key : Key) (binding : Binding U) (active : List Key) : Request U (Value U) := do
  match ← recallShown scope.id binding with
  | some outcome =>
      Request.report (.resolvedFromCache key scope.id)
      Request.ofExcept outcome
  | none =>
      if key ∈ active then
        Request.fail (.cycle (cycleChain active key))
      else
        resolver.create scope context key binding active

/-- Resolve a key as seen from a scope, given how its dependencies are resolved. -/
def Resolver.resolve (resolver : Resolver U) : Resolver U := fun scope context key active => do
  ensureUsable context
  ensureOpen scope.id
  match scope.registry.find? key with
  | none => Request.fail (.notRegistered key)
  | some binding =>
      match binding.recipe.source with
      | .value content =>
          binding.convert scope.id key { type := binding.recipe.produces, content }
      | _ => do
          let effective ← effectiveScope scope key binding
          resolver.resolveIn effective context key binding active

/-- Resolve a key with requests nested no deeper than `depth`. -/
def resolveWithin : (depth : Nat) → Resolver U
  | 0 => fun _ _ _ _ => Request.never
  | depth + 1 => (resolveWithin depth).resolve

/-- Resolve a key as seen from a scope. -/
def resolve (scope : Scope U) (context : ContextId) (key : Key) : Request U (Value U) :=
  resolveWithin (scope.registry.bound + 1) scope context key []

end Provision
