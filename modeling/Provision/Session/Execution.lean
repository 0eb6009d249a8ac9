import Provision.Session.Description

/-!
# Carrying out steps

What each step does and answers.  A step looks up what it names, uses it, and stores what it
makes under a name; what was stored there before is let go.  While a step runs, the scope and
the context that it uses stay alive.
-/

namespace Provision.Session

namespace Part

/-- Keep a scope alive until the step ends. -/
def useScope (scope : Scope client) : Part Unit :=
  Run.remember fun memory => { memory with usedScopes := scope :: memory.usedScopes }

/-- Keep a context alive until the step ends. -/
def useContext (context : ContextId) : Part Unit :=
  Run.remember fun memory => { memory with usedContexts := context :: memory.usedContexts }

/-- The scope with a name. -/
def scope (name : String) : Part (Scope client) := do
  let scope ← found ("no scope " ++ name) ((← Run.memory).scopes.get? name)
  useScope scope
  return scope

/-- The builder with a name. -/
def builder (name : String) : Part (Builder client) := do
  found "no builder" ((← Run.memory).builders.get? name)

/-- The handle with a name; in the acts of a function `@` is the one it was passed.  The scope
behind the handle, if it is there, stays alive until the step ends. -/
def handle (frame : Frame) (name : String) : Part (Handle client) := do
  let memory ← Run.memory
  let known := if name = "@" then frame.handle else memory.handles.get? name
  let handle ← found ("no handle " ++ name) known
  let state ← Run.state
  if (state.scope handle.scope.id).dropped then
    return handle
  useScope handle.scope
  return handle

/-- The context with a name; in the acts of a function `@` is the one it was passed. -/
def namedContext (frame : Frame) (name : String) : Part ContextId := do
  let memory ← Run.memory
  let known := if name = "@" then frame.context else memory.contexts.get? name
  let context ← found ("no context " ++ name) known
  useContext context
  return context

/-- A fresh context. -/
def freshContext : Part ContextId := do
  let context ← Part.of (Run.withContexts Contexts.background)
  useContext context
  return context

/-- The context with a name, or a fresh one. -/
def context (frame : Frame) : Option String → Part ContextId
  | none => freshContext
  | some name => namedContext frame name

/-- The context behind a cancel handle. -/
def cancelHandle (name : String) : Part ContextId := do
  found "no cancel handle" ((← Run.memory).cancels.get? name)

/-- End the step with the error of a request, or go on with its result. -/
def orFail {α : Type} (outcome : Except Error α) : Part α :=
  match outcome with
  | .ok result => return result
  | .error error => throw (.failed error)

end Part

variable (behaviour : Behaviour client Memory)

/-- Store a scope that was just built under a name. -/
def storeScope (name : String) (scope : Scope client) : Part Answer := do
  Run.remember fun memory =>
    { memory with
      scopes := memory.scopes.put name scope
      live := scope :: memory.live }
  return .ok (.built scope.id)

/-- Build a scope and store it. -/
def buildAndStore (name : String) (parent : Option (Scope client))
    (scripts : List (RegistrationScript Step)) : Part Answer := do
  let registrations ← describeAll scripts
  let outcome ← Part.of (Run.request behaviour (buildScope parent registrations))
  storeScope name (← Part.orFail outcome)

/-- Resolve a key in a manner, from a scope or through a handle. -/
def manneredRequest (manner : ResolveManner) (key : Key)
    (typed untyped : Key → Request client (Value client)) : Request client (Value client) :=
  match manner with
  | .typed => typed key
  | .all => typed key.listKey
  | .untyped => untyped key
  | .required => typed key

/-- What is seen of a value that was resolved in a manner. -/
def manneredReply (manner : ResolveManner) (key : Key) (value : Value client) : Reply :=
  let view := viewOf value.content
  match manner with
  | .all => .views view.items
  | .untyped => .typed key.type view
  | _ => .view view

/-- The answer to a request in a manner. -/
def manneredAnswer (manner : ResolveManner) (key : Key) : Outcome client → Answer
  | .ok value => .ok (manneredReply manner key value)
  | .error error =>
      match manner with
      | .required => .missing error
      | _ => .failed error

/-- Resolve from a scope, in a manner. -/
def resolveFrom (scope : Scope client) (context : ContextId) (manner : ResolveManner) (key : Key) :
    Part Answer := do
  let outcome ← Part.of (Run.request behaviour
    (manneredRequest manner key (scope.resolveTyped context) (Provision.resolve scope context)))
  return manneredAnswer manner key outcome

/-- Resolve through a handle, in a manner. -/
def resolveThrough (handle : Handle client) (context : ContextId) (manner : ResolveManner)
    (key : Key) : Part Answer := do
  let outcome ← Part.of (Run.request behaviour
    (manneredRequest manner key (handle.resolveTyped context) (handle.resolve context)))
  return manneredAnswer manner key outcome

/-- The answer to one of several requests made at once. -/
def parallelAnswer (key : Key) (outcome : Outcome client) : Except Error Reply :=
  outcome.map fun value => manneredReply .typed key value

/-- Resolve a key several times, each with a context of its own.  Requests made at once behave
like requests made one after the other. -/
def resolveRepeatedly (scope : Scope client) (key : Key) : Nat → Part (List (Except Error Reply))
  | 0 => return []
  | count + 1 => do
      let context ← Part.freshContext
      let outcome ← Part.of (Run.request behaviour (scope.resolveTyped context key))
      return parallelAnswer key outcome :: (← resolveRepeatedly scope key count)

/-- Call a routine with injected parameters: the names of its arguments, and its own error. -/
def callRoutine (scope : Scope client) (context : ContextId) (routine : Routine) :
    Request client (List String × Option UserError) :=
  scope.invoke context routine.params fun arguments => do
    let failure ← Program.callClient (.enact routine arguments)
    return (arguments.map argumentRef, failure)

/-- What can be seen of a scope. -/
def scopeInfo (scope : Scope client) (closed : Bool) : ScopeInfo :=
  { id := scope.id
    depth := scope.depth
    size := scope.registry.size
    owns := scope.ownsRegistry
    closed
    keys := (scope.registry.keys.map Key.text).mergeSort }

/-- What can be seen of a context. -/
def contextInfo (contexts : Contexts) (context : ContextId) : ContextInfo :=
  { error := contexts.error? context, deadline := contexts.deadline? context }

/-- Make a context from another. -/
def makeContext (making : ContextMaking) (origin : ContextId) (contexts : Contexts) :
    ContextId × Contexts :=
  match making with
  | .background => contexts.background
  | .same => (origin, contexts)
  | .cancelable => contexts.withCancel origin
  | .deadline seconds => contexts.withDeadline origin seconds
  | .timeout seconds => contexts.withTimeout origin seconds

/-- Carry out the part of a step that is particular to it. -/
def perform (frame : Frame) : Step → Part Answer
  | .container name scripts => buildAndStore behaviour name none scripts
  | .scope name parent scripts => do
      let parent ← Part.scope parent
      buildAndStore behaviour name (some parent) scripts
  | .builder name parent => do
      let parent ← parent.mapM Part.scope
      let builder ← Part.of (Run.program behaviour (newBuilder parent))
      Run.remember fun memory => { memory with builders := memory.builders.put name builder }
      return .ok .nothing
  | .register name scripts => do
      let builder ← Part.builder name
      let registrations ← describeAll scripts
      let builder ← Part.of (Run.program behaviour (builder.register registrations))
      Run.remember fun memory => { memory with builders := memory.builders.put name builder }
      return .ok .nothing
  | .builderDebug name => do
      let builder ← Part.builder name
      return .ok (.text builder.debugText)
  | .build builder name => do
      let found ← Part.builder builder
      Run.remember fun memory => { memory with builders := memory.builders.erase builder }
      let outcome ← Part.of (Run.request behaviour found.build)
      storeScope name (← Part.orFail outcome)
  | .registrationsDebug scripts => do
      let registrations ← describeAll scripts
      return .ok (.texts (registrations.map Registration.debugText))
  | .keyInfo key => return .ok (.key (← key.resolve))
  | .clone scope name => do
      let scope ← Part.scope scope
      Run.remember fun memory => { memory with scopes := memory.scopes.put name scope }
      return .ok (.number scope.id.number)
  | .drop name => do
      let _ ← Part.scope name
      Run.remember fun memory => { memory with scopes := memory.scopes.erase name }
      return .ok .nothing
  | .resolve manner scope key context _ => do
      let scope ← Part.scope scope
      let context ← Part.context frame context
      resolveFrom behaviour scope context manner (← key.resolve)
  | .contains scope key => do
      let scope ← Part.scope scope
      return .ok (.flag (scope.contains (← key.resolve)))
  | .parallel scope key count => do
      let scope ← Part.scope scope
      return .several (← resolveRepeatedly behaviour scope (← key.resolve) count)
  | .info name => do
      let scope ← Part.scope name
      return .ok (.scope (scopeInfo scope ((← Run.state).scope scope.id).closed))
  | .debug name => do
      let scope ← Part.scope name
      return .ok (.text (scope.debugText ((← Run.state).scope scope.id).closed))
  | .close name context => do
      let scope ← Part.scope name
      let context ← Part.context frame context
      let outcome ← Part.of (Run.request behaviour (scope.close context))
      Part.orFail outcome
      return .ok .nothing
  | .invoke name context label params acts _ => do
      let scope ← Part.scope name
      let context ← Part.context frame context
      let params ← params.mapM ParamRef.resolve
      let outcome ← Part.of
        (Run.request behaviour (callRoutine scope context { label, params, acts }))
      let (args, _) ← Part.orFail outcome
      return .ok (.texts args)
  | .tryInvoke name context label params acts fail _ => do
      let scope ← Part.scope name
      let context ← Part.context frame context
      let params ← params.mapM ParamRef.resolve
      let outcome ← Part.of
        (Run.request behaviour (callRoutine scope context { label, params, acts, fail }))
      match outcome with
      | .ok (args, none) => return .ok (.texts args)
      | .ok (_, some failure) => return .own failure.message
      | .error error => return .notInjected error
  | .keepHandle handle name => do
      let handle ← Part.handle frame handle
      Run.remember fun memory => { memory with handles := memory.handles.put name handle }
      return .ok .nothing
  | .handleResolve manner handle key context => do
      let handle ← Part.handle frame handle
      let context ← Part.context frame context
      resolveThrough behaviour handle context manner (← key.resolve)
  | .handleContains handle key => do
      let handle ← Part.handle frame handle
      let key ← key.resolve
      return .ok (.flag (← Part.of (Run.program behaviour (handle.contains key))))
  | .handleInfo handle => do
      let handle ← Part.handle frame handle
      let ready ← Part.of (Run.program behaviour handle.isReady)
      let scope ← Part.of (Run.program behaviour handle.scopeId?)
      return .ok (.handle { ready, scope })
  | .makeContext name making origin => do
      let origin ← Part.context frame origin
      let context ← Part.of (Run.withContexts (makeContext making origin))
      Run.remember fun memory =>
        { memory with
          contexts := memory.contexts.put name context
          cancels :=
            match making with
            | .cancelable => memory.cancels.put name context
            | _ => memory.cancels }
      return .ok (.context (contextInfo (← Run.contexts) context))
  | .contextInfo context => do
      let context ← Part.context frame context
      return .ok (.context (contextInfo (← Run.contexts) context))
  | .cancel name => do
      let context ← Part.cancelHandle name
      Run.setContexts ((← Run.contexts).cancel context)
      return .ok (.text (cancelDebugText ((← Run.contexts).isCanceled context)))
  | .cancelDebug name => do
      let context ← Part.cancelHandle name
      return .ok (.text (cancelDebugText ((← Run.contexts).isCanceled context)))
  | .keepContext context name => do
      let context ← Part.context frame context
      Run.remember fun memory => { memory with contexts := memory.contexts.put name context }
      return .ok .nothing
  | .dropContext name => do
      let known := (← Run.memory).contexts.contains name
      Run.remember fun memory => { memory with contexts := memory.contexts.erase name }
      return .ok (.flag known)
  | .dropCancel name => do
      let known := (← Run.memory).cancels.contains name
      Run.remember fun memory => { memory with cancels := memory.cancels.erase name }
      return .ok (.flag known)
  | .watch context name => do
      let context ← Part.context frame context
      let watch ← Part.of (Run.withContexts fun contexts => contexts.watch context)
      match (← Run.memory).watches.get? name with
      | some old => Run.setContexts ((← Run.contexts).unwatch old)
      | none => pure ()
      Run.remember fun memory => { memory with watches := memory.watches.put name watch }
      return .ok .nothing
  | .poll name => do
      let watch ← Part.found "no watch" ((← Run.memory).watches.get? name)
      let (poll, contexts) ← Part.found "no watch" ((← Run.contexts).poll watch)
      Run.setContexts contexts
      if poll.outcome.isSome then
        Run.remember fun memory => { memory with watches := memory.watches.erase name }
      return .ok (.poll poll)

/-- The name under which a step saves the keys of its error. -/
def errorName? : Step → Option String
  | .resolve _ _ _ _ name => name
  | .invoke _ _ _ _ _ name => name
  | .tryInvoke _ _ _ _ _ _ name => name
  | _ => none

/-- The error that a step met. -/
def Answer.error? : Answer → Option Error
  | failed error => some error
  | missing error => some error
  | notInjected error => some error
  | _ => none

/-- The keys of an error: those of the cycle at its root, or else of its path. -/
def errorKeys (error : Error) : List Key :=
  match error.root with
  | .cycle chain => chain
  | _ => error.chain

/-- Save the keys of the error that a step met under the name it gives. -/
def saveError (step : Step) (answer : Answer) : Run Unit :=
  match errorName? step, answer.error? with
  | some name, some error =>
      Run.remember fun memory => { memory with errors := memory.errors.put name (errorKeys error) }
  | _, _ => return ()

/-- Carry out a step, and then let go of everything that nothing refers to any more. -/
def execute : Execution := fun frame step => do
  let before ← Run.memory
  let outcome ← (perform behaviour frame step).run
  let answer :=
    match outcome with
    | .ok answer => answer
    | .error answer => answer
  saveError step answer
  Run.remember fun memory =>
    { memory with usedScopes := before.usedScopes, usedContexts := before.usedContexts }
  Run.tidy behaviour
  return answer

end Provision.Session
