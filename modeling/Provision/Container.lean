import Provision.Builder

/-!
# Using scopes

The requests that a client makes of a scope: resolving a key, calling a function with injected
parameters, resolving through a handle, closing, and letting go.
-/

namespace Provision

variable {U : Client} {α : Type}

namespace Scope

/-- Resolve a key as a service of the key's type. -/
def resolveTyped (scope : Scope U) (context : ContextId) (key : Key) : Request U (Value U) := do
  let value ← resolve scope context key
  if value.type = key.type then pure value else Request.fail (.typeMismatch key)

/-- Resolve everything registered for a type, in the order of registration. -/
def resolveAll (scope : Scope U) (context : ContextId) (type : ServiceType) :
    Request U (Value U) :=
  scope.resolveTyped context (.of (.list type))

/-- The arguments for parameters outside of any service: errors are not wrapped, and every
parameter is resolved on its own. -/
def inject (scope : Scope U) (context : ContextId) (flag : FlagId) :
    List Param → Request U (List (Argument U))
  | [] => pure []
  | param :: params => do
      let first ← Resolver.argument (fun scope context key _ => resolve scope context key)
        scope context [] flag param
      let rest ← scope.inject context flag params
      pure (first :: rest)

/-- The arguments to call a function with.  A handle among them may be used at once. -/
def invocation (scope : Scope U) (context : ContextId) (params : List Param) :
    Request U (List (Argument U)) := do
  ensureUsable context
  ensureOpen scope.id
  let flag ← Request.act .newFlag
  Request.act (.raise flag)
  let arguments ← scope.inject context flag params
  takeAll params arguments
  pure arguments

/-- Call a function with injected parameters. -/
def invoke (scope : Scope U) (context : ContextId) (params : List Param)
    (body : List (Argument U) → Program U α) : Request U α := do
  let arguments ← scope.invocation context params
  ExceptT.lift (body arguments)

/-- Run closers of a scope in the given order and collect the failures in that order. -/
def runClosers (scope : ScopeId) (context : ContextId) :
    List (PendingCloser U) → Program U (List UserError)
  | [] => pure []
  | closer :: rest => do
      match ← Program.callClient (closer.call scope context) with
      | none => runClosers scope context rest
      | some failure => do
          Program.callClient (.report (.closerFailed closer.service failure.message))
          let failures ← runClosers scope context rest
          pure (failure :: failures)

/-- Close a scope: it is marked closed, and its closers run, the newest first.  All of them run,
and their failures are reported together.  A scope is closed at most once. -/
def close (scope : Scope U) (context : ContextId) : Request U Unit := do
  match ← Request.act (.shut scope.id) with
  | none => Request.fail .closed
  | some closers =>
      Request.report (.closingScope scope.id scope.depth closers.length)
      let failures ← ExceptT.lift (runClosers scope.id context closers.reverse)
      if failures.isEmpty then pure () else Request.fail (.closing failures)

/-- Let go of a scope.  Closers that were never run are worth a warning. -/
def discard (scope : Scope U) : Program U Unit := do
  let pending : Nat ← Program.act (.discard scope.id)
  if pending = 0 then
    pure ()
  else
    Program.callClient (.report (.droppedOpen scope.id pending))

end Scope

namespace Handle

/-- A handle may be used once the function it was given to has returned, and as long as its scope
is there. -/
def ensureReady (handle : Handle U) (key : Key) : Request U Unit := do
  let ready : Bool ← Request.act (.isRaised handle.flag)
  if ready then
    let dropped : Bool ← Request.act (.isDropped handle.scope.id)
    if dropped then Request.fail .closed else pure ()
  else
    Request.fail (.usedDuringConstruction key)

/-- Resolve a key through a handle. -/
def resolve (handle : Handle U) (context : ContextId) (key : Key) : Request U (Value U) := do
  handle.ensureReady key
  Provision.resolve handle.scope context key

/-- Resolve a key through a handle as a service of the key's type. -/
def resolveTyped (handle : Handle U) (context : ContextId) (key : Key) :
    Request U (Value U) := do
  handle.ensureReady key
  handle.scope.resolveTyped context key

/-- Whether anything is registered under a key, as far as the scope is there; this may be asked
at any time. -/
def contains (handle : Handle U) (key : Key) : Program U Bool := do
  let dropped : Bool ← Program.act (.isDropped handle.scope.id)
  pure (!dropped && handle.scope.contains key)

/-- The scope behind a handle, as long as it is there. -/
def scopeId? (handle : Handle U) : Program U (Option ScopeId) := do
  let dropped : Bool ← Program.act (.isDropped handle.scope.id)
  pure (if dropped then none else some handle.scope.id)

/-- Whether the function that the handle was given to has returned. -/
def isReady (handle : Handle U) : Program U Bool :=
  Program.act (.isRaised handle.flag)

/-- The debug form of a handle. -/
def debugText (scope : Option ScopeId) (ready : Bool) : String :=
  "ScopeHandle \x7b scope: " ++ ScopeId.optionDebugText scope
    ++ ", ready: " ++ toString ready ++ " \x7d"

end Handle

/-- Let go of all scopes out of `live` that nobody needs: neither `held` themselves nor an
ancestor of a held scope.  They go in the order of the list, which has each scope before its
parent.  The result lists the scopes that stay. -/
def releaseUnheld (live held : List (Scope U)) : Program U (List (Scope U)) := do
  let needed := (held.map Scope.lineage).flatten
  let (stay, go) := live.partition fun scope => decide (scope.id ∈ needed)
  go.forM Scope.discard
  pure stay

end Provision
