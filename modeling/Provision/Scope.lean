import Provision.Context
import Provision.Registry

/-!
# Scopes

Scopes form a tree.  What a scope is never changes: its identity, the registry it was built with,
and its parent.  Here belong also the handles to scopes and the arguments that are passed to
functions of the client.  What does change in a scope is its `ScopeState`.
-/

namespace Provision

variable {U : Client}

/-- What a scope has of its own: its identity, the bindings visible from it, and whether it added
any to those of its parent. -/
structure ScopeNode (U : Client) where
  id : ScopeId
  registry : Registry U
  ownsRegistry : Bool

/-- A scope with all its ancestors. -/
inductive Scope (U : Client) where
  | root (node : ScopeNode U)
  | child (node : ScopeNode U) (parent : Scope U)

namespace Scope

/-- What the scope has of its own. -/
def node : Scope U → ScopeNode U
  | root node => node
  | child node _ => node

/-- The identity of the scope. -/
def id (scope : Scope U) : ScopeId :=
  scope.node.id

/-- The bindings visible from the scope. -/
def registry (scope : Scope U) : Registry U :=
  scope.node.registry

/-- Whether the scope added registrations to those of its parent. -/
def ownsRegistry (scope : Scope U) : Bool :=
  scope.node.ownsRegistry

/-- The parent of a child scope. -/
def parent? : Scope U → Option (Scope U)
  | root _ => none
  | child _ parent => some parent

/-- The number of ancestors. -/
def depth : Scope U → Nat
  | root _ => 0
  | child _ parent => parent.depth + 1

/-- The identities of the scope and its ancestors, from the scope to the root. -/
def lineage : Scope U → List ScopeId
  | root node => [node.id]
  | child node parent => node.id :: parent.lineage

/-- The scope itself or the ancestor with an identity. -/
def ancestor? (wanted : ScopeId) : Scope U → Option (Scope U)
  | root node => if node.id = wanted then some (root node) else none
  | child node parent =>
      if node.id = wanted then some (child node parent) else parent.ancestor? wanted

/-- Whether anything is registered under a key in this scope or an ancestor. -/
def contains (scope : Scope U) (key : Key) : Bool :=
  scope.registry.contains key

/-- The debug form of a scope. -/
def debugText (scope : Scope U) (closed : Bool) : String :=
  "Container \x7b id: " ++ scope.id.debugText
    ++ ", depth: " ++ toString scope.depth
    ++ ", parent: " ++ ScopeId.optionDebugText (scope.parent?.map id)
    ++ ", service_count: " ++ toString scope.registry.size
    ++ ", owns_registry: " ++ toString scope.ownsRegistry
    ++ ", closed: " ++ toString closed ++ " \x7d"

end Scope

/-- The identity of a flag that is raised when a function of the client has returned. -/
structure FlagId where
  index : Nat
  deriving DecidableEq, Repr

/-- A handle to the scope that a function of the client was called for.  The handle may be used
once its flag is raised; it does not keep the scope alive. -/
structure Handle (U : Client) where
  scope : Scope U
  flag : FlagId

/-- What a function of the client is passed for a parameter. -/
inductive Argument (U : Client) where
  | context (context : ContextId)
  | scope (handle : Handle U)
  | service (value : Value U)

end Provision
