import Provision.Key

/-!
# Errors

Everything that can go wrong is a cause, and the wording of a cause is one function of it.  An
error met while resolving a dependency is wrapped once for each service on the way, so an
error is a path of wrappers that ends in its root.
-/

namespace Provision

/-- Why a context may no longer be used. -/
inductive ContextError where
  | canceled
  | deadlineExceeded
  deriving DecidableEq, Repr

namespace ContextError

/-- The message of a context error. -/
def message : ContextError → String
  | canceled => "context canceled"
  | deadlineExceeded => "context deadline exceeded"

/-- The debug form of a context error. -/
def debugText : ContextError → String
  | canceled => "Canceled"
  | deadlineExceeded => "DeadlineExceeded"

end ContextError

/-- A single problem found while registrations are described or bound. -/
inductive Issue where
  | unsupportedKind (typeName reason : String)
  | duplicateAlias (service view : String)
  | redundantAlias (service view : String)
  | unknownParameter (service parameter tag : String)
  | decoratorSelfDependency (target : String)
  deriving DecidableEq, Repr

namespace Issue

/-- The message of an issue. -/
def message : Issue → String
  | unsupportedKind typeName reason =>
      typeName ++ " cannot be registered as a service: " ++ reason
  | duplicateAlias service view =>
      "alias " ++ view ++ " declared more than once for " ++ service
  | redundantAlias service view =>
      "alias " ++ view ++ " is the produced type of " ++ service ++ " itself"
  | unknownParameter service parameter tag =>
      "tag " ++ tag ++ " refers to " ++ parameter
        ++ ", which is not a parameter of the constructor for " ++ service
  | decoratorSelfDependency target =>
      "decorator for " ++ target ++ " must reference its target exactly once"

/-- The debug form of a record: its name and its fields in braces, each text quoted. -/
def debugRecord (name : String) (fields : List (String × String)) : String :=
  name ++ " \x7b "
    ++ String.intercalate ", " (fields.map fun field => field.1 ++ ": " ++ Text.quoted field.2)
    ++ " \x7d"

/-- The debug form of an issue. -/
def debugText : Issue → String
  | unsupportedKind typeName reason =>
      debugRecord "UnsupportedKind" [("type_name", typeName), ("reason", reason)]
  | duplicateAlias service view =>
      debugRecord "DuplicateAlias" [("service", service), ("alias", view)]
  | redundantAlias service view =>
      debugRecord "RedundantAlias" [("service", service), ("alias", view)]
  | unknownParameter service parameter tag =>
      debugRecord "UnknownParameter"
        [("service", service), ("parameter", parameter), ("tag", tag)]
  | decoratorSelfDependency target =>
      debugRecord "DecoratorSelfDependency" [("target", target)]

/-- A registration would occupy the key that lists everything registered as its item type, or
the list of its own type is occupied already. -/
def reserved (key : Key) : Issue :=
  unsupportedKind key.type.text "the key is reserved for the aggregate of its item type"

/-- The ambient types are injected and can never be offered by a registration. -/
def ofAmbient? : ServiceType → Option Issue
  | .context =>
      some (unsupportedKind ServiceType.context.text
        "the ambient context is injected, not registered")
  | .scopeHandle =>
      some (unsupportedKind ServiceType.scopeHandle.text
        "scope handles are injected, not registered")
  | _ => none

end Issue

mutual

/-- Everything that building a container, resolving from it or closing it can fail with. -/
inductive Error where
  /-- No registration for the key is visible from the scope. -/
  | notRegistered (key : Key)
  /-- The key is already being resolved further up the same request. -/
  | cycle (chain : List Key)
  /-- The scope, or the scope that owns the service, is closed. -/
  | closed
  /-- A constructor or a decorator of the client failed. -/
  | creationFailed (key : Key) (source : UserError)
  /-- Everything that is wrong with a list of registrations. -/
  | invalid (issues : List Issue)
  /-- A scoped service was asked for in the scope that registered it. -/
  | scopedFromOwner (key : Key)
  /-- A scope handle was used before the function it was given to returned. -/
  | usedDuringConstruction (key : Key)
  /-- The context of the request is done. -/
  | contextDone (reason : ContextError)
  /-- Resolving a dependency of a service failed with `source`. -/
  | dependency (service dependency : Key) (source : Error)
  /-- A resolved value does not have the type that its use requires. -/
  | typeMismatch (key : Key)
  /-- The failures of closers, in the order the closers ran. -/
  | closing (failures : List UserError)

/-- An error that a function of the client returned. -/
inductive UserError where
  /-- A plain message. -/
  | text (message : String)
  /-- An error of the client's own kind, possibly with a described cause. -/
  | described (message : String) (cause : Option String)
  /-- An error of a container, passed on by the client. -/
  | container (error : Error)
  /-- A context error, passed on by the client. -/
  | context (reason : ContextError)

end

mutual

/-- The message of an error. -/
def Error.message : Error → String
  | .notRegistered key => "service not registered: " ++ key.text
  | .cycle chain =>
      "dependency cycle detected: " ++ String.intercalate " -> " (chain.map Key.text)
  | .closed => "container is closed"
  | .creationFailed _ source => source.message
  | .invalid issues =>
      "invalid registrations: " ++ String.intercalate "; " (issues.map Issue.message)
  | .scopedFromOwner key =>
      "scoped service " ++ key.text ++ " must be resolved from a child scope"
  | .usedDuringConstruction key =>
      "resolving " ++ key.text
        ++ " through an injected scope is not supported within constructor function"
  | .contextDone reason => reason.message
  | .dependency service dependency source =>
      "resolving " ++ service.text ++ ": dependency " ++ dependency.text ++ ": " ++ source.message
  | .typeMismatch key => "resolved value for " ++ key.text ++ " has an unexpected type"
  | .closing failures =>
      "closing container: " ++ String.intercalate "; " (UserError.messages failures)

/-- The message of a client's error. -/
def UserError.message : UserError → String
  | .text message => message
  | .described message _ => message
  | .container error => error.message
  | .context reason => reason.message

/-- The messages of several errors, in their order. -/
def UserError.messages : List UserError → List String
  | [] => []
  | failure :: rest => failure.message :: UserError.messages rest

end

mutual

/-- The messages of the causes below an error, the nearest first. -/
def Error.causes : Error → List String
  | .creationFailed _ source => source.message :: source.causes
  | .dependency _ _ source => source.message :: source.causes
  | _ => []

/-- The messages of the causes below a client's error, the nearest first. -/
def UserError.causes : UserError → List String
  | .described _ (some cause) => [cause]
  | .container error => error.causes
  | _ => []

end

/-- A coarse classification of errors by their root. -/
inductive ErrorKind where
  | serviceNotRegistered
  | dependencyCycle
  | containerClosed
  | constructorError
  | validationError
  | scopeMisuse
  | contextError
  | typeMismatch
  | closeError
  deriving DecidableEq, Repr

namespace Error

/-- The error at the end of the path of dependency wrappers. -/
def root : Error → Error
  | dependency _ _ source => source.root
  | error => error

/-- The kind of the root. -/
def kind : Error → ErrorKind
  | dependency _ _ source => source.kind
  | notRegistered _ => .serviceNotRegistered
  | cycle _ => .dependencyCycle
  | closed => .containerClosed
  | creationFailed _ _ => .constructorError
  | invalid _ => .validationError
  | scopedFromOwner _ => .scopeMisuse
  | usedDuringConstruction _ => .scopeMisuse
  | contextDone _ => .contextError
  | typeMismatch _ => .typeMismatch
  | closing _ => .closeError

/-- The dependencies named by the wrappers, outermost first. -/
def dependencies : Error → List Key
  | dependency _ key source => key :: source.dependencies
  | _ => []

/-- The path from the service asked for to the dependency that failed; empty if the request
itself failed. -/
def chain : Error → List Key
  | dependency service key source => service :: key :: source.dependencies
  | _ => []

/-- The context error at the root, if the request stopped because of its context. -/
def contextError? (error : Error) : Option ContextError :=
  match error.root with
  | contextDone reason => some reason
  | _ => none

/-- The client's error at the root, if a function of the client failed. -/
def userError? (error : Error) : Option UserError :=
  match error.root with
  | creationFailed _ source => some source
  | _ => none

end Error

end Provision
