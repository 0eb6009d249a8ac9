import Provision.Session.Instance

/-!
# Answers of a session

What a step answers, and what is logged while it is carried out.  A failed step answers the error
that stopped it; a step that names something unknown is not possible and says so.
-/

namespace Provision.Session

/-- What can be seen of a scope. -/
structure ScopeInfo where
  id : ScopeId
  depth : Nat
  size : Nat
  owns : Bool
  closed : Bool
  keys : List String

/-- What can be seen of a context. -/
structure ContextInfo where
  error : Option ContextError
  deadline : Option Int

/-- What can be seen of a handle. -/
structure HandleInfo where
  ready : Bool
  scope : Option ScopeId

/-- What a successful step answers, apart from the answers of parallel requests. -/
inductive Reply where
  | nothing
  | built (scope : ScopeId)
  | number (number : Nat)
  | flag (flag : Bool)
  | text (text : String)
  | texts (texts : List String)
  | view (view : View)
  | views (views : List View)
  | typed (type : ServiceType) (view : View)
  | key (key : Key)
  | scope (info : ScopeInfo)
  | context (info : ContextInfo)
  | handle (info : HandleInfo)
  | poll (poll : Poll)

/-- How a step ends. -/
inductive Answer where
  | ok (reply : Reply)
  /-- The answers of requests that were made at once. -/
  | several (answers : List (Except Error Reply))
  | failed (error : Error)
  /-- A service that had to be there could not be resolved. -/
  | missing (error : Error)
  /-- A function could not be called because of its parameters. -/
  | notInjected (error : Error)
  /-- A function was called and returned an error of its own. -/
  | own (message : String)
  /-- The step cannot be carried out. -/
  | impossible (message : String)

/-- What happens during a step. -/
inductive Event where
  | called (type : ServiceType) (label : String) (args : List String)
  | made (ref : String)
  | converted (source : String) (target : ServiceType) (result : String)
  | decorating (type : ServiceType) (target label : String) (args : List String)
  | decorated (ref : String)
  | closing (ref label : String) (shape : CloserShape) (name : String)
      (context : Option (Option ContextError))
  | invoked (label : String) (args : List String)
  | notice (notice : Notice)
  | act (answer : Answer)

/-- How a closer sees its context. -/
def contextState : Option (Option ContextError) → String
  | none => "-"
  | some none => "ok"
  | some (some reason) => reason.debugText

/-- A label applied to arguments. -/
def application (label : String) (args : List String) : String :=
  label ++ "(" ++ String.intercalate "," args ++ ")"

/-- The line of an event; an act is told by its answer. -/
def Event.line? : Event → Option String
  | called type label args => some ("call " ++ type.name ++ " " ++ application label args)
  | made ref => some ("new " ++ ref)
  | converted source target result =>
      some ("cast " ++ source ++ " as " ++ target.name ++ " -> " ++ result)
  | decorating type target label args =>
      some ("call deco " ++ type.name ++ " on " ++ target ++ " " ++ application label args)
  | decorated ref => some ("deco -> " ++ ref)
  | closing ref label shape name context =>
      some ("close " ++ ref ++ " " ++ label ++ " " ++ shape.text ++ name
        ++ " ctx=" ++ contextState context)
  | invoked label args => some ("call fn " ++ application label args)
  | notice told => some told.line
  | act _ => none

end Provision.Session
