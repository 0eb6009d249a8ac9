import Provision.Registration
import Provision.Context

/-!
# Scripts

A session is a list of steps that build, use and close containers by name.  The functions that
its registrations bring are scripts as well: they log that they were called, carry out steps of
their own, and then fail or return as they are told.

Everything here is data.  Scripts are written for any type `S` of steps, so that steps can hold
the scripts of functions whose acts are steps again.
-/

namespace Provision.Session

/-- A tag as a script names it: by its name, or as the tag of a key saved from an error. -/
inductive TagRef where
  | named (name : String)
  | saved (error : String) (index : Nat)
  deriving Repr

/-- A key as a script names it: a type with tags of which the last counts, or a key saved from an
error. -/
inductive KeyRef where
  | typed (type : ServiceType) (tags : List TagRef)
  | saved (error : String) (index : Nat)
  deriving Repr

/-- A parameter as a script names it. -/
inductive ParamRef where
  | context
  | scope
  | service (key : KeyRef)
  deriving Repr

/-- What a scripted closer does: its acts, and then its failure if it has one.  The name tells
closers of one shape apart. -/
structure CloseScript (S : Type) where
  fail : Option UserError := none
  acts : List S := []
  name : String := ""

/-- How a closer is called.  The shapes without a result cannot fail, and only two of the shapes
that a registration may choose are passed the context.  `own` is the closing that an instance
brings along. -/
inductive CloserShape where
  | withContext
  | contextOnly
  | errorOnly
  | noArguments
  | own
  deriving DecidableEq, Repr

namespace CloserShape

/-- The word for a shape. -/
def text : CloserShape → String
  | withContext => "with_ctx"
  | contextOnly => "ctx_only"
  | errorOnly => "error_only"
  | noArguments => "no_args"
  | own => "Close"

/-- Whether a closer of the shape is passed the context. -/
def takesContext : CloserShape → Bool
  | withContext => true
  | contextOnly => true
  | errorOnly => false
  | noArguments => false
  | own => true

/-- Whether a closer of the shape can fail. -/
def canFail : CloserShape → Bool
  | withContext => true
  | contextOnly => false
  | errorOnly => true
  | noArguments => false
  | own => true

end CloserShape

/-- What an instance is made with: a label, whether parameters refuse it, and how it closes. -/
structure Draft (S : Type) where
  label : String := ""
  refused : Bool := false
  onClose : CloseScript S := {}

/-- What a scripted function does when it is called: its acts, and then its failure, on all of
its calls or only on the first few. -/
structure FunctionScript (S : Type) where
  params : List ParamRef := []
  acts : List S := []
  fail : Option UserError := none
  failTimes : Option Nat := none

/-- What a scripted service is made from. -/
inductive OriginScript (S : Type) where
  | value (draft : Draft S)
  | factory (draft : Draft S) (function : FunctionScript S)

/-- One detail of a scripted offer.  A lifetime is chosen as such or by its word, which may name
none. -/
inductive OfferCall (S : Type) where
  | tag (tag : TagRef)
  | lifetime (lifetime : Lifetime)
  | lifetimeNamed (name : String)
  | alsoAs (type : ServiceType)
  | dependencyTag (type : ServiceType) (tag : TagRef)
  | closeable
  | noClose
  | closeWith (shape : CloserShape) (script : CloseScript S)

/-- A scripted registration: a service with its details in order, or a decorator, which may hand
on what it decorates as it is. -/
inductive RegistrationScript (S : Type) where
  | service (type : ServiceType) (origin : OriginScript S) (calls : List (OfferCall S))
  | decorator (target : ServiceType) (tag : Option TagRef) (label : String)
      (function : FunctionScript S) (pass : Bool)

/-- How a step makes a context. -/
inductive ContextMaking where
  | background
  | same
  | cancelable
  | deadline (seconds : Int)
  | timeout (seconds : Int)
  deriving Repr

/-- How a key is resolved: as a service of its type, as everything registered for a type, as
whatever it holds, or as a service that has to be there. -/
inductive ResolveManner where
  | typed
  | all
  | untyped
  | required
  deriving DecidableEq, Repr

/-- A step of a session.  Steps name scopes, builders, handles, contexts, watches and saved
errors.  A context that is not named is a fresh one. -/
inductive Step where
  | container (name : String) (registrations : List (RegistrationScript Step))
  | scope (name parent : String) (registrations : List (RegistrationScript Step))
  | builder (name : String) (parent : Option String)
  | register (builder : String) (registrations : List (RegistrationScript Step))
  | builderDebug (builder : String)
  | build (builder name : String)
  | registrationsDebug (registrations : List (RegistrationScript Step))
  | keyInfo (key : KeyRef)
  | clone (scope name : String)
  | drop (scope : String)
  | resolve (manner : ResolveManner) (scope : String) (key : KeyRef) (context : Option String)
      (saveError : Option String)
  | contains (scope : String) (key : KeyRef)
  | parallel (scope : String) (key : KeyRef) (count : Nat)
  | info (scope : String)
  | debug (scope : String)
  | close (scope : String) (context : Option String)
  | invoke (scope : String) (context : Option String) (label : String)
      (params : List ParamRef) (acts : List Step) (saveError : Option String)
  | tryInvoke (scope : String) (context : Option String) (label : String)
      (params : List ParamRef) (acts : List Step) (fail : Option String)
      (saveError : Option String)
  | keepHandle (handle name : String)
  | handleResolve (manner : ResolveManner) (handle : String) (key : KeyRef)
      (context : Option String)
  | handleContains (handle : String) (key : KeyRef)
  | handleInfo (handle : String)
  | makeContext (name : String) (making : ContextMaking) (origin : Option String)
  | contextInfo (context : Option String)
  | cancel (context : String)
  | cancelDebug (context : String)
  | keepContext (context : Option String) (name : String)
  | dropContext (context : String)
  | dropCancel (context : String)
  | watch (context : Option String) (name : String)
  | poll (watch : String)

end Provision.Session
