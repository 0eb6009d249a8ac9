import Provision.Session.Behaviour

/-!
# Describing registrations

Scripted registrations become offers and decorators.  Fixed values are made when they are
described, in order, and every function gets a number by which its calls are counted.
-/

namespace Provision.Session

/-- A part of a step, which may end the step with an answer of its own. -/
abbrev Part (α : Type) : Type :=
  ExceptT Answer Run α

namespace Part

/-- Take part in what happens in the session. -/
def of {α : Type} (run : Run α) : Part α :=
  ExceptT.lift run

/-- End the step because it cannot be carried out. -/
def impossible {α : Type} (message : String) : Part α :=
  throw (.impossible message)

/-- Go on with what was found, or end the step with a message. -/
def found {α : Type} (message : String) : Option α → Part α
  | some result => return result
  | none => impossible message

end Part

/-- The key saved from an error at an index. -/
def savedKey (error : String) (index : Nat) : Part Key := do
  let keys ← Part.found ("no error " ++ error) ((← Run.memory).errors.get? error)
  Part.found ("no key " ++ toString index) keys[index]?

/-- The tag that a script names. -/
def TagRef.resolve : TagRef → Part Tag
  | named name => return .named name
  | saved error index => do
      let key ← savedKey error index
      Part.found "no tag" key.tag

/-- The key that a script names. -/
def KeyRef.resolve : KeyRef → Part Key
  | typed type tags => do
      let tags ← tags.mapM TagRef.resolve
      return tags.foldl Key.withTag (Key.of type)
  | saved error index => savedKey error index

/-- The parameter that a script names. -/
def ParamRef.resolve : ParamRef → Part Param
  | context => return .context
  | scope => return .scope
  | service key => return .service (← key.resolve)

/-- Add a detail to an offer. -/
def OfferCall.apply (offer : Offer client) : OfferCall Step → Part (Offer client)
  | tag chosen => return offer.withTag (← chosen.resolve)
  | lifetime chosen => return offer.withLifetime chosen
  | lifetimeNamed name =>
      return offer.withLifetime (← Part.found ("lifetime " ++ name) (Lifetime.ofText? name))
  | alsoAs type => return offer.alsoAs type { source := offer.produces, target := type }
  | dependencyTag type chosen => return offer.dependencyTag type (← chosen.resolve)
  | closeable => return offer.closeWith { shape := .own }
  | noClose => return offer.withoutCloser
  | closeWith shape script => return offer.closeWith { shape, script }

/-- Describe what a service is made from. -/
def OriginScript.describe (type : ServiceType) : OriginScript Step → Part (Offer client)
  | value draft => do
      let serial ← Run.serial
      return Offer.value type (newContent draft [] serial type)
  | factory draft script => do
      let number ← Run.functionNumber
      let params ← script.params.mapM ParamRef.resolve
      return Offer.factory type { number, type, draft, script, params } params

/-- Describe a registration. -/
def RegistrationScript.describe : RegistrationScript Step → Part (Registration client)
  | service type origin calls => do
      let offer ← origin.describe type
      let offer ← calls.foldlM OfferCall.apply offer
      return .service offer
  | decorator type tag label script pass => do
      let number ← Run.functionNumber
      let params ← script.params.mapM ParamRef.resolve
      let tag ← tag.mapM TagRef.resolve
      let target : Key := { type, tag }
      return .decorator
        { target, params, transform := { number, type, label, script, params, pass } }

/-- Describe registrations in order. -/
def describeAll (scripts : List (RegistrationScript Step)) :
    Part (List (Registration client)) :=
  scripts.mapM RegistrationScript.describe

end Provision.Session
