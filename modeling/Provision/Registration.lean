import Provision.Registry

/-!
# Registrations

A client describes what it offers: a service, with its lifetime, tag, aliases and closer, or a
decorator of a service.  What is wrong with a description is collected in it and reported when
a container is built from it, so that one build reports everything.
-/

namespace Provision

variable {U : Client}

/-- What an offered service is made from: a fixed value, or a constructor and its parameters. -/
inductive Origin (U : Client) where
  | value (content : Content U)
  | factory (make : U.Constructor) (params : List Param)

/-- The description of an offered service.  An offer with aliases is visible under these only. -/
structure Offer (U : Client) where
  produces : ServiceType
  origin : Origin U
  lifetime : Lifetime := .singleton
  tag : Option Tag := none
  aliases : List (ServiceType × U.Cast) := []
  closer : Option U.Closer := none
  issues : List Issue := []

namespace Offer

/-- An offer of a type; the types of ambient values cannot be offered. -/
def ofOrigin (produces : ServiceType) (origin : Origin U) : Offer U :=
  { produces, origin, issues := (Issue.ofAmbient? produces).toList }

/-- Offer a fixed value. -/
def value (produces : ServiceType) (content : Content U) : Offer U :=
  ofOrigin produces (.value content)

/-- Offer what a constructor makes of its parameters. -/
def factory (produces : ServiceType) (make : U.Constructor) (params : List Param) : Offer U :=
  ofOrigin produces (.factory make params)

/-- Set the lifetime. -/
def withLifetime (offer : Offer U) (lifetime : Lifetime) : Offer U :=
  { offer with lifetime }

/-- Offer the service under a tag. -/
def withTag (offer : Offer U) (tag : Tag) : Offer U :=
  { offer with tag := some tag }

/-- Close instances with a function. -/
def closeWith (offer : Offer U) (close : U.Closer) : Offer U :=
  { offer with closer := some close }

/-- Do not close instances. -/
def withoutCloser (offer : Offer U) : Offer U :=
  { offer with closer := none }

/-- Note an issue. -/
def reject (offer : Offer U) (issue : Issue) : Offer U :=
  { offer with issues := offer.issues ++ [issue] }

/-- Offer the service as another type, which must be neither the type it has, nor an alias
already, nor the type of an ambient value. -/
def alsoAs (offer : Offer U) (type : ServiceType) (cast : U.Cast) : Offer U :=
  if type = offer.produces then
    offer.reject (.redundantAlias offer.produces.text type.text)
  else if offer.aliases.any fun known => decide (known.1 = type) then
    offer.reject (.duplicateAlias offer.produces.text type.text)
  else
    match Issue.ofAmbient? type with
    | some issue => offer.reject issue
    | none => { offer with aliases := offer.aliases ++ [(type, cast)] }

/-- Tag the first parameter that asks for a type without a tag, if there is one. -/
def retag (type : ServiceType) (tag : Tag) : List Param → Option (List Param)
  | [] => none
  | param :: rest =>
      if param = .service (.of type) then
        some (.service ((Key.of type).withTag tag) :: rest)
      else
        (retag type tag rest).map (param :: ·)

/-- Take the first untagged parameter of a type from the registration under a tag. -/
def dependencyTag (offer : Offer U) (type : ServiceType) (tag : Tag) : Offer U :=
  let unknown := offer.reject (.unknownParameter offer.produces.text type.text tag.text)
  match offer.origin with
  | .value _ => unknown
  | .factory make params =>
      match retag type tag params with
      | some params => { offer with origin := .factory make params }
      | none => unknown

/-- The parameters of the constructor; a fixed value has none. -/
def params (offer : Offer U) : List Param :=
  match offer.origin with
  | .value _ => []
  | .factory _ params => params

/-- How instances of the offered service come about. -/
def source (offer : Offer U) : Source U :=
  match offer.origin with
  | .value content => .value content
  | .factory make _ => .factory make

/-- The recipe of an offered service. -/
def recipe (offer : Offer U) (id : RecipeId) : Recipe U where
  id := id
  produces := offer.produces
  lifetime := offer.lifetime
  params := offer.params
  source := offer.source
  closer := offer.closer

/-- The types under which the service is visible, with the conversions to them: the aliases, or
else the type it has. -/
def views (offer : Offer U) : List (ServiceType × Option U.Cast) :=
  match offer.aliases with
  | [] => [(offer.produces, none)]
  | aliases => aliases.map fun known => (known.1, some known.2)

end Offer

/-- A decorator must not depend on the key it decorates. -/
def Decorator.selfDependency? (decorator : Decorator U) : Option Issue :=
  if .service decorator.target ∈ decorator.params then
    some (.decoratorSelfDependency decorator.target.text)
  else
    none

/-- What a client registers. -/
inductive Registration (U : Client) where
  | service (offer : Offer U)
  | decorator (decorator : Decorator U)

/-- What is wrong with a registration by itself. -/
def Registration.issues : Registration U → List Issue
  | service offer => offer.issues
  | decorator added => added.selfDependency?.toList

/-- The debug form of a registration does not tell what is registered. -/
def Registration.debugText (_ : Registration U) : String :=
  "Registration \x7b .. \x7d"

end Provision
