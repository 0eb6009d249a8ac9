import Provision.Error
import Provision.Lifetime
import Provision.ScopeId

/-!
# Services

What a container knows about the things it provides.  The client of a container brings the
objects and the functions that make, decorate, convert and close them; the container only
moves them around, so it is written for any `Client`.

A value carries the type it is held as.  The type is compared wherever a value is used, although a
container never hands a value to a place of another type.
-/

namespace Provision

/-- What the client of a container brings: its objects, and names for its functions. -/
structure Client where
  /-- Things that constructors make. -/
  Object : Type
  /-- Functions that make a service from its parameters. -/
  Constructor : Type
  /-- Functions that decorate a service. -/
  Transform : Type
  /-- Functions that view a service as another type. -/
  Cast : Type
  /-- Functions that close a service. -/
  Closer : Type
  /-- Functions that are called once with injected parameters. -/
  Routine : Type

variable {U : Client}

/-- What a service is: one object of the client, or a list of services. -/
inductive Content (U : Client) where
  | object (object : U.Object)
  | list (items : List (Content U))

/-- A service as it travels through a container, with the type it is held as. -/
structure Value (U : Client) where
  type : ServiceType
  content : Content U

/-- A parameter of a function of the client: the context of the request, a handle to the scope,
or the service under a key. -/
inductive Param where
  | context
  | scope
  | service (key : Key)
  deriving DecidableEq, Repr

/-- The identity of a recipe.  A registration is the `index`-th that its scope accepted; the
recipes of lists are told apart by their items and never keep instances. -/
inductive RecipeId where
  | registration (scope : ScopeId) (index : Nat)
  | list (item : ServiceType)
  deriving DecidableEq, Repr

/-- How the instances of a service come about. -/
inductive Source (U : Client) where
  /-- A fixed value. -/
  | value (content : Content U)
  /-- A constructor of the client. -/
  | factory (make : U.Constructor)
  /-- The list of everything registered for an item type. -/
  | list (item : ServiceType)

/-- The recipe of a service. -/
structure Recipe (U : Client) where
  id : RecipeId
  produces : ServiceType
  lifetime : Lifetime
  params : List Param
  source : Source U
  closer : Option U.Closer

/-- Whether the recipe collects the items of a list. -/
def Recipe.isList (recipe : Recipe U) : Bool :=
  match recipe.source with
  | .list _ => true
  | _ => false

/-- The recipe of the list of `items`, all registered for one item type.  A list is collected
anew for every request, and its items are resolved like any parameter. -/
def Recipe.ofItems (item : ServiceType) (items : List Param) : Recipe U where
  id := .list item
  produces := .list item
  lifetime := .transient
  params := items
  source := .list item
  closer := none

/-- What is found under a key: a recipe, the key it was registered under, the scope that
registered it, and the conversion to the type of the key if the recipe produces another. -/
structure Binding (U : Client) where
  recipe : Recipe U
  registered : Key
  owner : ScopeId
  cast : Option U.Cast

/-- A function that is applied to every instance made under a key. -/
structure Decorator (U : Client) where
  target : Key
  params : List Param
  transform : U.Transform

/-- The closing of one service that a scope has promised to carry out. -/
structure PendingCloser (U : Client) where
  recipe : Recipe U
  close : U.Closer
  subject : Content U

/-- The service that a pending closer is for. -/
def PendingCloser.service (closer : PendingCloser U) : Key :=
  .of closer.recipe.produces

/-- The promise to close a value, if the recipe has a closer and the value has the type that the
closer takes. -/
def Recipe.closerFor? (recipe : Recipe U) (value : Value U) : Option (PendingCloser U) :=
  match recipe.closer with
  | none => none
  | some close =>
      if value.type = recipe.produces then
        some { recipe, close, subject := value.content }
      else
        none

/-- What resolving a key comes to. -/
abbrev Outcome (U : Client) : Type :=
  Except Error (Value U)

end Provision
