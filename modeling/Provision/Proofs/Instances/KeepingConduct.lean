import Provision.Proofs.Execution.CellHistories
import Provision.Proofs.Resolution.DependencyGraph
import Provision.Proofs.Registries.TreeGrowth

/-!
# Keeping values

What requests do to make a value and to keep it: they construct the instance of a recipe only if
they entered its cell, show it under a key only if they entered the cell for that key, and hand to
constructors and decorators what resolution yields for the keys that these need.

Main statement: `kept_keeping`, that all requests keep to this conduct.
-/

namespace Provision

open Moment

variable {U : Client}

/-- The transforms that an event applies to what a scope shows of a recipe under a key. -/
def Event.decorates (scope : ScopeId) (recipe : RecipeId) (key : Key) :
    Event U → List U.Transform
  | .called (.decorate site target transform _ _) =>
      if site.scope = scope ∧ site.recipe.id = recipe ∧ target = key then [transform] else []
  | _ => []

/-- The transforms that a request applied to what a scope shows of a recipe under a key, the last
first. -/
def decorationsBy (history : List (Entry U)) (id : RequestId) (scope : ScopeId)
    (recipe : RecipeId) (key : Key) : List U.Transform :=
  history.flatMap fun entry =>
    if entry.request = id then entry.event.decorates scope recipe key else []

namespace Moment

/-- A constructor was called for a site and returned an instance. -/
def Instance (moment : Moment U) (site : Site U) (content : Content U) : Prop :=
  ∃ id make arguments, moment.Did id (.returned (.construct site make arguments) (.ok content))

/-- What became of some content by converting and decorating it for a key. -/
inductive StandsFor (moment : Moment U) (site : Site U) (key : Key) (origin : Content U) :
    Content U → Prop where
  | same : StandsFor moment site key origin origin
  | converted {id : RequestId} {cast : U.Cast} {content converted : Content U} :
      StandsFor moment site key origin content →
        moment.Did id (.returned (.convert site key cast content) converted) →
          StandsFor moment site key origin converted
  | decorated {id : RequestId} {transform : U.Transform} {content decorated : Content U}
      {arguments : List (Argument U)} : StandsFor moment site key origin content →
        moment.Did id (.returned (.decorate site key transform content arguments)
          (.ok decorated)) →
          StandsFor moment site key origin decorated

/-- A value is the one that the home of a key's service shows, if it keeps any. -/
def Shares (moment : Moment U) (scope : Scope U) (key : Key) (value : Value U) : Prop :=
  ∀ binding home, scope.Finds key binding home → binding.recipe.lifetime.isKept = true →
    moment.Settled home.id (.shown binding.recipe.id binding.registered) (.ok value)

/-- A value is the list of what its items yield, if its key is that of a list. -/
def Collects (moment : Moment U) (scope : Scope U) (key : Key) (value : Value U) : Prop :=
  ∀ binding home item, scope.Finds key binding home → binding.recipe.source = .list item →
    ∃ arguments, List.Forall₂ (Fits (moment.Shares home)) binding.recipe.params arguments ∧
      moment.StandsFor ⟨home.id, binding.recipe⟩ binding.registered
        (.list (itemsOf item arguments)) value.content

/-- What resolving a key of a scope yields. -/
structure Yields (moment : Moment U) (scope : Scope U) (key : Key) (value : Value U) : Prop where
  type : value.type = key.type
  shares : moment.Shares scope key value
  collects : moment.Collects scope key value

/-- The scope of a site, with the recipe among its registrations. -/
structure Houses (moment : Moment U) (site : Site U) (home : Scope U) : Prop where
  isScope : moment.IsScope home
  id : home.id = site.scope
  registered : ∃ key binding, home.registry.find? key = some binding ∧ binding.recipe = site.recipe

/-- A binding in the scope that keeps what it yields. -/
structure Homes (moment : Moment U) (key : Key) (binding : Binding U) (home : Scope U) :
    Prop where
  isScope : moment.IsScope home
  bound : home.registry.find? key = some binding
  proper : binding.Proper key

/-- What may be kept in a cell: in that of a recipe an instance, and in that of a key what became
of the instance. -/
def Vouches (moment : Moment U) (scope : ScopeId) (value : Value U) : CacheKey → Prop
  | .made id => ∃ recipe home, recipe.id = id ∧ recipe.lifetime.isKept = true ∧
      moment.Houses ⟨scope, recipe⟩ home ∧ value.type = recipe.produces ∧
        ∀ make, recipe.source = .factory make → moment.Instance ⟨scope, recipe⟩ value.content
  | .shown id key => value.type = key.type ∧ ∃ recipe home made, recipe.id = id ∧
      recipe.lifetime.isKept = true ∧ moment.Houses ⟨scope, recipe⟩ home ∧
        moment.Settled scope (.made id) (.ok made) ∧
          moment.StandsFor ⟨scope, recipe⟩ key made.content value.content

/-- No constructor of a registration has returned to a request. -/
def Unreturned (moment : Moment U) (id : RequestId) (site : Site U) : Prop :=
  ∀ recipe make arguments answer, recipe.id = site.recipe.id →
    ¬ moment.Did id (.returned (.construct ⟨site.scope, recipe⟩ make arguments) answer)

/-- When a request may call a constructor: with all that it needs, and if the instance is kept,
only after entering its cell and only once. -/
structure MayConstruct (moment : Moment U) (id : RequestId) (site : Site U)
    (arguments : List (Argument U)) (home : Scope U) : Prop where
  houses : moment.Houses site home
  fits : List.Forall₂ (Fits (moment.Yields home)) site.recipe.params arguments
  entered : site.recipe.lifetime.isKept = true →
    moment.Entered id site.scope (.made site.recipe.id)
  first : site.recipe.lifetime.isKept = true → ∀ recipe make arguments,
    recipe.id = site.recipe.id →
      ¬ moment.Did id (.called (.construct ⟨site.scope, recipe⟩ make arguments))
  unreturned : site.recipe.lifetime.isKept = true → moment.Unreturned id site

/-- When a request may call a decorator: with all that it needs, and if the value is kept, only
after entering the cell of the key and all decorators before this one. -/
structure MayDecorate (moment : Moment U) (id : RequestId) (site : Site U) (key : Key)
    (decorator : Decorator U) (arguments : List (Argument U)) (home : Scope U) : Prop where
  houses : moment.Houses site home
  fits : List.Forall₂ (Fits (moment.Yields home)) decorator.params arguments
  entered : site.recipe.lifetime.isKept = true →
    moment.Entered id site.scope (.shown site.recipe.id key)
  next : ∃ before after, home.registry.decoratorsOf key = before ++ decorator :: after ∧
    (site.recipe.lifetime.isKept = true →
      decorationsBy moment.history id site.scope site.recipe.id key =
        (before.map Decorator.transform).reverse)

/-- What a constructor made is converted as it is. -/
def MayConvert (moment : Moment U) (site : Site U) (content : Content U) : Prop :=
  ∀ make, site.recipe.source = .factory make → moment.Instance site content

end Moment

/-- Requests make values of what they need and only where nobody else does, and keep what they
made. -/
def Conduct.keeping : Conduct U := fun moment entry =>
  match entry.event with
  | .performed (.settle scope cell outcome) _ => moment.Fills entry.request scope cell ∧
      ∀ value, outcome = .ok value → moment.Vouches scope value cell
  | .called (.construct site _ arguments) =>
      ∃ home, moment.MayConstruct entry.request site arguments home
  | .called (.decorate site key transform _ arguments) => ∃ decorator home,
      decorator.transform = transform ∧
        moment.MayDecorate entry.request site key decorator arguments home
  | .called (.convert site _ _ content) => moment.MayConvert site content
  | .returned (.construct site make arguments) _ =>
      moment.Did entry.request (.called (.construct site make arguments)) ∧
        (site.recipe.lifetime.isKept = true → moment.Unreturned entry.request site)
  | .finished (.ok (.resolved value)) => ∃ demand, moment.Did entry.request (.started demand) ∧
      ∀ scope key, demand.Asks scope key → moment.Yields scope key value
  | _ => True

/-- Requests that keep what they make settle cells as they should. -/
theorem Conduct.settling_of_keeping {moment : Moment U} {entry : Entry U}
    (keeps : Conduct.keeping moment entry) : Conduct.settling moment entry := by
  obtain ⟨id, event⟩ := entry
  cases event with
  | performed operation answer => cases operation <;> first | exact trivial | exact keeps.1
  | called call => trivial
  | returned call answer => trivial
  | started demand => trivial
  | finished reply => trivial

/-- Events that attend keep to the conduct. -/
theorem Conduct.keeping_of_attending {moment : Moment U} {id : RequestId} {event : Event U}
    (attending : event.Attending) : Conduct.keeping moment ⟨id, event⟩ := by
  cases event with
  | performed operation answer =>
      cases operation <;> first | exact trivial | exact attending.elim
  | called call => cases call <;> first | exact trivial | exact attending.elim
  | returned call answer => cases call <;> first | exact trivial | exact attending.elim
  | started demand => trivial
  | finished reply => exact attending.elim

/-- Events of requests that do not resolve keep to the conduct. -/
theorem Conduct.keeping_of_tending {moment : Moment U} {id : RequestId} {event : Event U}
    (tending : event.Tending) : Conduct.keeping moment ⟨id, event⟩ := by
  cases event with
  | performed operation answer =>
      cases operation <;> first | exact trivial | exact tending.elim
  | called call => exact keeping_of_attending (Event.Disposing.attending tending)
  | returned call answer => exact keeping_of_attending (Event.Disposing.attending tending)
  | started demand => trivial
  | finished reply => exact tending.elim

/-! ## What lasts -/

namespace Moment

variable {moment next : Moment U} {site : Site U} {home scope : Scope U} {key : Key}

section Grows

variable (grows : moment.history <:+ next.history)

include grows

theorem Instance.mono {content : Content U} (made : moment.Instance site content) :
    next.Instance site content := by
  obtain ⟨id, make, arguments, did⟩ := made
  exact ⟨id, make, arguments, grows.mem did⟩

theorem StandsFor.mono {origin content : Content U}
    (stands : moment.StandsFor site key origin content) :
    next.StandsFor site key origin content := by
  induction stands with
  | same => exact .same
  | converted _ did ih => exact .converted ih (grows.mem did)
  | decorated _ did ih => exact .decorated ih (grows.mem did)

theorem Shares.mono {value : Value U} (shares : moment.Shares scope key value) :
    next.Shares scope key value :=
  fun binding home finds kept => (shares binding home finds kept).mono grows

theorem Yields.mono {value : Value U} (yields : moment.Yields scope key value) :
    next.Yields scope key value where
  type := yields.type
  shares := yields.shares.mono grows
  collects := by
    intro binding home item finds isList
    obtain ⟨arguments, fits, stands⟩ := yields.collects binding home item finds isList
    refine ⟨arguments, fits.imp fun _ _ fit => fit.mono fun _ _ => ?_, stands.mono grows⟩
    exact fun shares => shares.mono grows

theorem Houses.mono (houses : moment.Houses site home) : next.Houses site home where
  isScope := houses.isScope.mono grows
  id := houses.id
  registered := houses.registered

theorem Homes.mono {binding : Binding U} (homes : moment.Homes key binding home) :
    next.Homes key binding home :=
  ⟨homes.isScope.mono grows, homes.bound, homes.proper⟩

theorem MayConvert.mono {content : Content U} (may : moment.MayConvert site content) :
    next.MayConvert site content :=
  fun make isFactory => (may make isFactory).mono grows

end Grows

/-- The home of a key houses its instances. -/
theorem Homes.houses {binding : Binding U} (homes : moment.Homes key binding home) :
    moment.Houses ⟨home.id, binding.recipe⟩ home :=
  ⟨homes.isScope, rfl, key, binding, homes.bound, rfl⟩

/-- Bindings of one registration whose instances are kept agree about it. -/
theorem Homes.agree {binding other : Binding U} {second : Key} {otherHome : Scope U}
    (lawful : moment.Lawful (Conduct.orderly.and Conduct.growing))
    (homes : moment.Homes key binding home) (homes' : moment.Homes second other otherHome)
    (scopes : home.id = otherHome.id) (recipes : binding.recipe.id = other.recipe.id)
    (kept : binding.recipe.lifetime.isKept = true) :
    binding.recipe = other.recipe ∧
      (binding.cast = none → other.cast = none ∧ binding.registered = other.registered) := by
  have same := homes.isScope.eq_of_id lawful homes'.isScope scopes
  subst same
  exact (homes.isScope.grown lawful).built.sound.agree homes.bound homes'.bound recipes kept

/-- A registration is known by its scope and the identity of its recipe. -/
theorem Houses.unique {other : Site U} {otherHome : Scope U}
    (lawful : moment.Lawful (Conduct.orderly.and Conduct.growing))
    (houses : moment.Houses site home) (houses' : moment.Houses other otherHome)
    (scopes : site.scope = other.scope) (recipes : site.recipe.id = other.recipe.id)
    (kept : site.recipe.lifetime.isKept = true) :
    home = otherHome ∧ site.recipe = other.recipe := by
  have homes := houses.isScope.eq_of_id lawful houses'.isScope
    (houses.id.trans (scopes.trans houses'.id.symm))
  subst homes
  obtain ⟨key, binding, finds, isSite⟩ := houses.registered
  obtain ⟨key', binding', finds', isOther⟩ := houses'.registered
  have sound := (houses.isScope.grown lawful).built.sound
  rw [← isSite] at recipes kept
  rw [← isOther] at recipes
  refine ⟨rfl, ?_⟩
  rw [← isSite, ← isOther]
  exact (sound.agree finds finds' recipes kept).1

theorem Vouches.mono {scope : ScopeId} {value : Value U} {cell : CacheKey}
    (vouches : moment.Vouches scope value cell) (grows : moment.history <:+ next.history) :
    next.Vouches scope value cell := by
  cases cell with
  | made id =>
      obtain ⟨recipe, home, same, kept, houses, type, made⟩ := vouches
      exact ⟨recipe, home, same, kept, houses.mono grows, type, fun make isFactory =>
        (made make isFactory).mono grows⟩
  | shown id key =>
      obtain ⟨type, recipe, home, made, same, kept, houses, settled, stands⟩ := vouches
      exact ⟨type, recipe, home, made, same, kept, houses.mono grows, settled.mono grows,
        stands.mono grows⟩

/-! ## What is known of lawful moments -/

section Lawful

variable {conduct : Conduct U} (lawful : moment.Lawful conduct)
  (keeps : ∀ moment entry, conduct moment entry → Conduct.keeping moment entry)

include lawful keeps

/-- A value that was kept is vouched for. -/
theorem Lawful.vouched {scope : ScopeId} {cell : CacheKey} {value : Value U}
    (settled : moment.Settled scope cell (.ok value)) : moment.Vouches scope value cell := by
  obtain ⟨id, did⟩ := settled
  obtain ⟨before, _, grows, allowed⟩ := lawful.allowed did
  exact Vouches.mono ((keeps _ _ allowed).2 value rfl) grows

/-- A constructor of an instance that is kept was called by the request that entered its cell. -/
theorem Lawful.constructed {id : RequestId} {make : U.Constructor} {arguments : List (Argument U)}
    (called : moment.Did id (.called (.construct site make arguments))) :
    (∃ home, moment.Houses site home) ∧ (site.recipe.lifetime.isKept = true →
      moment.Entered id site.scope (.made site.recipe.id)) := by
  obtain ⟨before, _, grows, allowed⟩ := lawful.allowed called
  obtain ⟨home, may⟩ := keeps _ _ allowed
  exact ⟨⟨home, may.houses.mono grows⟩, fun kept => grows.mem (may.entered kept)⟩

/-- A constructor that returned had been called as it may be. -/
theorem Lawful.returned {id : RequestId} {make : U.Constructor} {arguments : List (Argument U)}
    {answer : Call.Answer (.construct site make arguments)}
    (returned : moment.Did id (.returned (.construct site make arguments) answer)) :
    moment.Did id (.called (.construct site make arguments)) := by
  obtain ⟨before, _, grows, allowed⟩ := lawful.allowed returned
  exact grows.mem (keeps _ _ allowed).1

/-- A decorator of a value that is kept was called by the request that entered its cell. -/
theorem Lawful.decorated {id : RequestId} {transform : U.Transform} {content : Content U}
    {arguments : List (Argument U)}
    (called : moment.Did id (.called (.decorate site key transform content arguments))) :
    (∃ home, moment.Houses site home) ∧ (site.recipe.lifetime.isKept = true →
      moment.Entered id site.scope (.shown site.recipe.id key)) := by
  obtain ⟨before, _, grows, allowed⟩ := lawful.allowed called
  obtain ⟨decorator, home, _, may⟩ := keeps _ _ allowed
  exact ⟨⟨home, may.houses.mono grows⟩, fun kept => grows.mem (may.entered kept)⟩

end Lawful

end Moment

/-- An event that decorates is the return of a decorator. -/
theorem Event.exists_of_mem_decorates {event : Event U} {scope : ScopeId} {recipe : RecipeId}
    {key : Key} {transform : U.Transform} (member : transform ∈ event.decorates scope recipe key) :
    ∃ site content arguments, site.scope = scope ∧ site.recipe.id = recipe ∧
      event = .called (.decorate site key transform content arguments) := by
  cases event with
  | called call =>
      cases call with
      | decorate site target applied content arguments =>
          simp only [Event.decorates] at member
          split at member
          · next here =>
            obtain ⟨isScope, isRecipe, rfl⟩ := here
            obtain rfl := List.mem_singleton.mp member
            exact ⟨site, content, arguments, isScope, isRecipe, rfl⟩
          · cases member
      | construct _ _ _ => cases member
      | convert _ _ _ _ => cases member
      | close _ _ _ _ => cases member
      | enact _ _ => cases member
      | accepts _ => cases member
      | report _ => cases member
  | performed operation answer => cases member
  | returned call answer => cases member
  | started demand => cases member
  | finished reply => cases member

/-- A decorator that was applied has returned. -/
theorem exists_of_mem_decorationsBy {history : List (Entry U)} {id : RequestId} {scope : ScopeId}
    {recipe : RecipeId} {key : Key} {transform : U.Transform}
    (member : transform ∈ decorationsBy history id scope recipe key) :
    ∃ site content arguments, site.scope = scope ∧ site.recipe.id = recipe ∧
      ⟨id, .called (.decorate site key transform content arguments)⟩ ∈ history := by
  obtain ⟨⟨other, event⟩, did, decorates⟩ := List.mem_flatMap.mp member
  by_cases same : other = id
  · subst same
    rw [if_pos rfl] at decorates
    obtain ⟨site, content, arguments, isScope, isRecipe, rfl⟩ :=
      Event.exists_of_mem_decorates decorates
    exact ⟨site, content, arguments, isScope, isRecipe, did⟩
  · rw [if_neg same] at decorates
    cases decorates

end Provision
