import Provision.Registration
import Provision.Resolution

/-!
# Building scopes

A scope is built from a list of registrations in one go.  A child starts with the bindings of its
parent and adds its own, which the parent never sees.  Everything that is wrong with the
registrations is reported together when the scope is built; a registration with an issue of its
own binds nothing.
-/

namespace Provision

variable {U : Client}

/-- A scope that is being put together. -/
structure Builder (U : Client) where
  id : ScopeId
  parent : Option (Scope U)
  registry : Registry U
  ownsRegistry : Bool
  issues : List Issue := []
  closers : List (PendingCloser U) := []
  accepted : Nat := 0

namespace Builder

/-- The builder of a root scope. -/
def root (id : ScopeId) : Builder U :=
  { id, parent := none, registry := {}, ownsRegistry := true }

/-- The builder of a child scope, which shares the registry of its parent for the time being. -/
def child (id : ScopeId) (parent : Scope U) : Builder U :=
  { id, parent := some parent, registry := parent.registry, ownsRegistry := false }

/-- Note an issue. -/
def reject (builder : Builder U) (issue : Issue) : Builder U :=
  { builder with issues := builder.issues ++ [issue] }

/-- Bind a recipe under one type, with the tag of the registration. -/
def bindView (recipe : Recipe U) (tag : Option Tag) (builder : Builder U)
    (view : ServiceType × Option U.Cast) : Builder U :=
  let key : Key := { type := view.1, tag }
  let owned := { builder with ownsRegistry := true }
  match builder.registry.bind key
      { recipe, registered := key, owner := builder.id, cast := view.2 } with
  | .ok registry => { owned with registry }
  | .error issue => owned.reject issue

/-- The closer of a fixed value, which is promised from the start. -/
def valueCloser? (recipe : Recipe U) : Option (PendingCloser U) :=
  match recipe.source with
  | .value content => recipe.closerFor? { type := recipe.produces, content }
  | _ => none

/-- Bind an offer without issues under all its types. -/
def accept (builder : Builder U) (offer : Offer U) : Builder U :=
  let recipe := offer.recipe (.registration builder.id builder.accepted)
  let bound := offer.views.foldl (bindView recipe offer.tag) builder
  { bound with
    closers := bound.closers ++ (valueCloser? recipe).toList
    accepted := bound.accepted + 1 }

/-- Apply a registration: collect its issues, or else bind it. -/
def add (builder : Builder U) (registration : Registration U) : Builder U :=
  match registration.issues with
  | [] =>
      match registration with
      | .service offer => builder.accept offer
      | .decorator decorator =>
          { builder with
            registry := builder.registry.decorate decorator, ownsRegistry := true }
  | issues => { builder with issues := builder.issues ++ issues }

/-- What is reported of a registration: nothing if it has an issue of its own. -/
def notice? (builder : Builder U) (registration : Registration U) : Option Notice :=
  match registration.issues with
  | [] =>
      match registration with
      | .service offer =>
          some (.registeringService (.of offer.produces) offer.lifetime offer.tag builder.id)
      | .decorator decorator => some (.registeringDecorator decorator.target builder.id)
  | _ => none

/-- Apply registrations in order, reporting each that is bound. -/
def register : List (Registration U) → Builder U → Program U (Builder U)
  | [], builder => pure builder
  | registration :: rest, builder => do
      match builder.notice? registration with
      | some notice => Program.callClient (.report notice)
      | none => pure ()
      register rest (builder.add registration)

/-- The scope that the builder has put together. -/
def scope (builder : Builder U) : Scope U :=
  let node : ScopeNode U :=
    { id := builder.id, registry := builder.registry, ownsRegistry := builder.ownsRegistry }
  match builder.parent with
  | none => .root node
  | some parent => .child node parent

/-- Promise closers to a scope in order. -/
def attachAll (scope : ScopeId) : List (PendingCloser U) → Request U Unit
  | [] => pure ()
  | closer :: rest => do
      let _ ← Request.act (.attach scope closer)
      Request.report (.registeredCloser closer.service)
      attachAll scope rest

/-- What building does once the parent was found open.  The closers of fixed values are promised
in the order of their registration. -/
def complete (builder : Builder U) : Request U (Scope U) := do
  if builder.issues.isEmpty then
    attachAll builder.id builder.closers
    let scope := builder.scope
    Request.report (.createdContainer scope.id scope.depth (scope.parent?.map Scope.id)
      builder.accepted scope.ownsRegistry)
    pure scope
  else
    Request.fail (.invalid builder.issues)

/-- Build the scope.  A closed parent comes first, then everything that is wrong with the
registrations. -/
def build (builder : Builder U) : Request U (Scope U) := do
  match builder.parent with
  | some parent => ensureOpen parent.id
  | none => pure ()
  builder.complete

/-- A root is built without looking at a parent. -/
theorem build_of_root {builder : Builder U} (isRoot : builder.parent = none) :
    builder.build = builder.complete := by
  unfold build
  rw [isRoot]

/-- A child is built if its parent is open. -/
theorem build_of_child {builder : Builder U} {parent : Scope U}
    (isChild : builder.parent = some parent) :
    builder.build = (do
      ensureOpen parent.id
      builder.complete) := by
  unfold build
  rw [isChild]

/-- A builder that finds nothing wrong attaches its closers and reports the container. -/
theorem complete_of_sound {builder : Builder U} (sound : builder.issues = []) :
    builder.complete = (do
      attachAll builder.id builder.closers
      Request.report (.createdContainer builder.scope.id builder.scope.depth
        (builder.scope.parent?.map Scope.id) builder.accepted builder.scope.ownsRegistry)
      pure builder.scope) :=
  if_pos (List.isEmpty_iff.mpr sound)

/-- A builder that finds something wrong fails with all of it. -/
theorem complete_of_wrong {builder : Builder U} (wrong : builder.issues ≠ []) :
    builder.complete = Request.fail (.invalid builder.issues) :=
  if_neg fun none => wrong (List.isEmpty_iff.mp none)

/-- The debug form of a builder. -/
def debugText (builder : Builder U) : String :=
  "ContainerBuilder \x7b id: " ++ builder.id.debugText
    ++ ", parent: " ++ ScopeId.optionDebugText (builder.parent.map Scope.id)
    ++ ", owns_registry: " ++ toString builder.ownsRegistry
    ++ ", errors: [" ++ String.intercalate ", " (builder.issues.map Issue.debugText) ++ "] \x7d"

end Builder

/-- A builder of a root scope, or of a child of a scope. -/
def newBuilder (parent : Option (Scope U)) : Program U (Builder U) := do
  let id ← Program.act .newScope
  match parent with
  | none => pure (.root id)
  | some parent => pure (.child id parent)

/-- Build a scope from a list of registrations. -/
def buildScope (parent : Option (Scope U)) (registrations : List (Registration U)) :
    Request U (Scope U) := do
  let builder ← ExceptT.lift (newBuilder parent)
  let builder ← ExceptT.lift (builder.register registrations)
  builder.build

end Provision
