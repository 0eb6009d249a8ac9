import Provision.Proofs.Closing.OriginAccounts

/-!
# No captive services

What the functions that make a service in a scope are given was made in that scope or above it, or
is a fixed value that was registered there, and so is all that it was made of.  A singleton is made
in the scope that registered it, from whichever scope it is asked for, so that it never holds what
belongs to a scope below.

An account of a value names, for every argument on the way, the service that the key of its
parameter leads to.  Where two values have the same content, it may be the account of either.

Main statement: `nothing_captive`.
-/

namespace Provision

open Moment

variable {U : Client}

namespace Moment

/-- What a key of a scope yields belongs to that scope or to one above it, with all that it was made
of. -/
abbrev FromAbove (moment : Moment U) (home : Scope U) (key : Key) (value : Value U) : Prop :=
  moment.Draws (moment.InLine home) home key value

/-- What a scope provides comes from above. -/
theorem Provides.fromAbove {moment : Moment U} {home : Scope U} {key : Key} {value : Value U}
    (provides : moment.Provides home key value) : moment.FromAbove home key value :=
  Draws.mono provides (List.suffix_refl _) fun _ secured => secured.inLine

/-- The arguments of a function that makes something in a scope are what its parameters lead to
there, and come from that scope and the ones above it alone. -/
structure GivenFromAbove (moment : Moment U) (site : Site U) (params : List Param)
    (arguments : List (Argument U)) (home : Scope U) : Prop where
  madeIn : moment.MadeIn site home
  fits : List.Forall₂ (Fits (moment.FromAbove home)) params arguments

/-- What a site may be supplied with is given from above. -/
theorem MaySupply.givenFromAbove {moment next : Moment U} {site : Site U} {params : List Param}
    {arguments : List (Argument U)} {home : Scope U}
    (may : moment.MaySupply site params arguments home)
    (grows : moment.history <:+ next.history) :
    next.GivenFromAbove site params arguments home where
  madeIn := may.madeIn.mono grows
  fits := (may.mono grows).fits.imp fun _ _ fit => fit.mono fun _ _ provides =>
    provides.fromAbove

/-- No instance holds what belongs to a scope below its own. -/
structure NothingCaptive (moment : Moment U) : Prop where
  /-- Constructors are given what belongs to the scope of the instance or above it. -/
  constructed : ∀ id site make arguments,
    moment.Did id (.called (.construct site make arguments)) →
      ∃ home, moment.GivenFromAbove site site.recipe.params arguments home
  /-- So are decorators. -/
  decorated : ∀ id site key transform content arguments,
    moment.Did id (.called (.decorate site key transform content arguments)) →
      ∃ home, ∃ decorator ∈ home.registry.decoratorsOf key, decorator.transform = transform ∧
        moment.GivenFromAbove site decorator.params arguments home
  /-- What belongs to a scope or above it does not belong to a scope below. -/
  outside : ∀ home below part, moment.InLine home part → moment.IsScope below →
    home.Above below → home ≠ below → part.site.scope ≠ below.id
  /-- Singletons are made in the scope that registered them. -/
  singletons : ∀ site home, moment.MadeIn site home → site.recipe.lifetime = .singleton →
    ∃ index, site.recipe.id = .registration home.id index

section Lawful

variable {moment : Moment U} {site : Site U} {home : Scope U}

/-- What is in line to be closed above is outside of what is below. -/
theorem InLine.outside {below : Scope U} {part : Part U}
    (lawful : moment.Lawful (Conduct.orderly.and Conduct.growing))
    (inLine : moment.InLine home part) (isScope : moment.IsScope below)
    (above : home.Above below) (differs : home ≠ below) : part.site.scope ≠ below.id := by
  intro same
  obtain ⟨keeper, holder⟩ := inLine
  have isBelow : keeper = below :=
    holder.houses.isScope.eq_of_id lawful isScope (holder.houses.id.trans same)
  subst isBelow
  exact differs (above.antisymm holder.above)

/-- A singleton is made in the scope that registered it. -/
theorem MadeIn.registered_here (lawful : moment.Lawful (Conduct.orderly.and Conduct.growing))
    (madeIn : moment.MadeIn site home) (singleton : site.recipe.lifetime = .singleton) :
    ∃ index, site.recipe.id = .registration home.id index := by
  obtain ⟨isScope, key, binding, finds, rfl⟩ := madeIn
  have singleton : binding.recipe.lifetime = .singleton := singleton
  have isHome := finds.home
  simp only [Binding.home?, singleton] at isHome
  have named : home.id = binding.owner := (Scope.ancestor?_some isHome).1
  have proper := (isScope.grown lawful).built.sound.proper finds.bound
  have kept : binding.recipe.lifetime.isKept = true := by
    rw [singleton]
    rfl
  rw [named]
  exact proper.registration (proper.unlisted kept)

end Lawful

end Moment

/-- In whatever order requests go, no instance is made of what belongs to a scope below its own. -/
theorem nothing_captive {activity : Activity U} (reachable : activity.Reachable) :
    activity.moment.NothingCaptive := by
  have keeps : Conduct.Kept
      (Conduct.orderly.and (Conduct.growing.and (Conduct.keeping.and Conduct.sourcing)))
      ((@Conduct.growing U).and (Conduct.keeping.and Conduct.sourcing)) :=
    kept_growing.and ((kept_keeping fun _ _ all => ⟨all.1, all.2.1, all.2.2.1⟩).and
      (kept_sourcing fun _ _ all => all))
  have lawful := reachable.lawful keeps
  have grown := reachable.lawful kept_growing
  constructor
  · intro id site make arguments called
    obtain ⟨before, _, grows, _, _, _, home, may⟩ := lawful.allowed called
    exact ⟨home, may.givenFromAbove grows⟩
  · intro id site key transform content arguments called
    obtain ⟨before, _, grows, _, _, _, home, decorator, applies, same, may⟩ :=
      lawful.allowed called
    exact ⟨home, decorator, applies, same, may.givenFromAbove grows⟩
  · exact fun _ _ _ inLine isScope above differs => inLine.outside grown isScope above differs
  · exact fun _ _ madeIn singleton => madeIn.registered_here grown singleton

namespace Overriding

/-- The key of a service that a child scope replaces. -/
def part : Key := .of (.concrete "sample" "A")

/-- The key of a singleton that needs it. -/
def whole : Key := .of (.concrete "sample" "B")

/-- What the root scope is built of. -/
def registrations : List (Registration Client.obliging) :=
  [.service (.factory part.type () []), .service (.factory whole.type () [.service part])]

/-- What the child scope is built of. -/
def replacements : List (Registration Client.obliging) :=
  [.service (.factory part.type () [])]

/-- The root scope. -/
def root : Scope Client.obliging :=
  ((Builder.root ⟨1⟩).addAll registrations).scope

/-- The child scope. -/
def child : Scope Client.obliging :=
  ((Builder.child ⟨2⟩ root).addAll replacements).scope

/-- The world once the root scope is built. -/
def begun : World Client.obliging Unit :=
  (Demand.build none registrations).afterwards Behaviour.obliging { state := {}, memory := () }

/-- The world once the child scope is built. -/
def built : World Client.obliging Unit :=
  (Demand.build (some root) replacements).afterwards Behaviour.obliging begun

/-- The world once the child scope was asked for the singleton. -/
def resolved : World Client.obliging Unit :=
  (Demand.resolve child ⟨0⟩ whole).afterwards Behaviour.obliging built

/-- The site of the singleton. -/
def site : Site Client.obliging :=
  ⟨⟨1⟩, (Offer.factory whole.type () [.service part]).recipe (.registration ⟨1⟩ 1)⟩

/-- What its constructor is given. -/
def argument : Argument Client.obliging :=
  .service { type := part.type, content := .object () }

/-- A constructor was passed what its parameter asked for. -/
theorem served : ∃ activity : Activity Client.obliging, activity.Reachable ∧
    activity.moment.state = resolved.state ∧
      activity.moment.Did ⟨2⟩ (.called (.construct site () [argument])) := by
  have builds : (Demand.build none registrations).request.run.run Behaviour.obliging
      { state := {}, memory := () } = some (.ok (.built root), begun) := rfl
  have more : (Demand.build (some root) replacements).request.run.run Behaviour.obliging begun =
      some (.ok (.built child), built) := rfl
  have resolves : (Demand.resolve child ⟨0⟩ whole).request.run.run Behaviour.obliging built =
      some (.ok (.resolved { type := whole.type, content := .object () }), resolved) := rfl
  have detached := Behaviour.obliging_detached
  obtain ⟨_, one, _⟩ := (Activity.Served.initial ()).next detached builds nofun
  obtain ⟨_, two, _⟩ := one.nextOn detached more rfl List.mem_cons_self
  obtain ⟨activity, three, history⟩ := two.nextOn detached resolves rfl
    (List.mem_cons_of_mem _ List.mem_cons_self)
  refine ⟨activity, three.reachable, three.state, ?_⟩
  unfold Moment.Did
  rw [history]
  exact List.mem_iff_getElem?.mpr ⟨7, rfl⟩

end Overriding

/-- A child scope that replaces a service is asked first for a singleton of the root scope that
needs it.  The singleton is made in the root scope, of the service there. -/
theorem replacement_not_captured : ∃ activity : Activity Client.obliging, activity.Reachable ∧
    activity.moment.Did ⟨2⟩
      (.called (.construct Overriding.site () [Overriding.argument])) ∧
      (activity.moment.state.cell? ⟨1⟩ (.made (.registration ⟨1⟩ 0))).isSome = true ∧
        (activity.moment.state.cell? ⟨2⟩ (.made (.registration ⟨2⟩ 0))).isSome = false ∧
          activity.moment.NothingCaptive := by
  obtain ⟨activity, reachable, state, constructed⟩ := Overriding.served
  refine ⟨activity, reachable, constructed, ?_⟩
  rw [state]
  exact ⟨rfl, rfl, nothing_captive reachable⟩

end Provision
