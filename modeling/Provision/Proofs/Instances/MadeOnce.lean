import Provision.Proofs.Instances.KeptInstances

/-!
# Instances are made once

However many requests resolve at once, under whatever keys and from whatever scopes: a scope makes
one instance of a registration that it keeps, with everything that the constructor needs, decorates
it at most once for each key, and whoever resolves a key there gets the same value, which stands for
that instance.

Main statement: `made_once`.
-/

namespace Provision

open Moment

variable {U : Client}

/-- The transforms that were applied to what a scope shows of a recipe under a key, the last
first. -/
def decorations (history : List (Entry U)) (scope : ScopeId) (recipe : RecipeId) (key : Key) :
    List U.Transform :=
  history.flatMap fun entry => entry.event.decorates scope recipe key

/-- How often things were made, and whether all agree about them. -/
structure Moment.MadeOnce (moment : Moment U) : Prop where
  /-- A constructor of a registration is called at most once for a scope that keeps instances. -/
  constructed : ∀ id site make arguments earlier,
    ⟨id, .called (.construct site make arguments)⟩ :: earlier <:+ moment.history →
      site.recipe.lifetime.isKept = true →
        ∀ other recipe make' arguments', recipe.id = site.recipe.id →
          ⟨other, .called (.construct ⟨site.scope, recipe⟩ make' arguments')⟩ ∉ earlier
  /-- A constructor gets one argument for each parameter, for a key what the key yields. -/
  supplied : ∀ id site make arguments, moment.Did id (.called (.construct site make arguments)) →
    arguments.length = site.recipe.params.length ∧ ∃ home, moment.Houses site home ∧
      List.Forall₂ (Fits (moment.Yields home)) site.recipe.params arguments
  /-- For a value that is kept the decorators of its key are called in order, each at most once. -/
  decorated : ∀ site home key, moment.Houses site home → site.recipe.lifetime.isKept = true →
    (decorations moment.history site.scope site.recipe.id key).reverse <+:
      (home.registry.decoratorsOf key).map Decorator.transform
  /-- A decorator gets what the keys of its parameters yield. -/
  adorned : ∀ id site key transform content arguments,
    moment.Did id (.called (.decorate site key transform content arguments)) →
      ∃ home, moment.Houses site home ∧ ∃ decorator ∈ home.registry.decoratorsOf key,
        decorator.transform = transform ∧
          List.Forall₂ (Fits (moment.Yields home)) decorator.params arguments
  /-- A request for a key is answered with what the key yields. -/
  answered : ∀ id demand scope key value, moment.Did id (.started demand) →
    demand.Asks scope key → moment.Did id (.finished (.ok (.resolved value))) →
      moment.Yields scope key value
  /-- Everything that a key yields where it leads to the same scope is the same. -/
  agreed : ∀ scope other key one two home binding binding',
    moment.IsScope scope → moment.IsScope other →
      scope.Finds key binding home → other.Finds key binding' home →
        binding.recipe.lifetime.isKept = true →
          moment.Shares scope key one → moment.Shares other key two → one = two
  /-- So is what an item of a list yields and the key that the item was registered under. -/
  alike : ∀ scope other key key' one two home binding binding',
    scope.Finds key binding home → other.Finds key' binding' home →
      binding.recipe.id = binding'.recipe.id → binding.registered = binding'.registered →
        binding.recipe.lifetime.isKept = true → binding'.recipe.lifetime.isKept = true →
          moment.Shares scope key one → moment.Shares other key' two → one = two
  /-- A constructor returned at most one instance. -/
  unique : ∀ site content other, site.recipe.lifetime.isKept = true →
    moment.Instance site content → moment.Instance site other → content = other
  /-- Under every key of its registration that instance is shown. -/
  projected : ∀ scope key value binding home make, moment.IsScope scope →
    moment.Shares scope key value → scope.Finds key binding home →
      binding.recipe.lifetime.isKept = true → binding.recipe.source = .factory make →
        ∃ origin, moment.Instance ⟨home.id, binding.recipe⟩ origin ∧
          moment.StandsFor ⟨home.id, binding.recipe⟩ binding.registered origin value.content
  /-- What is converted for a key is that instance. -/
  converted : ∀ id site key cast content make,
    moment.Did id (.called (.convert site key cast content)) →
      site.recipe.source = .factory make → moment.Instance site content

section Lawful

variable {moment : Moment U}
  (lawful : moment.Lawful (Conduct.orderly.and (Conduct.growing.and Conduct.keeping)))

include lawful

/-- A cell is entered once. -/
theorem Moment.Lawful.entered_once {id other : RequestId} {scope : ScopeId} {cell : CacheKey}
    (entered : moment.Entered id scope cell) (entered' : moment.Entered other scope cell) :
    id = other :=
  (lawful.cell (fun _ _ allowed => allowed) scope cell).entered entered entered'

/-- Everybody who decorates what is kept is the one who entered its cell. -/
theorem Moment.Lawful.decorations_eq {id : RequestId} {site : Site U} {home : Scope U} {key : Key}
    (houses : moment.Houses site home) (kept : site.recipe.lifetime.isKept = true)
    (entered : moment.Entered id site.scope (.shown site.recipe.id key)) :
    decorations moment.history site.scope site.recipe.id key =
      decorationsBy moment.history id site.scope site.recipe.id key := by
  refine List.flatMap_congr fun entry did => ?_
  obtain ⟨request, event⟩ := entry
  by_cases same : request = id
  · rw [if_pos same]
  rw [if_neg same, List.eq_nil_iff_forall_not_mem]
  intro transform member
  obtain ⟨other, content, arguments, isScope, isRecipe, rfl⟩ :=
    Event.exists_of_mem_decorates member
  obtain ⟨⟨_, houses'⟩, entered'⟩ := lawful.decorated (fun _ _ allowed => allowed.2.2) did
  obtain ⟨_, recipes⟩ := houses.unique (lawful.mono fun _ _ allowed => ⟨allowed.1, allowed.2.1⟩)
    houses' isScope.symm isRecipe.symm kept
  have entered' := entered' (recipes ▸ kept)
  rw [isScope, isRecipe] at entered'
  exact same (lawful.entered_once entered' entered)

end Lawful

/-- Decorations go on by one entry. -/
theorem Moment.Records.decorations {moment next : Moment U} {entry : Entry U}
    (recorded : moment.Records entry next) (scope : ScopeId) (recipe : RecipeId) (key : Key) :
    Provision.decorations next.history scope recipe key =
      entry.event.decorates scope recipe key ++
        Provision.decorations moment.history scope recipe key := by
  unfold Provision.decorations
  rw [recorded.history, List.flatMap_cons]

theorem Moment.MayDecorate.prefix_after {moment : Moment U} {id : RequestId} {site : Site U}
    {key : Key} {decorator : Decorator U} {arguments : List (Argument U)} {home : Scope U}
    (may : moment.MayDecorate id site key decorator arguments home)
    (kept : site.recipe.lifetime.isKept = true)
    (all : decorations moment.history site.scope site.recipe.id key =
      decorationsBy moment.history id site.scope site.recipe.id key) :
    (decorator.transform :: decorations moment.history site.scope site.recipe.id key).reverse <+:
      (home.registry.decoratorsOf key).map Decorator.transform := by
  obtain ⟨before, after, decorators, applied⟩ := may.next
  rw [all, applied kept, decorators]
  refine ⟨after.map Decorator.transform, ?_⟩
  simp

section Lawful

variable {moment : Moment U}

/-- What was decorated was decorated in order. -/
theorem Moment.Lawful.decorated_inOrder
    (lawful : moment.Lawful (Conduct.orderly.and (Conduct.growing.and Conduct.keeping)))
    (scope : ScopeId) (recipe : RecipeId) (key : Key) :
    decorations moment.history scope recipe key = [] ∨
      ∃ site home, site.scope = scope ∧ site.recipe.id = recipe ∧ moment.Houses site home ∧
        (site.recipe.lifetime.isKept = true →
          (decorations moment.history scope recipe key).reverse <+:
            (home.registry.decoratorsOf key).map Decorator.transform) := by
  induction lawful with
  | initial => exact .inl rfl
  | @contexts moment contexts _ ih =>
      have still : moment.history <:+ (moment.withContexts contexts).history := List.suffix_refl _
      rcases ih with none | ⟨site, home, isScope, isRecipe, houses, inOrder⟩
      · exact .inl none
      · exact .inr ⟨site, home, isScope, isRecipe, houses.mono still, inOrder⟩
  | @records moment next entry lawful recorded allowed ih =>
      obtain ⟨id, event⟩ := entry
      rw [recorded.decorations]
      by_cases plain : event.decorates scope recipe key = []
      · rw [show (Entry.event ⟨id, event⟩).decorates scope recipe key = _ from plain,
          List.nil_append]
        rcases ih with none | ⟨site, home, isScope, isRecipe, houses, inOrder⟩
        · exact .inl none
        · exact .inr ⟨site, home, isScope, isRecipe, houses.mono recorded.suffix, inOrder⟩
      · obtain ⟨transform, member⟩ := List.exists_mem_of_ne_nil _ plain
        obtain ⟨site, content, arguments, rfl, rfl, rfl⟩ := Event.exists_of_mem_decorates member
        obtain ⟨decorator, home, rfl, may⟩ := allowed.2.2
        refine .inr ⟨site, home, rfl, rfl, may.houses.mono recorded.suffix, fun kept => ?_⟩
        have all := lawful.decorations_eq may.houses kept (may.entered kept)
        simp only [Event.decorates, and_self, if_true]
        exact may.prefix_after kept all

variable (lawful : moment.Lawful (Conduct.orderly.and (Conduct.growing.and Conduct.keeping)))

include lawful

/-- A kept instance is constructed once. -/
theorem Moment.Lawful.constructed_once {id other : RequestId} {site : Site U} {recipe : Recipe U}
    {make make' : U.Constructor} {arguments arguments' : List (Argument U)}
    {earlier : List (Entry U)}
    (called : ⟨id, .called (.construct site make arguments)⟩ :: earlier <:+ moment.history)
    (kept : site.recipe.lifetime.isKept = true) (same : recipe.id = site.recipe.id) :
    ⟨other, .called (.construct ⟨site.scope, recipe⟩ make' arguments')⟩ ∉ earlier := by
  obtain ⟨before, lawful, rfl, _, _, home, may⟩ := lawful.allowed_at called
  intro did
  obtain ⟨⟨_, houses⟩, entered⟩ := lawful.constructed (fun _ _ allowed => allowed.2.2) did
  obtain ⟨_, isRecipe⟩ := may.houses.unique
    (lawful.mono fun _ _ allowed => ⟨allowed.1, allowed.2.1⟩) houses rfl same.symm kept
  have isRecipe : site.recipe = recipe := isRecipe
  subst isRecipe
  obtain rfl := lawful.entered_once (entered kept) (may.entered kept)
  exact may.first kept site.recipe make' arguments' rfl did

/-- A kept site has one instance. -/
theorem Moment.Lawful.instance_unique {site : Site U} {content other : Content U}
    (kept : site.recipe.lifetime.isKept = true) (one : moment.Instance site content)
    (two : moment.Instance site other) : content = other := by
  obtain ⟨id, make, arguments, returned⟩ := one
  obtain ⟨id', make', arguments', returned'⟩ := two
  have keeps : ∀ moment entry,
      (Conduct.orderly.and (Conduct.growing.and Conduct.keeping)) moment entry →
        Conduct.keeping (U := U) moment entry := fun _ _ allowed => allowed.2.2
  have entered := (lawful.constructed keeps (lawful.returned keeps returned)).2 kept
  have entered' := (lawful.constructed keeps (lawful.returned keeps returned')).2 kept
  obtain rfl := lawful.entered_once entered entered'
  clear entered entered' keeps
  induction lawful with
  | initial => cases returned
  | contexts contexts _ ih => exact ih returned returned'
  | @records moment next entry _ recorded allowed ih =>
      obtain ⟨request, event⟩ := entry
      rcases recorded.did_iff.mp returned with ⟨rfl, now⟩ | before
      · rcases recorded.did_iff.mp returned' with ⟨_, now'⟩ | before'
        · cases now.trans now'.symm
          rfl
        · subst now
          exact absurd before' (allowed.2.2.2 kept site.recipe make' arguments' _ rfl)
      · rcases recorded.did_iff.mp returned' with ⟨rfl, now'⟩ | before'
        · subst now'
          exact absurd before (allowed.2.2.2 kept site.recipe make arguments _ rfl)
        · exact ih before before'

/-- What is shown of one registration under one key is the same. -/
theorem Moment.Lawful.shared_once {scope other home : Scope U} {key key' : Key}
    {binding binding' : Binding U} {one two : Value U} (finds : scope.Finds key binding home)
    (finds' : other.Finds key' binding' home) (recipes : binding.recipe.id = binding'.recipe.id)
    (registered : binding.registered = binding'.registered)
    (kept : binding.recipe.lifetime.isKept = true)
    (kept' : binding'.recipe.lifetime.isKept = true)
    (shares : moment.Shares scope key one) (shares' : moment.Shares other key' two) :
    one = two := by
  have settled := shares' binding' home finds' kept'
  rw [← recipes, ← registered] at settled
  have same := lawful.settled_once
    (fun _ _ allowed => Conduct.settling_of_keeping allowed.2.2) (shares binding home finds kept)
      settled
  exact Except.ok.inj same

/-- A key that leads to one scope leads to one binding there. -/
theorem Moment.Lawful.bound_once {scope other home : Scope U} {key : Key}
    {binding binding' : Binding U} (isScope : moment.IsScope scope)
    (isOther : moment.IsScope other) (finds : scope.Finds key binding home)
    (finds' : other.Finds key binding' home) : binding = binding' := by
  have grow : moment.Lawful (Conduct.orderly.and Conduct.growing) :=
    lawful.mono fun _ _ allowed => ⟨allowed.1, allowed.2.1⟩
  have bound := (isScope.homes grow finds).bound.symm.trans (isOther.homes grow finds').bound
  exact Option.some.inj bound

/-- What a scope keeps of a registration is an instance that its constructor made there. -/
theorem Moment.Lawful.instance_of_settled {site : Site U} {home : Scope U} {made : Value U}
    {make : U.Constructor} (houses : moment.Houses site home)
    (kept : site.recipe.lifetime.isKept = true) (isFactory : site.recipe.source = .factory make)
    (settled : moment.Settled site.scope (.made site.recipe.id) (.ok made)) :
    moment.Instance site made.content := by
  have grow : moment.Lawful (Conduct.orderly.and Conduct.growing) :=
    lawful.mono fun _ _ allowed => ⟨allowed.1, allowed.2.1⟩
  obtain ⟨recipe, _, same, _, houses', _, constructed⟩ :=
    lawful.vouched (fun _ _ allowed => allowed.2.2) settled
  obtain ⟨_, recipes⟩ := houses.unique grow houses' rfl same.symm kept
  obtain rfl : site.recipe = recipe := recipes
  exact constructed make isFactory

/-- A projected value is what its projection made of the one instance. -/
theorem Moment.Lawful.projected {scope home : Scope U} {key : Key} {binding : Binding U}
    {value : Value U} {make : U.Constructor} (isScope : moment.IsScope scope)
    (shares : moment.Shares scope key value) (finds : scope.Finds key binding home)
    (kept : binding.recipe.lifetime.isKept = true)
    (isFactory : binding.recipe.source = .factory make) :
    ∃ origin, moment.Instance ⟨home.id, binding.recipe⟩ origin ∧
      moment.StandsFor ⟨home.id, binding.recipe⟩ binding.registered origin value.content := by
  have grow : moment.Lawful (Conduct.orderly.and Conduct.growing) :=
    lawful.mono fun _ _ allowed => ⟨allowed.1, allowed.2.1⟩
  have houses := (isScope.homes grow finds).houses
  obtain ⟨_, recipe, _, made, same, _, houses', settled, stands⟩ :=
    lawful.vouched (fun _ _ allowed => allowed.2.2) (shares binding home finds kept)
  obtain ⟨_, recipes⟩ := houses.unique grow houses' rfl same.symm kept
  obtain rfl : binding.recipe = recipe := recipes
  exact ⟨made.content, lawful.instance_of_settled houses kept isFactory settled, stands⟩

/-- In lawful moments everything that is kept is made once. -/
theorem Moment.Lawful.madeOnce : moment.MadeOnce where
  constructed := fun _ _ _ _ _ called kept _ _ _ _ same => lawful.constructed_once called kept same
  supplied := by
    intro id site make arguments called
    obtain ⟨before, _, grows, _, _, home, may⟩ := lawful.allowed called
    exact ⟨may.fits.length_eq.symm, home, may.houses.mono grows,
      may.fits.imp fun _ _ fit => fit.mono fun _ _ => Yields.mono grows⟩
  decorated := by
    intro site home key houses kept
    rcases lawful.decorated_inOrder site.scope site.recipe.id key with
      none | ⟨other, home', isScope, isRecipe, houses', inOrder⟩
    · rw [none]
      exact List.nil_prefix
    · obtain ⟨rfl, recipes⟩ := houses.unique
        (lawful.mono fun _ _ allowed => ⟨allowed.1, allowed.2.1⟩) houses' isScope.symm
          isRecipe.symm kept
      exact inOrder (recipes ▸ kept)
  adorned := by
    intro id site key transform content arguments called
    obtain ⟨before, _, grows, _, _, decorator, home, applies, may⟩ := lawful.allowed called
    obtain ⟨earlier, after, decorators, _⟩ := may.next
    refine ⟨home, may.houses.mono grows, decorator, ?_, applies, ?_⟩
    · rw [decorators]
      exact List.mem_append_right _ List.mem_cons_self
    · exact may.fits.imp fun _ _ fit => fit.mono fun _ _ => Yields.mono grows
  answered := fun _ _ _ _ _ began asks ended => lawful.yielded began asks ended
  agreed := by
    intro scope other key one two home binding binding' isScope isOther finds finds' kept
    obtain rfl := lawful.bound_once isScope isOther finds finds'
    exact lawful.shared_once finds finds' rfl rfl kept kept
  alike := fun _ _ _ _ _ _ _ _ _ finds finds' recipes registered kept kept' =>
    lawful.shared_once finds finds' recipes registered kept kept'
  unique := fun _ _ _ kept => lawful.instance_unique kept
  projected := fun _ _ _ _ _ _ isScope shares finds kept =>
    lawful.projected isScope shares finds kept
  converted := by
    intro id site key cast content make called isFactory
    obtain ⟨before, _, grows, _, _, may⟩ := lawful.allowed called
    exact (may make isFactory).mono grows

end Lawful

/-- In whatever order requests go, instances that are kept are made once and shared by all. -/
theorem made_once {activity : Activity U} (reachable : activity.Reachable) :
    activity.moment.MadeOnce :=
  reachable.keeping.madeOnce

namespace Aliased

/-- The key of the first alias of a service. -/
def first : Key := .of (.interface "sample" "I")

/-- The key of the second alias of the service. -/
def second : Key := .of (.interface "sample" "J")

/-- A service with two aliases, and a decorator of the first. -/
def registrations : List (Registration Client.obliging) :=
  [.service (((Offer.factory (.concrete "sample" "A") () []).alsoAs first.type ()).alsoAs
      second.type ()),
    .decorator { target := first, params := [], transform := () }]

/-- The scope that keeps the service. -/
def scope : Scope Client.obliging :=
  ((Builder.root ⟨1⟩).addAll registrations).scope

/-- The world once the scope is built. -/
def built : World Client.obliging Unit :=
  (Demand.build none registrations).afterwards Behaviour.obliging { state := {}, memory := () }

/-- The world once the first alias was resolved. -/
def resolved : World Client.obliging Unit :=
  (Demand.resolve scope ⟨0⟩ first).afterwards Behaviour.obliging built

/-- The service under a key. -/
def value (key : Key) : Value Client.obliging :=
  { type := key.type, content := .object () }

/-- A service was resolved under both of its keys. -/
theorem served : ∃ activity : Activity Client.obliging, Activity.Served Behaviour.obliging
    [(.build none registrations, .ok (.built scope)),
      (.resolve scope ⟨0⟩ first, .ok (.resolved (value first))),
      (.resolve scope ⟨0⟩ second, .ok (.resolved (value second)))]
    ((Demand.resolve scope ⟨0⟩ second).afterwards Behaviour.obliging resolved) activity := by
  have builds : (Demand.build none registrations).request.run.run Behaviour.obliging
      { state := {}, memory := () } = some (.ok (.built scope), built) := rfl
  have resolves : (Demand.resolve scope ⟨0⟩ first).request.run.run Behaviour.obliging built =
      some (.ok (.resolved (value first)), resolved) := rfl
  have again : (Demand.resolve scope ⟨0⟩ second).request.run.run Behaviour.obliging resolved =
      some (.ok (.resolved (value second)),
        (Demand.resolve scope ⟨0⟩ second).afterwards Behaviour.obliging resolved) := rfl
  have detached := Behaviour.obliging_detached
  obtain ⟨_, one, _⟩ := (Activity.Served.initial ()).next detached builds nofun
  obtain ⟨_, two, _⟩ := one.nextOn detached resolves rfl List.mem_cons_self
  obtain ⟨activity, three, _⟩ := two.nextOn detached again rfl List.mem_cons_self
  exact ⟨activity, three⟩

end Aliased

/-- Two aliases of one service were resolved. -/
theorem aliases_made_once : ∃ activity : Activity Client.obliging, activity.Reachable ∧
    activity.moment.Did ⟨1⟩ (.finished (.ok (.resolved (Aliased.value Aliased.first)))) ∧
      activity.moment.Did ⟨2⟩ (.finished (.ok (.resolved (Aliased.value Aliased.second)))) ∧
        activity.moment.MadeOnce := by
  obtain ⟨activity, served⟩ := Aliased.served
  have one := (served.did 1 rfl).2
  have two := (served.did 2 rfl).2
  exact ⟨activity, served.reachable, one, two, made_once served.reachable⟩

end Provision
