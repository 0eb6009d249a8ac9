import Provision.Proofs.Instances.DecoratedValues

/-!
# Items of lists

A list has an item for each registration of its type.  As long as the registration is the one that
its key is bound to, the item is the very value that is resolved for the key: the item is bound
under a key of its own, but what it yields is kept and decorated under the key of the
registration.

Main statement: `item_is_its_key`.
-/

namespace Provision

open Moment

variable {U : Client}

/-- A value is what a scope keeps of a registration under its key: made of the one instance that the
scope has of it, with all decorators of the key. -/
structure Moment.Presents (moment : Moment U) (home : Scope U) (binding : Binding U)
    (value : Value U) : Prop where
  /-- The value is in the cell of the key, where nothing else ever was. -/
  shown : ∀ other, moment.Settled home.id (.shown binding.recipe.id binding.registered)
    (.ok other) ↔ other = value
  /-- The constructor returned one instance in that scope, and decorators made the value of it. -/
  dressed : ∃ origin,
    (∀ content, moment.Instance ⟨home.id, binding.recipe⟩ content ↔ content = origin) ∧
      moment.Dressed ⟨home.id, binding.recipe⟩ binding.registered origin
        ((home.registry.decoratorsOf binding.registered).map Decorator.transform) value.content
  /-- These are all calls of decorators for the key, whoever made them: each decorator was called
  once, in order. -/
  once : (decorations moment.history home.id binding.recipe.id binding.registered).reverse =
    (home.registry.decoratorsOf binding.registered).map Decorator.transform

section Lawful

variable {moment : Moment U} (lawful : moment.Lawful
    (Conduct.orderly.and ((Conduct.growing.and Conduct.keeping).and Conduct.dressing)))

include lawful

theorem Moment.Lawful.presents {scope home : Scope U} {key : Key} {binding : Binding U}
    {value : Value U} {make : U.Constructor} (isScope : moment.IsScope scope)
    (finds : scope.Finds key binding home) (isKept : binding.recipe.lifetime.isKept = true)
    (isFactory : binding.recipe.source = .factory make)
    (shares : moment.Shares scope key value) : moment.Presents home binding value := by
  have keeping : moment.Lawful (Conduct.orderly.and (Conduct.growing.and Conduct.keeping)) :=
    lawful.mono fun _ _ all => ⟨all.1, all.2.1⟩
  have houses := (isScope.homes (keeping.mono fun _ _ all => ⟨all.1, all.2.1⟩) finds).houses
  have settled := shares binding home finds isKept
  obtain ⟨applied, made, instanced, dressed⟩ := lawful.dressed_once houses isKept settled
  have isMade := keeping.instance_of_settled houses isKept isFactory instanced
  constructor
  case shown =>
    intro other
    constructor
    · intro settled'
      exact Except.ok.inj (keeping.settled_once
        (fun _ _ all => Conduct.settling_of_keeping all.2.2) settled' settled)
    · rintro rfl
      exact settled
  case dressed =>
    refine ⟨made.content, fun content => ⟨fun isMade' => ?_, ?_⟩, dressed⟩
    · exact keeping.instance_unique isKept isMade' isMade
    · rintro rfl
      exact isMade
  case once =>
    rw [← List.reverse_reverse (List.map _ _)]
    exact congrArg List.reverse applied

end Lawful

/-- What a list that is not decorated holds at the position of a registration that is kept, and that
its key is still bound to, is what was resolved for that key, from whatever scopes and in whatever
order the two were resolved before.  There is one instance of the registration, to which each
decorator of the key was applied once. -/
theorem item_is_its_key {activity : Activity U} (reachable : activity.Reachable)
    {scope : Scope U} {levels : List (ScopeId × List (Registration U))}
    (raised : activity.moment.Raised scope levels)
    (described : ∀ level ∈ levels, ∀ registration ∈ level.2, registration.Described)
    (named : ∀ placement ∈ offersOf levels, ∀ index,
      placement.offer.tag ≠ some (.position index))
    {binding : Binding U} {index : Nat}
    (exposed : (exposures (offersOf levels) binding.registered.type)[index]? = some binding)
    (latest : scope.registry.find? binding.registered = some binding)
    {make : U.Constructor} (isFactory : binding.recipe.source = .factory make)
    (isKept : binding.recipe.lifetime.isKept = true)
    (undecorated : scope.registry.decoratorsOf (.of (.list binding.registered.type)) = [])
    {id other : RequestId} {demand listing : Demand U} {single all : Value U}
    (began : activity.moment.Did id (.started demand)) (asks : demand.Asks scope binding.registered)
    (ended : activity.moment.Did id (.finished (.ok (.resolved single))))
    (began' : activity.moment.Did other (.started listing))
    (asks' : listing.Asks scope (.of (.list binding.registered.type)))
    (ended' : activity.moment.Did other (.finished (.ok (.resolved all)))) :
    ∃ contents, all = { type := .list binding.registered.type, content := .list contents } ∧
      contents.length = (exposures (offersOf levels) binding.registered.type).length ∧
        contents[index]? = some single.content ∧
          activity.moment.Delivers scope (.item binding.registered.type index) single ∧
            ∃ home, binding.home? scope = some home ∧
              activity.moment.Presents home binding single := by
  have kept : Conduct.Kept
      (Conduct.orderly.and ((Conduct.growing.and Conduct.keeping).and Conduct.dressing))
      (((@Conduct.growing U).and Conduct.keeping).and Conduct.dressing) :=
    (kept_growing.and (kept_keeping fun _ _ all => ⟨all.1, all.2.1⟩)).and
      (kept_dressing fun _ _ all => ⟨all.1, all.2.1⟩)
  have dressing := reachable.lawful kept
  have keeping := reachable.keeping
  have inOrder := reachable.inOrder raised described named
  have isExposed : exposures (offersOf levels) binding.registered.type ≠ [] :=
    List.ne_nil_of_mem (List.mem_of_getElem? exposed)
  obtain ⟨contents, rfl, length, delivered⟩ :=
    (reachable.assembled began' asks' ended').gathers inOrder isExposed undecorated
  have inside : index < contents.length := by
    rw [length]
    exact (List.getElem?_eq_some_iff.mp exposed).1
  obtain ⟨item, delivers, isContent⟩ := delivered index inside
  have shares := (reachable.assembled began asks ended).delivers.shares
  -- The item is bound to the same as the key, so both lead to one home.
  have bound : scope.registry.find? (.item binding.registered.type index) = some binding :=
    (inOrder.item _ _).trans exposed
  have plain : binding.recipe.isList = false := by rw [Recipe.isList, isFactory]
  have made : ¬ binding.IsValue := by
    rintro ⟨content, isValue⟩
    cases isFactory.symm.trans isValue
  cases delivers.comes _ bound plain with
  | value isValue _ => cases isFactory.symm.trans isValue
  | @factory _ home _ _ _ isHome _ _ =>
      obtain rfl : item = single :=
        keeping.shared_once ⟨bound, made, isHome⟩ ⟨latest, made, isHome⟩ rfl rfl isKept isKept
          delivers.shares shares
      refine ⟨contents, rfl, length, isContent, delivers, home, isHome, ?_⟩
      have isScope := (keeping.mono fun _ _ all => all.1).named began asks.mem_scopes
      exact dressing.presents isScope ⟨latest, made, isHome⟩ isKept
        isFactory shares

namespace Adorned

/-- The key under which a service of the root scope is known. -/
def first : Key := (Key.of Collected.visible).withTag (.named "first")

/-- What the root scope is built of: a service with a name, and a decorator of it. -/
def upper : List (Registration Client.obliging) :=
  Collected.upper ++ [.decorator { target := first, params := [], transform := () }]

/-- The service. -/
def binding : Binding Client.obliging where
  recipe := (((Offer.factory (.concrete "sample" "A") () []).withTag (.named "first")).alsoAs
    Collected.visible ()).recipe (.registration ⟨1⟩ 0)
  registered := first
  owner := ⟨1⟩
  cast := some ()

/-- The root scope. -/
def root : Scope Client.obliging :=
  ((Builder.root ⟨1⟩).addAll upper).scope

/-- The child scope, which has one more service of the type. -/
def child : Scope Client.obliging :=
  ((Builder.child ⟨2⟩ root).addAll Collected.lower).scope

/-- What the service is resolved to. -/
def service : Value Client.obliging :=
  { type := Collected.visible, content := .object () }

/-- The world once the root scope is built. -/
def begun : World Client.obliging Unit :=
  (Demand.build none upper).afterwards Behaviour.obliging { state := {}, memory := () }

/-- The world once the child scope is built. -/
def built : World Client.obliging Unit :=
  (Demand.build (some root) Collected.lower).afterwards Behaviour.obliging begun

/-- The world once the list was resolved in the child scope. -/
def listed : World Client.obliging Unit :=
  (Demand.resolveTyped child ⟨0⟩ (.of (.list Collected.visible))).afterwards Behaviour.obliging
    built

theorem served : ∃ activity : Activity Client.obliging, Activity.Served Behaviour.obliging
    [(.build none upper, .ok (.built root)),
      (.build (some root) Collected.lower, .ok (.built child)),
      (.resolveTyped child ⟨0⟩ (.of (.list Collected.visible)), .ok (.resolved Collected.all)),
      (.resolve child ⟨0⟩ first, .ok (.resolved service))]
    ((Demand.resolve child ⟨0⟩ first).afterwards Behaviour.obliging listed) activity := by
  have builds : (Demand.build none upper).request.run.run Behaviour.obliging
      { state := {}, memory := () } = some (.ok (.built root), begun) := rfl
  have more : (Demand.build (some root) Collected.lower).request.run.run Behaviour.obliging begun =
      some (.ok (.built child), built) := rfl
  have lists : (Demand.resolveTyped child ⟨0⟩ (.of (.list Collected.visible))).request.run.run
      Behaviour.obliging built = some (.ok (.resolved Collected.all), listed) := rfl
  have resolves : (Demand.resolve child ⟨0⟩ first).request.run.run Behaviour.obliging listed =
      some (.ok (.resolved service),
        (Demand.resolve child ⟨0⟩ first).afterwards Behaviour.obliging listed) := rfl
  have detached := Behaviour.obliging_detached
  obtain ⟨_, one, _⟩ := (Activity.Served.initial ()).next detached builds nofun
  obtain ⟨_, two, _⟩ := one.nextOn detached more rfl List.mem_cons_self
  obtain ⟨_, three, _⟩ := two.nextOn detached lists rfl (List.mem_cons_of_mem _ List.mem_cons_self)
  obtain ⟨activity, four, _⟩ :=
    three.nextOn detached resolves rfl (List.mem_cons_of_mem _ List.mem_cons_self)
  exact ⟨activity, four⟩

end Adorned

/-- A list is resolved in a child scope, and then the key of its first item, a service of the root
scope that has a name and a decorator. -/
theorem adorned_item_is_its_key : ∃ activity : Activity Client.obliging, activity.Reachable ∧
    activity.moment.Delivers Adorned.child (.item Collected.visible 0) Adorned.service ∧
      activity.moment.Presents Adorned.root Adorned.binding Adorned.service := by
  obtain ⟨activity, served⟩ := Adorned.served
  have raised : activity.moment.Raised Adorned.child
      [(⟨1⟩, Adorned.upper), (⟨2⟩, Collected.lower)] := by
    have upper : activity.moment.Raised Adorned.root [(⟨1⟩, Adorned.upper)] :=
      .root (served.did 0 rfl).1 (served.did 0 rfl).2
    exact .child upper (served.did 1 rfl).1 (served.did 1 rfl).2
  have described : ∀ level ∈ [(⟨1⟩, Adorned.upper), (⟨2⟩, Collected.lower)],
      ∀ registration ∈ (level : ScopeId × List (Registration Client.obliging)).2,
        registration.Described := by
    intro level isLevel registration member
    simp only [List.mem_cons, List.not_mem_nil, or_false] at isLevel
    rcases isLevel with rfl | rfl
    · simp only [Adorned.upper, Collected.upper, List.mem_append, List.mem_cons,
        List.not_mem_nil, or_false] at member
      rcases member with (rfl | rfl) | rfl
      · exact .alsoAs _ _ (.withTag _ (.factory _ _ _))
      · exact .alsoAs _ _ (.value _ _)
      · trivial
    · rw [List.mem_singleton.mp member]
      exact .factory _ _ _
  have named : ∀ placement ∈ offersOf [(⟨1⟩, Adorned.upper), (⟨2⟩, Collected.lower)], ∀ index,
      placement.offer.tag ≠ some (.position index) := by
    intro placement member index
    simp only [offersOf, Adorned.upper, Collected.upper, Collected.lower, placements,
      List.flatMap_cons, List.flatMap_nil, List.cons_append, List.nil_append, List.mem_cons,
      List.not_mem_nil, or_false] at member
    rcases member with rfl | rfl | rfl <;> (intro positioned; cases positioned)
  obtain ⟨contents, _, _, _, delivers, home, isHome, presents⟩ :=
    item_is_its_key served.reachable raised described named
      (show (exposures (offersOf [(⟨1⟩, Adorned.upper), (⟨2⟩, Collected.lower)])
        Adorned.binding.registered.type)[0]? = some Adorned.binding from rfl)
      (show Adorned.child.registry.find? Adorned.binding.registered = some Adorned.binding from rfl)
      rfl rfl rfl (served.did 3 rfl).1 (.resolve ..) (served.did 3 rfl).2 (served.did 2 rfl).1
      (.resolveTyped ..) (served.did 2 rfl).2
  cases isHome
  exact ⟨activity, served.reachable, delivers, presents⟩

end Provision
