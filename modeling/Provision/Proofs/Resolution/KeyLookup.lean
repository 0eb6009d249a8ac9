import Provision.Proofs.Resolution.ErrorPaths
import Provision.Proofs.Instances.ValueResidence

/-!
# Looking up and resolving

Whether anything is registered under a key can be asked without resolving the key, and a scope lists
the keys that it can be asked for by name.  Resolving agrees with that: a request for a key is told
that the key is not registered exactly if nothing is bound under it, and has only looked at its
context and at its scope then.  No other failure is taken for that, as what the functions of the
client fail with and what dependencies fail with is wrapped, and as the owner of what is found is
always there.

Main statement: `lookup_agrees`.
-/

namespace Provision

open Moment

variable {U : Client}

/-! ## Listing keys -/

/-- The keys that a registry lists: each bound key once, unless its tag is a position. -/
structure Registry.ListsKeys (registry : Registry U) : Prop where
  distinct : registry.keys.Nodup
  listed : ∀ key, key ∈ registry.keys ↔
    registry.contains key = true ∧ ∀ index, key.tag ≠ some (.position index)
  counted : registry.size = registry.keys.length

namespace Registry

variable {registry bound : Registry U} {key : Key} {binding : Binding U}

theorem bind_distinct (distinct : registry.bindings.keys.Nodup)
    (binds : registry.bind key binding = .ok bound) : bound.bindings.keys.Nodup := by
  obtain ⟨_, items, _, rfl⟩ := bind_eq_ok_iff.mp binds
  exact Table.nodup_put (Table.nodup_put (Table.nodup_put distinct _ _) _ _) _ _

theorem isPosition_eq_false (key : Key) :
    key.isPosition = false ↔ ∀ index, key.tag ≠ some (.position index) := by
  unfold Key.isPosition
  cases key.tag with
  | none => simp
  | some tag => cases tag <;> simp [Tag.isPosition]

theorem listsKeys (distinct : registry.bindings.keys.Nodup) : registry.ListsKeys where
  distinct := distinct.filter _
  listed := by
    intro key
    rw [Registry.keys, List.mem_filter, Table.mem_keys, Bool.not_eq_true', isPosition_eq_false]
    rfl
  counted := rfl

end Registry

/-- No key of a built scope is bound twice. -/
theorem Scope.Built.distinct {scope : Scope U} (built : scope.Built) :
    scope.registry.bindings.keys.Nodup := by
  have keeps : ∀ {builder : Builder U} (registrations), builder.registry.bindings.keys.Nodup →
      (builder.addAll registrations).scope.registry.bindings.keys.Nodup := by
    intro builder registrations distinct
    rw [Builder.scope_registry]
    exact Builder.addAll_induction (fun distinct _ binds => Registry.bind_distinct distinct binds)
      (fun _ distinct => distinct) registrations distinct
  induction built with
  | root id registrations => exact keeps registrations List.nodup_nil
  | child id registrations _ _ ih => exact keeps registrations ih

/-! ## Requests for one key -/

/-- A demand for what is registered under a key of a scope, with the context that it is made in. -/
inductive Demand.Seeks : Demand U → Scope U → ContextId → Key → Prop where
  | resolve (scope : Scope U) (context : ContextId) (key : Key) :
      Seeks (.resolve scope context key) scope context key
  | resolveTyped (scope : Scope U) (context : ContextId) (key : Key) :
      Seeks (.resolveTyped scope context key) scope context key

/-- A request begins, looks at its context and at a scope, and ends. -/
def Event.Looks : Event U → Prop
  | .started _ => True
  | .performed (.contextError _) _ => True
  | .performed (.isClosed _) _ => True
  | .finished _ => True
  | _ => False

/-- Looking changes nothing. -/
theorem Event.Looks.unchanged {event : Event U} (looks : event.Looks) {before after : State U}
    (changes : event.Changes before after) : after = before := by
  cases event with
  | performed operation answer =>
      cases operation <;> first | exact looks.elim | (cases changes; rfl)
  | started demand => exact changes
  | finished reply => exact changes
  | called call => exact looks.elim
  | returned call answer => exact looks.elim

section Requests

variable {scope home : Scope U} {context : ContextId} {key other : Key} {binding : Binding U}
  {events : List (Event U)}

/-- Looking at a context tells whether the request may go on. -/
theorem does_ensureUsable {outcome : Except Error Unit} :
    Request.Does (ensureUsable context) events outcome ↔
      (events = [.performed (.contextError context) none] ∧ outcome = .ok ()) ∨
        ∃ reason, events = [.performed (.contextError context) (some reason)] ∧
          outcome = .error (.contextDone reason) := by
  refine Iff.trans Request.does_bind_act ?_
  constructor
  · rintro ⟨reason, rest, rfl, does⟩
    cases reason with
    | none =>
        obtain ⟨rfl, rfl⟩ := Request.does_pure.mp does
        exact .inl ⟨rfl, rfl⟩
    | some reason =>
        obtain ⟨rfl, rfl⟩ := Request.does_fail.mp does
        exact .inr ⟨reason, rfl, rfl⟩
  · rintro (⟨rfl, rfl⟩ | ⟨reason, rfl, rfl⟩)
    · exact ⟨none, [], rfl, Request.does_pure.mpr ⟨rfl, rfl⟩⟩
    · exact ⟨some reason, [], rfl, Request.does_fail.mpr ⟨rfl, rfl⟩⟩

/-- So does looking at a scope. -/
theorem does_ensureOpen {id : ScopeId} {outcome : Except Error Unit} :
    Request.Does (ensureOpen id) events outcome ↔
      (events = [.performed (.isClosed id) false] ∧ outcome = .ok ()) ∨
        (events = [.performed (.isClosed id) true] ∧ outcome = .error .closed) := by
  refine Iff.trans Request.does_bind_act ?_
  constructor
  · rintro ⟨closed, rest, rfl, does⟩
    cases closed with
    | false =>
        obtain ⟨rfl, rfl⟩ := Request.does_pure.mp does
        exact .inl ⟨rfl, rfl⟩
    | true =>
        obtain ⟨rfl, rfl⟩ := Request.does_fail.mp does
        exact .inr ⟨rfl, rfl⟩
  · rintro (⟨rfl, rfl⟩ | ⟨rfl, rfl⟩)
    · exact ⟨false, [], rfl, Request.does_pure.mpr ⟨rfl, rfl⟩⟩
    · exact ⟨true, [], rfl, Request.does_fail.mpr ⟨rfl, rfl⟩⟩

/-- A request for a key under which nothing is bound looks at its context and its scope and fails:
as the key is not registered, unless it was not to go on. -/
theorem does_resolve_unbound {outcome : Outcome U} (unbound : scope.registry.find? key = none)
    (does : Request.Does (resolve scope context key) events outcome) :
    (∀ event ∈ events, event.Looks) ∧ ∃ error, outcome = .error error ∧
      (error = .notRegistered key ∨ error.OfCreation ∧
        (.performed (.contextError context) none ∉ events ∨
          .performed (.isClosed scope.id) false ∉ events)) := by
  unfold resolve resolveWithin Resolver.resolve at does
  simp only [unbound] at does
  rcases Request.does_bind.mp does with ⟨error, rfl, fails⟩ | ⟨_, _, rest, rfl, usable, goes⟩
  · rcases does_ensureUsable.mp fails with ⟨_, impossible⟩ | ⟨reason, rfl, same⟩
    · cases impossible
    · cases same
      refine ⟨by simp [Event.Looks], _, rfl, .inr ⟨trivial, .inl fun usable => ?_⟩⟩
      cases List.mem_singleton.mp usable
  rcases does_ensureUsable.mp usable with ⟨rfl, _⟩ | ⟨_, _, impossible⟩
  swap
  · cases impossible
  rcases Request.does_bind.mp goes with ⟨error, rfl, fails⟩ | ⟨_, _, last, rfl, opened, ends⟩
  · rcases does_ensureOpen.mp fails with ⟨_, impossible⟩ | ⟨rfl, same⟩
    · cases impossible
    · cases same
      refine ⟨by simp [Event.Looks], _, rfl, .inr ⟨trivial, .inr fun opened => ?_⟩⟩
      rcases List.mem_cons.mp opened with impossible | impossible
      · cases impossible
      · cases List.mem_singleton.mp impossible
  rcases does_ensureOpen.mp opened with ⟨rfl, _⟩ | ⟨_, impossible⟩
  swap
  · cases impossible
  obtain ⟨rfl, rfl⟩ := Request.does_fail.mp ends
  exact ⟨by simp [Event.Looks], _, rfl, .inl rfl⟩

/-- Where the owner of a binding is there, finding the scope that keeps what is bound fails for
other reasons. -/
theorem only_effectiveScope_found {owner : Scope U}
    (owns : scope.ancestor? binding.owner = some owner) :
    Request.Only Event.Idle
      (fun outcome => (∀ home, outcome = .ok home → binding.home? scope = some home) ∧
        outcome ≠ .error (.notRegistered other))
      (effectiveScope scope key binding) := by
  unfold effectiveScope Binding.home?
  cases binding.recipe.lifetime with
  | singleton =>
      simp only [owns]
      refine Request.only_bind (only_ensureOpen owner.id) ?_ ?_
      · rintro error creates
        refine ⟨nofun, ?_⟩
        rintro ⟨⟩
        exact creates _ rfl
      · exact fun _ _ => ⟨fun home same => Except.ok.inj same ▸ rfl, nofun⟩
  | perScope =>
      by_cases here : scope.id = binding.owner
      · simp only [here, if_true]
        exact ⟨nofun, nofun⟩
      · simp only [here, if_false]
        exact ⟨fun home same => Except.ok.inj same ▸ rfl, nofun⟩
  | transient => exact ⟨fun home same => Except.ok.inj same ▸ rfl, nofun⟩

/-- What is made for a key fails for reasons of its own, or for a dependency. -/
theorem not_does_resolveIn_notRegistered {resolver : Resolver U} {active : List Key}
    (recalls : RecallsCreations events) :
    ¬ Request.Does (resolver.resolveIn home context key binding active) events
      (.error (.notRegistered other)) := by
  have creates : ∀ {events}, RecallsCreations events → ¬ Request.Does
      (if key ∈ active then Request.fail (.cycle (cycleChain active key))
        else resolver.create home context key binding active) events
          (.error (.notRegistered other)) := by
    intro events recalls does
    by_cases isActive : key ∈ active
    · rw [if_pos isActive] at does
      cases (Request.does_fail.mp does).2
    rw [if_neg isActive, Resolver.create_eq] at does
    rcases Request.does_bind.mp does with ⟨_, same, fails⟩ | ⟨_, _, rest, rfl, _, makes⟩
    · cases same
      have gathers : Gathers (fun _ _ _ => True) key _ _ :=
        gathers_inputs (fun _ _ _ _ _ => trivial) fails
      obtain ⟨_, _, _, _, failed⟩ := gathers
      obtain ⟨_, _, impossible, _⟩ := (failed _).mp rfl
      cases impossible
    · have recalls : RecallsCreations rest := recalls.subset fun _ => List.mem_append_right _
      exact creates_produceFrom recalls makes _ rfl
  intro does
  unfold Resolver.resolveIn recallShown at does
  by_cases kept : binding.recipe.lifetime.isKept = true
  · simp only [kept] at does
    obtain ⟨found, rest, rfl, goes⟩ := Request.does_bind_act.mp does
    cases found with
    | none => exact creates (recalls.subset fun _ => List.mem_cons_of_mem _) goes
    | some told =>
        obtain ⟨_, last, rfl, ends⟩ := Request.does_bind_call.mp goes
        obtain ⟨rfl, rfl⟩ := Request.does_ofExcept.mp ends
        exact recalls _ List.mem_cons_self _ (.peeked ..) _ rfl
  · simp only [kept] at does
    exact creates recalls does

/-- A request for a key is told that it is not registered only if nothing is bound under it. -/
theorem Scope.Built.unbound_of_does (built : scope.Built) (recalls : RecallsCreations events)
    (does : Request.Does (resolve scope context key) events (.error (.notRegistered other))) :
    scope.registry.find? key = none := by
  unfold resolve resolveWithin Resolver.resolve at does
  refine Request.fails_bind (only_ensureUsable context) recalls does
    (fun creates => (creates _ rfl).elim) fun _ usable _ recalls does => ?_
  refine Request.fails_bind (only_ensureOpen scope.id) recalls does
    (fun creates => (creates _ rfl).elim) fun _ opened _ recalls does => ?_
  cases bound : scope.registry.find? key with
  | none => rfl
  | some binding =>
      simp only [bound] at does
      obtain ⟨owner, owns, _⟩ := built.sound.owner bound
      have finds {rest : List (Event U)} (recalls : RecallsCreations rest)
          (does : Request.Does (do
            let effective ← effectiveScope scope key binding
            (resolveWithin scope.registry.bound).resolveIn effective context key binding [])
              rest (.error (.notRegistered other))) : False := by
        refine Request.fails_bind (only_effectiveScope_found owns) recalls does
          (fun fails => fails.2 rfl) fun home _ _ recalls does => ?_
        exact not_does_resolveIn_notRegistered recalls does
      cases source : binding.recipe.source with
      | value content =>
          simp only [source] at does
          exact (((only_convert binding scope.id key _).does does).2.creates _ rfl).elim
      | factory make =>
          simp only [source] at does
          exact (finds recalls does).elim
      | list item =>
          simp only [source] at does
          exact (finds recalls does).elim

/-- How a demand for one key ends: with what the request for the key comes to, unless what it finds
is of another type. -/
theorem Demand.Seeks.does {demand : Demand U} {reply : Except Error (Reply U)}
    (seeks : demand.Seeks scope context key) (does : demand.request.Does events reply) :
    (∃ error, reply = .error error ∧
        Request.Does (Provision.resolve scope context key) events (.error error)) ∨
      ∃ first value rest, events = first ++ rest ∧
        Request.Does (Provision.resolve scope context key) first (.ok value) ∧
          ∀ other, reply ≠ .error (.notRegistered other) := by
  cases seeks with
  | resolve =>
      rcases Request.does_bind.mp does with
        ⟨error, rfl, fails⟩ | ⟨first, value, rest, rfl, goes, ends⟩
      · exact .inl ⟨error, rfl, fails⟩
      · refine .inr ⟨first, value, rest, rfl, goes, ?_⟩
        rw [(Request.does_pure.mp ends).2]
        nofun
  | resolveTyped =>
      rcases Request.does_bind.mp does with ⟨error, rfl, fails⟩ | ⟨typed, _, rest, rfl, goes, ends⟩
      · rcases Request.does_bind.mp fails with
          ⟨_, same, fails⟩ | ⟨first, value, rest, rfl, goes, ends⟩
        · cases same
          exact .inl ⟨error, rfl, fails⟩
        · refine .inr ⟨first, value, rest, rfl, goes, ?_⟩
          rintro other ⟨⟩
          split at ends
          · cases (Request.does_pure.mp ends).2
          · cases (Request.does_fail.mp ends).2
      · rcases Request.does_bind.mp goes with
          ⟨_, impossible, _⟩ | ⟨first, value, last, rfl, goes, _⟩
        · cases impossible
        · refine .inr ⟨first, value, last ++ rest, List.append_assoc .., goes, ?_⟩
          rw [(Request.does_pure.mp ends).2]
          nofun

/-- Alone, in a usable context and an open scope, such a request returns and leaves all as it
was. -/
theorem alone_resolve_unbound {σ : Type} {behaviour : Behaviour U σ} {world : World U σ}
    (unbound : scope.registry.find? key = none)
    (usable : world.state.contexts.error? context = none)
    (opened : (world.state.scope scope.id).closed = false) :
    (resolve scope context key).alone behaviour world =
      some (.error (.notRegistered key), world) := by
  unfold resolve resolveWithin Resolver.resolve
  rw [Request.alone_bind_ok (alone_ensureUsable usable),
    Request.alone_bind_ok (alone_ensureOpen opened), unbound]
  rfl

end Requests

/-! ## Agreement -/

theorem Scope.contains_eq_false {scope : Scope U} {key : Key} :
    scope.contains key = false ↔ scope.registry.find? key = none :=
  Option.isSome_eq_false_iff.trans Option.isNone_iff_eq_none

/-- What looking up a key of a scope has to do with resolving it. -/
structure Moment.AgreesOn (moment : Moment U) (scope : Scope U) (key : Key) : Prop where
  /-- The scope that made a binding is always there, among the ancestors or the scope itself. -/
  owned : ∀ binding, scope.registry.find? key = some binding →
    ∃ owner, scope.ancestor? binding.owner = some owner ∧ moment.IsScope owner
  /-- A request for the key that finds its context usable and its scope open is told that the key
  is not registered exactly if nothing is registered under it. -/
  missing_iff : ∀ id demand context reply, moment.Did id (.started demand) →
    demand.Seeks scope context key → moment.Did id (.performed (.contextError context) none) →
      moment.Did id (.performed (.isClosed scope.id) false) → moment.Did id (.finished reply) →
        (scope.contains key = false ↔ ∃ other, reply = .error (.notRegistered other))
  /-- It is told so of the key itself, and did nothing but look. -/
  named : ∀ id demand context other, moment.Did id (.started demand) →
    demand.Seeks scope context key →
      moment.Did id (.finished (.error (.notRegistered other))) →
        other = key ∧ ∀ event, moment.Did id event → event.Looks
  /-- Alone it returns, and all is as it was. -/
  unchanged : scope.contains key = false → ∀ {σ : Type} (behaviour : Behaviour U σ)
    (world : World U σ) (context : ContextId), world.state.contexts.error? context = none →
      (world.state.scope scope.id).closed = false →
        (resolve scope context key).alone behaviour world =
          some (.error (.notRegistered key), world)

section Reachable

variable {activity : Activity U} {id : RequestId} {demand : Demand U} {scope : Scope U}
  {context : ContextId} {key : Key} {reply : Except Error (Reply U)}

/-- What a request for one key did, and what the request for the key came to. -/
theorem Activity.Reachable.sought (reachable : activity.Reachable)
    (began : activity.moment.Did id (.started demand))
    (ended : activity.moment.Did id (.finished reply)) :
    ∃ events, RecallsCreations events ∧ demand.request.Does events reply ∧
      ∀ event, activity.moment.Did id event ↔
        event = .started demand ∨ event ∈ events ∨ event = .finished reply := by
  have lawful := reachable.lawful kept_creating
  obtain ⟨events, doings, does⟩ := reachable.went began ended
  have did : ∀ event, activity.moment.Did id event ↔
      event = .started demand ∨ event ∈ events ∨ event = .finished reply := by
    intro event
    rw [← mem_doings, doings]
    simp
  refine ⟨events, fun event member outcome recalls => ?_, does, did⟩
  obtain ⟨_, told⟩ := lawful.creations fun _ _ allowed => allowed.2
  exact told id event outcome ((did event).mpr (.inr (.inl member))) recalls

/-- A request for a key of a built scope that is told that something is not registered. -/
theorem Activity.Reachable.unbound_of_told (reachable : activity.Reachable)
    (isScope : activity.moment.IsScope scope) {other : Key}
    (began : activity.moment.Did id (.started demand)) (seeks : demand.Seeks scope context key)
    (ended : activity.moment.Did id (.finished (.error (.notRegistered other)))) :
    scope.registry.find? key = none ∧ other = key ∧
      ∀ event, activity.moment.Did id event → event.Looks := by
  obtain ⟨events, recalls, does, did⟩ := reachable.sought began ended
  have built := (isScope.grown (reachable.lawful kept_growing)).built
  rcases seeks.does does with ⟨error, same, fails⟩ | ⟨_, _, _, _, _, differs⟩
  swap
  · exact absurd rfl (differs other)
  cases same
  have unbound := built.unbound_of_does recalls fails
  obtain ⟨looks, error, same, isKey | ⟨creation, _⟩⟩ := does_resolve_unbound unbound fails
  · cases same
    cases isKey
    refine ⟨unbound, rfl, fun event happened => ?_⟩
    rcases (did event).mp happened with rfl | member | rfl
    · trivial
    · exact looks event member
    · trivial
  · cases same
    exact creation.elim

/-- A request for a key under which nothing is bound is told so if it may go on. -/
theorem Activity.Reachable.told_of_unbound (reachable : activity.Reachable)
    (unbound : scope.registry.find? key = none)
    (began : activity.moment.Did id (.started demand)) (seeks : demand.Seeks scope context key)
    (usable : activity.moment.Did id (.performed (.contextError context) none))
    (opened : activity.moment.Did id (.performed (.isClosed scope.id) false))
    (ended : activity.moment.Did id (.finished reply)) : reply = .error (.notRegistered key) := by
  obtain ⟨events, _, does, did⟩ := reachable.sought began ended
  have among {event : Event U} (happened : activity.moment.Did id event)
      (unstarted : ∀ demand, event ≠ .started demand)
      (unfinished : ∀ reply, event ≠ .finished reply) : event ∈ events := by
    rcases (did event).mp happened with same | member | same
    · exact absurd same (unstarted _)
    · exact member
    · exact absurd same (unfinished _)
  rcases seeks.does does with ⟨error, rfl, fails⟩ | ⟨_, _, _, _, goes, _⟩
  · obtain ⟨_, _, same, isKey | ⟨_, unusable | shut⟩⟩ := does_resolve_unbound unbound fails
    · rw [Except.error.inj same, isKey]
    · exact absurd (among usable nofun nofun) unusable
    · exact absurd (among opened nofun nofun) shut
  · obtain ⟨_, _, impossible, _⟩ := does_resolve_unbound unbound goes
    cases impossible

end Reachable

/-- Looking up and resolving agree, in every scope that was built and for every key: however
requests act in between each other, one for the key is told that it is not registered exactly if
nothing is registered under it, and then changes nothing.  The scope lists each key once that it can
be asked for by name. -/
theorem lookup_agrees {activity : Activity U} (reachable : activity.Reachable) {scope : Scope U}
    (isScope : activity.moment.IsScope scope) :
    scope.registry.ListsKeys ∧ ∀ key, activity.moment.AgreesOn scope key := by
  have lawful := reachable.lawful kept_growing
  have built := (isScope.grown lawful).built
  refine ⟨Registry.listsKeys built.distinct, fun key => ⟨?_, ?_, ?_, ?_⟩⟩
  · intro binding bound
    obtain ⟨owner, owns, _⟩ := built.sound.owner bound
    exact ⟨owner, owns, isScope.ancestor lawful owns⟩
  · intro id demand context reply began seeks usable opened ended
    constructor
    · intro missing
      have unbound := Scope.contains_eq_false.mp missing
      exact ⟨key, reachable.told_of_unbound unbound began seeks usable opened ended⟩
    · rintro ⟨other, rfl⟩
      exact Scope.contains_eq_false.mpr (reachable.unbound_of_told isScope began seeks ended).1
  · intro id demand context other began seeks ended
    exact (reachable.unbound_of_told isScope began seeks ended).2
  · intro missing σ behaviour world context usable opened
    exact alone_resolve_unbound (Scope.contains_eq_false.mp missing) usable opened

namespace Resident

/-- A key under which neither scope has anything. -/
def absent : Key := .of (.concrete "sample" "C")

/-- The world once the child scope was asked for it. -/
def refused : World Client.obliging Unit :=
  (Demand.resolve child ⟨0⟩ absent).afterwards Behaviour.obliging resolved

end Resident

/-- A child scope resolves a service of its own and is then asked for one that is not registered: it
lists its four keys, and the request is told that the key is not registered. -/
theorem absent_key_missing : ∃ activity : Activity Client.obliging, activity.Reachable ∧
    activity.moment.IsScope Resident.child ∧ Resident.child.registry.ListsKeys ∧
      Resident.child.registry.size = 4 ∧ Resident.child.contains Resident.own = true ∧
      Resident.child.contains Resident.absent = false ∧
      activity.moment.Did ⟨3⟩ (.started (.resolve Resident.child ⟨0⟩ Resident.absent)) ∧
      activity.moment.Did ⟨3⟩ (.finished (.error (.notRegistered Resident.absent))) ∧
      ∀ event, activity.moment.Did ⟨3⟩ event → event.Looks := by
  obtain ⟨_, served⟩ := Resident.served
  have runs : (Demand.resolve Resident.child ⟨0⟩ Resident.absent).request.run.run
      Behaviour.obliging Resident.resolved =
        some (.error (.notRegistered Resident.absent), Resident.refused) := rfl
  obtain ⟨activity, refused, _⟩ :=
    served.nextOn Behaviour.obliging_detached runs rfl (List.mem_cons_of_mem _ List.mem_cons_self)
  have isScope : activity.moment.IsScope Resident.child := ⟨_, (refused.did 1 rfl).2⟩
  obtain ⟨began, ended⟩ := refused.did 3 rfl
  obtain ⟨lists, agrees⟩ := lookup_agrees refused.reachable isScope
  obtain ⟨_, looks⟩ := (agrees Resident.absent).named ⟨3⟩ _ _ _ began (.resolve ..) ended
  exact ⟨activity, refused.reachable, isScope, lists, rfl, rfl, rfl, began, ended, looks⟩

end Provision
