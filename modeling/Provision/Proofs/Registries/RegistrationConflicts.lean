import Provision.Proofs.Registries.BuildOutcomes
import Provision.Proofs.Registries.ReservedListKeys
import Provision.Proofs.Instances.ValueResidence
import Provision.Proofs.Resolution.RequestsTerminate

/-!
# Conflicts among registrations

Registrations are compatible if nothing is wrong with any of them by itself and none makes anything
visible as the list of a type that one of them makes something visible as.  A builder looks for such
pairs as it goes, in one way if the list comes first and in another if it comes last; in the end it
accepts exactly the compatible registrations, those of the ancestors included.

A build reports of each registration its own issues, and of each that has none a reserved key for
every key of it that excludes one that is bound already.  A registration with an issue of its own is
not tried, and a key that is refused is not bound, so nothing is reported of what these exclude: a
conflict goes unreported if it is hidden by another issue of one of the two registrations.

Main statements: `accepted_in_any_order` and `conflicts_reported_unless_hidden`.
-/

namespace Provision

open Moment

variable {U : Client}

/-! ## Compatible registrations -/

/-- Nothing is wrong with any registration by itself, and if any makes something visible as a type,
none makes anything visible as the untagged list of the type. -/
structure Compatible (registrations : List (Registration U)) : Prop where
  sound : ∀ registration ∈ registrations, registration.issues = []
  apart : ∀ type, (∃ registration ∈ registrations, ∃ key ∈ registration.keys, key.type = type) →
    ∀ registration ∈ registrations, Key.of (.list type) ∉ registration.keys

/-- Registrations are compatible if they are sound and their keys are unreserved. -/
theorem compatible_iff {registrations : List (Registration U)} :
    Compatible registrations ↔ (∀ registration ∈ registrations, registration.issues = []) ∧
      Unreserved (registrations.flatMap Registration.keys) := by
  constructor
  · rintro ⟨sound, apart⟩
    refine ⟨sound, fun key member isList => ?_⟩
    obtain ⟨item, isItem, isKey⟩ := List.mem_flatMap.mp member
    obtain ⟨list, isMember, reserved⟩ := List.mem_flatMap.mp isList
    exact apart key.type ⟨item, isItem, key, isKey, rfl⟩ list isMember reserved
  · rintro ⟨sound, unreserved⟩
    refine ⟨sound, ?_⟩
    rintro _ ⟨item, isItem, key, isKey, rfl⟩ list isMember reserved
    exact unreserved key (List.mem_flatMap.mpr ⟨item, isItem, isKey⟩)
      (List.mem_flatMap.mpr ⟨list, isMember, reserved⟩)

/-- The order of registrations does not matter. -/
theorem Compatible.perm {registrations others : List (Registration U)}
    (compatible : Compatible registrations) (same : registrations.Perm others) :
    Compatible others where
  sound := fun registration member => compatible.sound registration (same.mem_iff.mpr member)
  apart := by
    rintro type ⟨item, isItem, exposes⟩ list isMember
    exact compatible.apart type ⟨item, same.mem_iff.mpr isItem, exposes⟩ list
      (same.mem_iff.mpr isMember)

/-! ## What scopes were built of -/

/-- The registrations of a chain of scopes, in order. -/
def registrationsOf (levels : List (ScopeId × List (Registration U))) : List (Registration U) :=
  levels.flatMap Prod.snd

/-- Where a scope is built: at the root, or below a scope of a chain. -/
inductive Moment.Below (moment : Moment U) :
    Option (Scope U) → List (ScopeId × List (Registration U)) → Prop where
  | root : Below moment none []
  | child {parent : Scope U} {levels : List (ScopeId × List (Registration U))} :
      moment.Raised parent levels → Below moment (some parent) levels

/-- A registry holds registrations that are compatible, under all their keys. -/
def Registry.Holds (registry : Registry U) (registrations : List (Registration U)) : Prop :=
  Compatible registrations ∧ ∃ bound, registry.Reflects bound ∧
    ∀ key, key ∈ registeredKeys bound ↔ key ∈ registrations.flatMap Registration.keys

namespace Registry.Holds

variable {builder : Builder U} {before : List (Registration U)}

/-- Registrations are accepted exactly if they are compatible with those that a builder holds. -/
theorem accepted_iff (holds : builder.registry.Holds before) (clear : builder.issues = [])
    (registrations : List (Registration U)) :
    (builder.addAll registrations).issues = [] ↔ Compatible (before ++ registrations) := by
  obtain ⟨compatible, bound, reflects, same⟩ := holds
  obtain ⟨after, report, _, reports, issues⟩ := reflects.addAll registrations
  have unreserved : Unreserved (registeredKeys bound ++ registrations.flatMap Registration.keys) ↔
      Unreserved ((before ++ registrations).flatMap Registration.keys) := by
    have both : ∀ key, key ∈ registeredKeys bound ++ registrations.flatMap Registration.keys ↔
        key ∈ (before ++ registrations).flatMap Registration.keys := by
      intro key
      rw [List.flatMap_append, List.mem_append, List.mem_append, same]
    exact ⟨fun free => free.mono fun _ => (both _).mpr, fun free => free.mono fun _ => (both _).mp⟩
  rw [issues, clear, List.nil_append, reports.reported_eq_nil_iff, compatible_iff, unreserved]
  constructor
  · rintro ⟨sound, free⟩
    refine ⟨fun registration member => ?_, free⟩
    rcases List.mem_append.mp member with earlier | now
    · exact compatible.sound registration earlier
    · exact sound registration now
  · rintro ⟨sound, free⟩
    exact ⟨fun registration member => sound registration (List.mem_append_right _ member), free⟩

/-- Accepted registrations are held. -/
theorem addAll (holds : builder.registry.Holds before) (clear : builder.issues = [])
    {registrations : List (Registration U)}
    (accepted : (builder.addAll registrations).issues = []) :
    (builder.addAll registrations).registry.Holds (before ++ registrations) := by
  have compatible := (holds.accepted_iff clear registrations).mp accepted
  obtain ⟨_, bound, reflects, same⟩ := holds
  obtain ⟨after, report, reflected, reports, issues⟩ := reflects.addAll registrations
  refine ⟨compatible, after, reflected, fun key => ?_⟩
  rw [issues, clear, List.nil_append] at accepted
  rw [reports.mem_after_iff accepted, List.flatMap_append, List.mem_append, List.mem_append, same]

end Registry.Holds

namespace Activity.Reachable

variable {activity : Activity U} (reachable : activity.Reachable) {parent : Option (Scope U)}
  {levels : List (ScopeId × List (Registration U))}

include reachable

/-- The registry of a scope holds the registrations of its chain. -/
theorem holds {scope : Scope U} (raised : activity.moment.Raised scope levels) :
    scope.registry.Holds (registrationsOf levels) := by
  induction raised with
  | @root id scope registrations began ended =>
      obtain ⟨sound, same⟩ := reachable.accepted began ended
      have empty : (Builder.start scope.id (none : Option (Scope U))).registry.Holds [] :=
        ⟨⟨nofun, nofun⟩, [], .empty, fun _ => Iff.rfl⟩
      rw [same, Builder.scope_registry]
      simpa [registrationsOf] using empty.addAll rfl sound
  | @child id scope parent registrations levels _ began ended ih =>
      obtain ⟨sound, same⟩ := reachable.accepted began ended
      have above : (Builder.start scope.id (some parent)).registry.Holds (registrationsOf levels) :=
        ih
      rw [same, Builder.scope_registry]
      simpa [registrationsOf] using above.addAll rfl sound

/-- A builder starts with the registrations of the ancestors. -/
theorem starts_with (below : activity.moment.Below parent levels) (scope : ScopeId) :
    (Builder.start scope parent).registry.Holds (registrationsOf levels) := by
  cases below with
  | root => exact ⟨⟨nofun, nofun⟩, [], .empty, fun _ => Iff.rfl⟩
  | child raised => exact reachable.holds raised

/-- Every scope that a build names stands at the end of a chain. -/
theorem exists_below {id : RequestId} {registrations : List (Registration U)}
    (began : activity.moment.Did id (.started (.build parent registrations))) :
    ∃ levels, activity.moment.Below parent levels := by
  have orderly := (reachable.lawful kept_growing).mono fun _ _ allowed => allowed.1
  cases parent with
  | none => exact ⟨[], .root⟩
  | some parent =>
      obtain ⟨levels, raised⟩ := reachable.exists_raised (orderly.named began List.mem_cons_self)
      exact ⟨levels, .child raised⟩

/-- A build goes to an end whatever happens. -/
theorem build_terminates {id : RequestId} {registrations : List (Registration U)}
    (began : activity.moment.Did id (.started (.build parent registrations))) :
    (Demand.build parent registrations).request.Terminates := by
  have lawful := reachable.lawful kept_growing
  have orderly := lawful.mono fun _ _ allowed => allowed.1
  exact Demand.terminates fun scope named => ((orderly.named began named).grown lawful).built

end Activity.Reachable

/-! ## How registrations are judged -/

/-- How a build of a scope is answered that is to hold some registrations, those of its ancestors
included: it is refused if the parent was shut, and else accepted exactly if they are compatible. -/
inductive Moment.Judges (moment : Moment U) (parent : Option (Scope U))
    (registrations : List (Registration U)) : Except Error (Reply U) → Prop where
  | refused {above : Scope U} : parent = some above → moment.WasShut above.id →
      Judges moment parent registrations (.error .closed)
  | accepted (scope : Scope U) : Compatible registrations →
      Judges moment parent registrations (.ok (.built scope))
  | rejected {issues : List Issue} : ¬ Compatible registrations → issues ≠ [] →
      Judges moment parent registrations (.error (.invalid issues))

namespace Moment.Judges

variable {moment : Moment U} {parent : Option (Scope U)} {registrations : List (Registration U)}
  {reply : Except Error (Reply U)}

/-- Unless the parent was shut, compatible registrations are accepted and no others. -/
theorem accepted_iff (judges : moment.Judges parent registrations reply)
    (judged : reply ≠ .error .closed) :
    (∃ scope, reply = .ok (.built scope)) ↔ Compatible registrations := by
  cases judges with
  | refused _ _ => exact absurd rfl judged
  | accepted scope compatible => exact ⟨fun _ => compatible, fun _ => ⟨scope, rfl⟩⟩
  | rejected conflict _ =>
      refine ⟨?_, fun compatible => absurd compatible conflict⟩
      rintro ⟨_, ⟨⟩⟩

end Moment.Judges

namespace Activity.Reachable

variable {activity : Activity U} (reachable : activity.Reachable) {id : RequestId}
  {parent : Option (Scope U)} {registrations : List (Registration U)}
  {levels : List (ScopeId × List (Registration U))} {reply : Except Error (Reply U)}

include reachable

/-- A build judges its registrations beside those of the ancestors. -/
theorem judges (began : activity.moment.Did id (.started (.build parent registrations)))
    (below : activity.moment.Below parent levels)
    (ended : activity.moment.Did id (.finished reply)) :
    activity.moment.Judges parent (registrationsOf levels ++ registrations) reply := by
  have accepted (scope : ScopeId) := (reachable.starts_with below scope).accepted_iff
    (by cases parent <;> rfl) registrations
  rcases reachable.answered began ended with ⟨rfl, above, isAbove, shut⟩ |
    ⟨scope, ⟨sound, rfl⟩ | ⟨unsound, rfl⟩⟩
  · exact .refused isAbove shut
  · exact .accepted _ ((accepted scope).mp sound)
  · exact .rejected (fun compatible => unsound ((accepted scope).mpr compatible)) unsound

end Activity.Reachable

/-- Whoever builds a scope, while other requests go on in any order, is answered.  Unless its parent
was shut, the scope is built exactly if its registrations are compatible with those of all its
ancestors; so another build whose registrations are the same with those of its ancestors, in any
order, fares alike. -/
theorem accepted_in_any_order {activity : Activity U} (reachable : activity.Reachable)
    {id : RequestId} {parent : Option (Scope U)} {registrations : List (Registration U)}
    (began : activity.moment.Did id (.started (.build parent registrations))) :
    (Demand.build parent registrations).request.Terminates ∧
      (∃ levels, activity.moment.Below parent levels) ∧
        ∀ levels reply, activity.moment.Below parent levels →
          activity.moment.Did id (.finished reply) →
            activity.moment.Judges parent (registrationsOf levels ++ registrations) reply ∧
              ∀ (other : Activity U) (id' : RequestId) (parent' : Option (Scope U))
                (registrations' : List (Registration U))
                (levels' : List (ScopeId × List (Registration U)))
                (reply' : Except Error (Reply U)), other.Reachable →
                  other.moment.Did id' (.started (.build parent' registrations')) →
                    other.moment.Below parent' levels' →
                      other.moment.Did id' (.finished reply') →
                        (registrationsOf levels ++ registrations).Perm
                            (registrationsOf levels' ++ registrations') →
                          reply ≠ .error .closed → reply' ≠ .error .closed →
                            ((∃ scope, reply = .ok (.built scope)) ↔
                              ∃ scope, reply' = .ok (.built scope)) := by
  refine ⟨reachable.build_terminates began, reachable.exists_below began, ?_⟩
  intro levels reply below ended
  have judges := reachable.judges began below ended
  refine ⟨judges, ?_⟩
  intro other id' parent' registrations' levels' reply' reachable' began' below' ended' same judged
    judged'
  rw [judges.accepted_iff judged,
    (reachable'.judges began' below' ended').accepted_iff judged']
  exact ⟨fun compatible => compatible.perm same, fun compatible => compatible.perm same.symm⟩

namespace Shuffled

/-- The type of an item. -/
def item : ServiceType := .concrete "sample" "A"

/-- An item of a type. -/
def part : Registration Client.obliging := .service (Offer.value item (.list []))

/-- What is visible as the list of the type. -/
def whole : Registration Client.obliging := .service (Offer.value (.list item) (.list []))

/-- The scope that the item is registered in. -/
def scope : Scope Client.obliging :=
  ((Builder.root ⟨1⟩).addAll [part]).scope

/-- The reply to whoever registers both. -/
def rejected : Except Error (Reply Client.obliging) :=
  .error (.invalid [.reserved (.of (.list item))])

/-- The world once the item is registered. -/
def begun : World Client.obliging Unit :=
  (Demand.build none [part]).afterwards Behaviour.obliging { state := {}, memory := () }

/-- The world once the list was registered below. -/
def tried : World Client.obliging Unit :=
  (Demand.build (some scope) [whole]).afterwards Behaviour.obliging begun

/-- The list and its part were built in both orders, in one scope and in two. -/
theorem served : ∃ activity : Activity Client.obliging, Activity.Served Behaviour.obliging
    [(.build none [part], .ok (.built scope)), (.build (some scope) [whole], rejected),
      (.build none [whole, part], rejected)]
    ((Demand.build none [whole, part]).afterwards Behaviour.obliging tried) activity := by
  have builds : (Demand.build none [part]).request.run.run Behaviour.obliging
      { state := {}, memory := () } = some (.ok (.built scope), begun) := rfl
  have tries : (Demand.build (some scope) [whole]).request.run.run Behaviour.obliging begun =
      some (rejected, tried) := rfl
  have again : (Demand.build none [whole, part]).request.run.run Behaviour.obliging tried =
      some (rejected, (Demand.build none [whole, part]).afterwards Behaviour.obliging tried) := rfl
  have detached := Behaviour.obliging_detached
  obtain ⟨_, one, _⟩ := (Activity.Served.initial ()).next detached builds nofun
  obtain ⟨_, two, _⟩ := one.nextOn detached tries rfl List.mem_cons_self
  obtain ⟨activity, three, _⟩ := two.next detached again nofun
  exact ⟨activity, three⟩

end Shuffled

/-- What is visible as a list is rejected below an item of the list, and so it is before the item in
one scope. -/
theorem rejected_in_both_orders : ∃ activity : Activity Client.obliging, activity.Reachable ∧
    activity.moment.Did ⟨1⟩ (.finished Shuffled.rejected) ∧
      activity.moment.Did ⟨2⟩ (.finished Shuffled.rejected) ∧
        ¬ Compatible [Shuffled.part, Shuffled.whole] ∧
          ¬ ∃ scope, Shuffled.rejected = .ok (.built scope) := by
  obtain ⟨activity, served⟩ := Shuffled.served
  have reachable := served.reachable
  have raised : activity.moment.Raised Shuffled.scope [(⟨1⟩, [Shuffled.part])] :=
    .root (served.did 0 rfl).1 (served.did 0 rfl).2
  obtain ⟨_, _, answers⟩ := accepted_in_any_order reachable (served.did 1 rfl).1
  obtain ⟨judges, alike⟩ := answers _ _ (.child raised) (served.did 1 rfl).2
  have same :=
    alike activity ⟨2⟩ none [Shuffled.whole, Shuffled.part] [] Shuffled.rejected reachable
    (served.did 2 rfl).1 .root (served.did 2 rfl).2 (.swap _ _ _) nofun nofun
  refine ⟨activity, reachable, (served.did 1 rfl).2, (served.did 2 rfl).2, ?_, ?_⟩
  · cases judges with
    | rejected conflict _ => exact conflict
  · rw [← same]
    rintro ⟨_, ⟨⟩⟩

/-! ## Reports -/

/-- The keys that a build tries to bind, and before them those of the ancestors. -/
def keysAround (above registrations : List (Registration U)) : List Key :=
  above.flatMap Registration.keys ++ registrations.flatMap Registration.wanted

/-- What is reported of a registration beside some keys: its own issues, and otherwise a reserved
key for each key that is refused. -/
def Registration.Reported (around : List Key) (registration : Registration U)
    (issues : List Issue) : Prop :=
  ∃ refused : List Key, issues = registration.issues ++ refused.map Issue.reserved ∧
    ∀ reserved ∈ refused, ∃ key ∈ registration.wanted, key.Refused around reserved

/-- What is reported of registrations below those of the ancestors. -/
structure Reported (above registrations : List (Registration U)) (issues : List Issue) : Prop where
  /-- The issues are those of the registrations, one registration after another. -/
  pieces : ∃ pieces, List.Forall₂ (Registration.Reported (keysAround above registrations))
    registrations pieces ∧ issues = pieces.flatten
  /-- All issues that registrations have by themselves are there, in order. -/
  own : (registrations.flatMap Registration.issues).Sublist issues
  /-- If keys that are tried exclude each other, one of them is refused: as the list's key is
  reserved, which is reported, or because of a third key, and then this is reported. -/
  conflicts : ∀ key ∈ keysAround above registrations,
    key.listKey ∈ keysAround above registrations →
      .reserved key.listKey ∈ issues ∨
        (.reserved key ∈ issues ∧ ∃ item ∈ keysAround above registrations, item.listKey = key) ∨
          (.reserved key.listKey.listKey ∈ issues ∧
            key.listKey.listKey ∈ keysAround above registrations)

/-- All issues of the registrations themselves are reported. -/
theorem own_sublist_reported (report : List (Registration U × List Key)) :
    ((report.map Prod.fst).flatMap Registration.issues).Sublist (reported report) := by
  induction report with
  | nil => exact .slnil
  | cons entry rest ih =>
      rw [List.map_cons, List.flatMap_cons, reported, List.flatMap_cons]
      exact (List.sublist_append_left _ _).append ih

/-- All refused keys are reported. -/
theorem reserved_mem_reported {report : List (Registration U × List Key)} {reserved : Key}
    (named : reserved ∈ report.flatMap Prod.snd) : .reserved reserved ∈ reported report := by
  obtain ⟨entry, member, isNamed⟩ := List.mem_flatMap.mp named
  refine List.mem_flatMap.mpr ⟨entry, member, List.mem_append_right _ ?_⟩
  exact List.mem_map_of_mem isNamed

/-- The report of a builder, in terms of the registrations of the ancestors. -/
theorem Reports.reported {before after : List Key} {above registrations : List (Registration U)}
    {report : List (Registration U × List Key)}
    (reports : Reports before registrations after report)
    (same : ∀ key, key ∈ before ↔ key ∈ above.flatMap Registration.keys) :
    Reported above registrations (Provision.reported report) := by
  have both : ∀ key, key ∈ before ++ registrations.flatMap Registration.wanted ↔
      key ∈ keysAround above registrations := by
    intro key
    rw [keysAround, List.mem_append, List.mem_append, same]
  refine ⟨⟨report.map fun entry => entry.1.issues ++ entry.2.map Issue.reserved, ?_, ?_⟩, ?_, ?_⟩
  · rw [← reports.each, List.forall₂_map_left_iff, List.forall₂_map_right_iff, reports.each]
    refine List.forall₂_same.mpr fun entry member => ⟨entry.2, rfl, fun reserved named => ?_⟩
    obtain ⟨key, wanted, reason⟩ := reports.reasons entry member reserved named
    exact ⟨key, wanted, reason.mono fun _ => (both _).mp⟩
  · rw [Provision.reported, List.flatMap_def]
  · rw [← reports.each]
    exact own_sublist_reported report
  · intro key isItem isList
    rcases reports.settles.excludes ((both _).mpr isItem) ((both _).mpr isList) with
      named | ⟨named, item, isMember, isListOf⟩ | ⟨named, isOuter⟩
    · exact .inl (reserved_mem_reported named)
    · exact .inr (.inl ⟨reserved_mem_reported named, item, (both _).mp isMember, isListOf⟩)
    · exact .inr (.inr ⟨reserved_mem_reported named, (both _).mp isOuter⟩)

/-! ## How builds report -/

/-- Whoever builds a scope, while other requests go on in any order, is answered.  Unless its parent
was shut, the answer tells everything that the registrations have by themselves, in their order, and
the reserved key of each conflict with and among them, but for conflicts that are hidden: one of the
two registrations has an issue of its own, or one of the two keys is refused for another conflict,
which is reported. -/
theorem conflicts_reported_unless_hidden {activity : Activity U} (reachable : activity.Reachable)
    {id : RequestId} {parent : Option (Scope U)} {registrations : List (Registration U)}
    (began : activity.moment.Did id (.started (.build parent registrations))) :
    (Demand.build parent registrations).request.Terminates ∧
      (∃ levels, activity.moment.Below parent levels) ∧
        ∀ levels reply, activity.moment.Below parent levels →
          activity.moment.Did id (.finished reply) →
            (reply = .error .closed ∧
                ∃ above, parent = some above ∧ activity.moment.WasShut above.id) ∨
              ∃ issues, Reported (registrationsOf levels) registrations issues ∧
                ((issues = [] ∧ ∃ scope, reply = .ok (.built scope)) ∨
                  (issues ≠ [] ∧ reply = .error (.invalid issues))) := by
  refine ⟨reachable.build_terminates began, reachable.exists_below began, ?_⟩
  intro levels reply below ended
  have reports : ∀ scope, Reported (registrationsOf levels) registrations
      ((Builder.start scope parent).addAll registrations).issues := by
    intro scope
    obtain ⟨_, bound, reflects, same⟩ := reachable.starts_with below scope
    obtain ⟨after, report, _, reports, issues⟩ := reflects.addAll registrations
    have clear : (Builder.start scope parent).issues = [] := by cases parent <;> rfl
    rw [issues, clear, List.nil_append]
    exact reports.reported same
  rcases reachable.answered began ended with refused | ⟨scope, ⟨sound, rfl⟩ | ⟨unsound, rfl⟩⟩
  · exact .inl refused
  · exact .inr ⟨_, reports scope, .inl ⟨sound, _, rfl⟩⟩
  · exact .inr ⟨_, reports scope, .inr ⟨unsound, rfl⟩⟩

namespace Hidden

/-- The type of a service that is described well. -/
def sound : ServiceType := .concrete "sample" "A"

/-- The type of one that is not. -/
def faulty : ServiceType := .concrete "sample" "B"

/-- Two services, the lists of both, and the list of one of the lists. -/
def registrations : List (Registration Client.obliging) :=
  [.service (Offer.value sound (.list [])),
    .service (Offer.value (.list sound) (.list [])),
    .service (Offer.value (.list (.list sound)) (.list [])),
    .service ((Offer.value faulty (.list [])).dependencyTag sound (.named "x")),
    .service (Offer.value (.list faulty) (.list []))]

/-- What is reported of them. -/
def issues : List Issue :=
  [.reserved (.of (.list sound)), .unknownParameter faulty.text sound.text (Tag.named "x").text]

/-- The build reported one of the two problems. -/
theorem served : ∃ activity : Activity Client.obliging, Activity.Served Behaviour.obliging
    [(.build none registrations, .error (.invalid issues))]
    ((Demand.build none registrations).afterwards Behaviour.obliging { state := {}, memory := () })
    activity := by
  have builds : (Demand.build none registrations).request.run.run Behaviour.obliging
      { state := {}, memory := () } = some (.error (.invalid issues),
        (Demand.build none registrations).afterwards Behaviour.obliging
          { state := {}, memory := () }) := rfl
  obtain ⟨activity, one, _⟩ := (Activity.Served.initial ()).next Behaviour.obliging_detached builds
    nofun
  exact ⟨activity, one⟩

end Hidden

/-- Of three conflicts only one is reported: another is hidden by the issue that its service has,
and the third by the first. -/
theorem hidden_conflicts_unreported : ∃ activity : Activity Client.obliging, activity.Reachable ∧
    activity.moment.Did ⟨0⟩ (.finished (.error (.invalid Hidden.issues))) ∧
      Reported [] Hidden.registrations Hidden.issues ∧
        .reserved (.of (.list (.list Hidden.sound))) ∉ Hidden.issues ∧
          .reserved (.of (.list Hidden.faulty)) ∉ Hidden.issues := by
  obtain ⟨activity, served⟩ := Hidden.served
  obtain ⟨_, _, answers⟩ := conflicts_reported_unless_hidden served.reachable (served.did 0 rfl).1
  rcases answers [] _ .root (served.did 0 rfl).2 with ⟨impossible, _⟩ |
    ⟨issues, reported, ⟨_, _, impossible⟩ | ⟨_, same⟩⟩
  · cases impossible
  · cases impossible
  · cases same
    exact ⟨activity, served.reachable, (served.did 0 rfl).2, reported, by decide, by decide⟩

end Provision
