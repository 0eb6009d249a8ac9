import Provision.Proofs.Registries.BuildOutcomes
import Provision.Proofs.Closing.GuardedInstances
import Provision.Proofs.Resolution.RequestReach

/-!
# What scopes promise to close

A scope promises from the start to close the fixed values that it was built with, in the order of
their registration, whether or not anybody ever gets them.  As nobody has a scope before it is
built, all else comes after that: the closers of what constructors made for it, in the order in
which they are handed over.

Main statement: `Reachable.promised_in_order`.
-/

namespace Provision

open Moment

variable {U : Client}

/-! ## Fixed values -/

/-- The recipe of an accepted offer. -/
def Placement.recipe (placement : Placement U) : Recipe U :=
  placement.offer.recipe (.registration placement.scope placement.index)

/-- The closer of an accepted offer of a fixed value that is to be closed. -/
def Placement.valueCloser? (placement : Placement U) : Option (PendingCloser U) :=
  match placement.offer.origin, placement.offer.closer with
  | .value content, some close => some { recipe := placement.recipe, close, subject := content }
  | _, _ => none

/-- The closers of all fixed values among registrations that are to be closed, in the order of the
registrations. -/
def valueClosers (scope : ScopeId) (registrations : List (Registration U)) :
    List (PendingCloser U) :=
  (placements scope 0 registrations).filterMap Placement.valueCloser?

/-- A closer that is bound is that of its recipe. -/
theorem Recipe.closerFor?_eq_some {recipe : Recipe U} {subject : Value U}
    {closer : PendingCloser U} (isCloser : recipe.closerFor? subject = some closer) :
    closer.recipe = recipe ∧ recipe.closer.isSome = true := by
  unfold Recipe.closerFor? at isCloser
  cases closes : recipe.closer with
  | none =>
      rw [closes] at isCloser
      cases isCloser
  | some close =>
      simp only [closes, Option.ite_none_right_eq_some, Option.some.injEq] at isCloser
      exact ⟨isCloser.2 ▸ rfl, rfl⟩

namespace Builder

/-- The closer of a fixed value depends on its recipe only. -/
theorem valueCloser?_recipe (placement : Placement U) :
    valueCloser? placement.recipe = placement.valueCloser? := by
  unfold valueCloser? Placement.valueCloser? Placement.recipe Recipe.closerFor?
  cases origin : placement.offer.origin <;> cases closer : placement.offer.closer <;>
    simp [Offer.recipe, Offer.source, origin, closer]

/-- Accepting an offer promises the closer of its fixed value. -/
theorem closers_accept (builder : Builder U) (offer : Offer U) :
    (builder.accept offer).closers =
      builder.closers ++ (Placement.valueCloser? ⟨builder.id, builder.accepted, offer⟩).toList := by
  have frame := foldl_bindView_frame
    (offer.recipe (.registration builder.id builder.accepted)) offer.tag offer.views builder
  rw [← valueCloser?_recipe]
  exact congrArg (· ++ _) frame.2.2.2

/-- Nothing is wrong with the registrations by themselves if a builder finds nothing wrong. -/
theorem sound_of_addAll {registrations : List (Registration U)} {builder : Builder U}
    (accepted : (builder.addAll registrations).issues = []) :
    ∀ registration ∈ registrations, registration.issues = [] := by
  induction registrations generalizing builder with
  | nil => nofun
  | cons registration rest ih =>
      have later : ((builder.add registration).addAll rest).issues = [] := accepted
      have next : (builder.add registration).issues = [] :=
        List.prefix_nil.mp (later ▸ issues_addAll rest (builder.add registration))
      refine List.forall_mem_cons.mpr ⟨?_, ih later⟩
      by_contra unsound
      unfold add at next
      split at next
      · next none => exact unsound none
      · exact unsound (List.append_eq_nil_iff.mp next).2

/-- A builder that finds nothing wrong promises to close all fixed values, also those that are
overridden. -/
theorem closers_addAll {registrations : List (Registration U)} {builder : Builder U}
    (accepted : (builder.addAll registrations).issues = []) :
    (builder.addAll registrations).closers = builder.closers ++
      (placements builder.id builder.accepted registrations).filterMap Placement.valueCloser? := by
  induction registrations generalizing builder with
  | nil => exact (List.append_nil _).symm
  | cons registration rest ih =>
      have isSound := sound_of_addAll accepted registration List.mem_cons_self
      have still : ((builder.add registration).addAll rest).issues = [] := accepted
      have later := ih still
      have adds : builder.addAll (registration :: rest) =
          (builder.add registration).addAll rest := rfl
      rw [adds, later, add_id]
      cases registration with
      | service offer =>
          have accepts : builder.add (.service offer) = builder.accept offer := by
            unfold add
            rw [isSound]
          rw [accepts, closers_accept, accept_accepted, placements, List.filterMap_cons,
            List.append_assoc]
          cases Placement.valueCloser? ⟨builder.id, builder.accepted, offer⟩ <;> rfl
      | decorator decorator =>
          have decorates : builder.add (.decorator decorator) = { builder with
              registry := builder.registry.decorate decorator, ownsRegistry := true } := by
            unfold add
            rw [isSound]
          rw [decorates, placements]

end Builder

/-! ## What is handed over by requests for keys -/

/-- A request for keys hands over closers of what constructors make, and no others. -/
def Conduct.handing : Conduct U := fun moment entry =>
  ∀ scope closer answer, entry.event = .performed (.attach scope closer) answer →
    ∀ demand, moment.Did entry.request (.started demand) → demand.Resolves →
      closer.recipe.isFactory = true

/-- Handing over no closers but those of what constructors make. -/
def Event.HandsMade (event : Event U) : Prop :=
  ∀ scope closer answer, event = .performed (.attach scope closer) answer →
    closer.recipe.isFactory = true

/-- Events that serve hand over nothing that was not made. -/
theorem Event.Serving.handsMade {event : Event U} (serving : event.Serving) :
    event.HandsMade := by
  rintro scope closer answer rfl
  exact serving.elim

/-- To hand over what was made is allowed. -/
theorem Event.HandsMade.handing {event : Event U} (made : event.HandsMade) (moment : Moment U)
    (id : RequestId) : Conduct.handing moment ⟨id, event⟩ :=
  fun scope closer answer isAttach _ _ _ => made scope closer answer isAttach

/-- Making a value hands over only what was made. -/
theorem covers_handsMade {recipe : Recipe U} (home : ScopeId)
    (made : recipe.closer.isSome = true → recipe.isFactory = true) :
    Covers Event.HandsMade home recipe where
  serving := fun _ => Event.Serving.handsMade
  called := fun _ => nofun
  returned := fun _ _ => nofun
  handed := by
    rintro closer subject answer isCloser _ _ _ ⟨⟩
    obtain ⟨same, closes⟩ := Recipe.closerFor?_eq_some isCloser
    rw [same]
    exact made closes
  entered := fun _ _ => nofun
  settled := fun _ _ _ => nofun

section Kept

variable {rely : Conduct U} {id : RequestId}

/-- Requests for keys of scopes that were built make what they hand over closers of. -/
def handingMade {origin : Moment U}
    (lawful : origin.Lawful (Conduct.orderly.and Conduct.growing)) (rely : Conduct U)
    (id : RequestId) : Upkeep rely Conduct.handing id where
  holds := fun _ => True
  among := origin.IsScope
  yields := fun _ _ _ _ => True
  failed := fun _ _ _ _ _ => True
  stable := fun _ _ => trivial
  harmless := fun moment _ _ idle => idle.serving.handsMade.handing moment id
  ancestor := @IsScope.ancestor _ _ lawful
  lasts := fun _ _ => trivial
  plain := fun _ _ => trivial
  cycle := fun _ _ _ => trivial
  dependency := fun _ _ _ _ => trivial
  recalled := fun _ _ _ _ _ _ _ _ _ => .of_trivial
  convert := by
    intro start scope key binding content _ _ _ _ _ _
    refine ((only_convert binding scope.id key _).keeps ?_).mono ?_
    · exact fun moment _ _ _ serving => serving.handsMade.handing moment id
    · exact fun _ _ _ _ => .of_holds trivial
  produce := by
    intro start scope key binding home inputs context _ isScope finds _ _ _
    have proper := (isScope.homes lawful finds).proper
    have covers := covers_handsMade home.id (proper.isFactory finds.made)
    refine ((covers.only_produceFrom context key inputs).keeps ?_).mono ?_
    · exact fun moment _ _ _ made => made.handing moment id
    · exact fun _ _ _ _ => .of_holds trivial

/-- All requests keep to that. -/
theorem kept_handing
    (within : ∀ moment entry, rely moment entry →
      (Conduct.orderly.and Conduct.growing) moment entry) :
    Conduct.Kept rely Conduct.handing where
  started := fun _ _ _ _ _ => nofun
  follows := by
    intro moment id demand after lawful orderly recorded
    have began : after.Did id (.started demand) := recorded.did
    have ends (reply : Except Error (Reply U)) (last : Moment U) :
        Conduct.handing last ⟨id, .finished reply⟩ := nofun
    by_cases resolves : demand.Resolves
    · obtain ⟨origin, named⟩ := (lawful.mono within).starts orderly recorded
      exact ((handingMade origin rely id).asking resolves named trivial).mono
        fun reply last _ _ => ends reply last
    · refine (Program.keeps_any demand.request.run ?_).mono fun reply last _ _ => ends reply last
      intro later event grown lawful' scope closer answer _ other began' resolves'
      have orderly := lawful'.mono fun _ _ allowed => (within _ _ allowed).1
      exact absurd (orderly.started_once began' (grown.mem began) ▸ resolves') resolves

end Kept

/-! ## The order of what is promised -/

namespace Event

/-- An event promises one closer at most, so their order is no matter. -/
theorem promises_reverse (event : Event U) (scope : ScopeId) :
    (event.promises scope).reverse = event.promises scope := by
  unfold Event.promises
  split
  · split <;> rfl
  · rfl

/-- A closer is promised by the event that attaches it. -/
theorem eq_of_promises {event : Event U} {scope : ScopeId} {closer : PendingCloser U}
    (promises : closer ∈ event.promises scope) :
    event = .performed (.attach scope closer) true := by
  unfold Event.promises at promises
  split at promises
  · simp only [List.mem_ite_nil_right, List.mem_singleton] at promises
    obtain ⟨rfl, rfl⟩ := promises
    rfl
  · cases promises

/-- What is handed over is promised unless it is refused. -/
theorem promises_eq_hands {event : Event U} {scope : ScopeId}
    (taken : ∀ closer, event ≠ .performed (.attach scope closer) false) :
    event.promises scope = event.hands scope := by
  cases event with
  | performed operation answer =>
      cases operation with
      | attach other closer =>
          cases answer with
          | true => rfl
          | false =>
              have differs : other ≠ scope := by
                rintro rfl
                exact taken closer rfl
              exact (if_neg differs).symm
      | _ => rfl
  | _ => rfl

end Event

namespace Moment

/-- The closers that a scope promised to run for other requests than the one that built it, in the
order in which they were handed over. -/
def promisedSince (moment : Moment U) (builder : RequestId) (scope : ScopeId) :
    List (PendingCloser U) :=
  moment.history.reverse.flatMap fun entry =>
    if entry.request = builder then [] else entry.event.promises scope

variable {moment : Moment U} {builder : RequestId} {scope : ScopeId}

section Lawful

variable (lawful : moment.Lawful (Conduct.orderly.and (Conduct.growing.and Conduct.reaching)))

include lawful

/-- As long as a scope is being built, no other request reaches it. -/
theorem Lawful.unreached (numbered : moment.Did builder (.performed .newScope scope))
    (unfinished : ∀ reply, ¬ moment.Did builder (.finished reply)) {id : RequestId}
    {event : Event U} (did : moment.Did id event) (reaches : event.target? = some scope) :
    id = builder := by
  obtain ⟨before, lawful', grows, _, _, reaching⟩ := lawful.allowed did
  have grown := lawful'.mono fun _ _ all => (⟨all.1, all.2.1⟩ :
    (Conduct.orderly.and Conduct.growing) _ _)
  have orderly := grown.mono fun _ _ both => both.1
  -- the scope is not among those that were built
  have unbuilt {built : Scope U} (isScope : before.IsScope built) : built.id ≠ scope := by
    intro same
    obtain ⟨maker, ended, given⟩ := (isScope.grown grown).numbered
    rw [same] at given
    obtain rfl := lawful.numbered.2 maker builder scope (grows.mem given) numbered
    exact unfinished _ (grows.mem ended)
  obtain ⟨demand, began, reached⟩ := reaching scope reaches
  cases reached with
  | resolving _ names upward _ =>
      obtain ⟨found, finds⟩ := Scope.ancestor?_isSome_of_mem upward
      exact absurd (Scope.ancestor?_some finds).1
        (unbuilt ((orderly.named began names).ancestor grown finds))
  | building given => exact lawful.numbered.2 id builder scope (grows.mem given) numbered
  | closing named => exact absurd named.symm (unbuilt (orderly.named began List.mem_cons_self))
  | discarding named => exact absurd named.symm (unbuilt (orderly.named began List.mem_cons_self))

/-- A scope promises what its builder hands over before all else. -/
theorem Lawful.promised_builder_first
    (builds : ∀ demand, moment.Did builder (.started demand) → ¬ demand.Resolves) :
    (moment.promised scope).reverse =
      (moment.doings builder).flatMap (Event.promises scope) ++
        moment.promisedSince builder scope := by
  induction lawful with
  | initial => rfl
  | contexts contexts _ ih => exact ih builds
  | @records moment next entry lawful recorded allowed ih =>
      obtain ⟨id, event⟩ := entry
      have before := ih fun demand began => builds demand (recorded.suffix.mem began)
      have since : next.promisedSince builder scope = moment.promisedSince builder scope ++
          if id = builder then [] else event.promises scope := by
        simp [promisedSince, recorded.history]
      rw [recorded.promised, List.reverse_append, before, since]
      by_cases mine : id = builder
      · subst mine
        rw [recorded.doings_self, List.flatMap_append, List.flatMap_singleton, if_pos rfl,
          List.append_nil, Event.promises_reverse, List.append_assoc, List.append_assoc]
        refine congrArg _ ?_
        by_cases promises : event.promises scope = []
        · rw [promises, List.append_nil, List.nil_append]
        -- the builder goes on, so nobody else has handed over anything
        obtain ⟨closer, member⟩ := List.exists_mem_of_ne_nil _ promises
        obtain rfl := Event.eq_of_promises member
        have numbered : moment.Did id (.performed .newScope scope) := by
          obtain ⟨demand, began, reached⟩ := allowed.2.2 scope rfl
          cases reached with
          | resolving resolves _ _ _ =>
              exact absurd resolves (builds demand (recorded.suffix.mem began))
          | building given => exact given
        have nothing : moment.promisedSince id scope = [] := by
          refine List.flatMap_eq_nil_iff.mpr fun entry member => ?_
          obtain ⟨other, event⟩ := entry
          have did : moment.Did other event := List.mem_reverse.mp member
          by_cases same : other = id
          · exact if_pos same
          · refine (if_neg same).trans (List.eq_nil_iff_forall_not_mem.mpr ?_)
            intro closer promises
            obtain rfl := Event.eq_of_promises promises
            exact same (lawful.unreached numbered allowed.1.2 did rfl)
        rw [nothing, List.nil_append, List.append_nil]
      · rw [recorded.doings_of_ne mine, if_neg mine, Event.promises_reverse, List.append_assoc]

end Lawful

end Moment

/-! ## What is promised -/

namespace Activity.Reachable

variable {activity : Activity U} {node : Scope U} (reachable : activity.Reachable)

include reachable

/-- In a reachable activity closers are handed over as they may be. -/
theorem lawful_handing : activity.moment.Lawful
    (Conduct.orderly.and (Conduct.growing.and (Conduct.reaching.and Conduct.handing))) :=
  reachable.lawful (kept_growing.and (kept_reaching.and
    (kept_handing fun _ _ all => ⟨all.1, all.2.1⟩)))

/-- What the builder of a scope promised. -/
theorem promised_by_builder {builder : RequestId} {parent : Option (Scope U)}
    {registrations : List (Registration U)}
    (began : activity.moment.Did builder (.started (.build parent registrations)))
    (ended : activity.moment.Did builder (.finished (.ok (.built node)))) :
    (activity.moment.doings builder).flatMap (Event.promises node.id) =
      valueClosers node.id registrations := by
  obtain ⟨events, outcome, doings, builds, same⟩ := reachable.build_does began ended
  cases outcome with
  | error error => cases same
  | ok built =>
  cases same
  have accepted : (activity.moment.doings builder).flatMap (Event.promises node.id) =
      (activity.moment.doings builder).flatMap (Event.hands node.id) := by
    refine List.flatMap_congr fun event member => Event.promises_eq_hands fun closer isRefused => ?_
    subst isRefused
    obtain ⟨_, impossible, _⟩ := reachable.lawful_paying.refusal (mem_doings.mp member) ended
    cases impossible
  obtain ⟨scope, reports, rest, rfl, idle, builds⟩ := does_buildScope builds
  rcases Builder.does_build builds with ⟨impossible, _⟩ | ⟨sound, same, handed⟩ | ⟨_, impossible⟩
  · cases impossible
  · cases same
    rw [Builder.addAll_id, Builder.start_id] at handed
    rw [Builder.scope_id, Builder.addAll_id, Builder.start_id] at accepted ⊢
    rw [accepted, doings]
    have silent := hands_of_idle scope idle
    simp only [List.cons_append, List.flatMap_cons, List.flatMap_append, List.flatMap_nil,
      Event.hands, List.nil_append, List.append_nil, silent, handed]
    rw [Builder.closers_addAll sound, Builder.start_id]
    cases parent <;> rfl
  · cases impossible

/-- A scope promises to close its fixed values, in the order of their registration, and then what
constructors made for it, in the order in which it was handed over. -/
theorem promised_in_order (isScope : activity.moment.IsScope node) :
    ∃ builder parent registrations,
      activity.moment.Did builder (.started (.build parent registrations)) ∧
        activity.moment.Did builder (.finished (.ok (.built node))) ∧
          (activity.moment.promised node.id).reverse = valueClosers node.id registrations ++
            activity.moment.promisedSince builder node.id ∧
              ∀ closer ∈ activity.moment.promisedSince builder node.id,
                closer.recipe.isFactory = true := by
  have lawful := reachable.lawful_handing
  have orderly := lawful.mono fun _ _ all => all.1
  obtain ⟨builder, ended⟩ := isScope
  obtain ⟨before, _, grows, _, ⟨parent, registrations, began, numbered, _⟩, _⟩ :=
    lawful.allowed ended
  have began := grows.mem began
  have numbered := grows.mem numbered
  refine ⟨builder, parent, registrations, began, ended, ?_, fun closer member => ?_⟩
  · rw [← reachable.promised_by_builder began ended]
    refine (lawful.mono fun _ _ all => ?_).promised_builder_first fun demand began' => ?_
    · exact ⟨all.1, all.2.1, all.2.2.1⟩
    · rw [orderly.started_once began' began]
      exact id
  · obtain ⟨⟨other, event⟩, did, promises⟩ := List.mem_flatMap.mp member
    have did : activity.moment.Did other event := List.mem_reverse.mp did
    by_cases same : other = builder
    · rw [if_pos same] at promises
      cases promises
    rw [if_neg same] at promises
    obtain rfl := Event.eq_of_promises promises
    obtain ⟨earlier, _, grows, _, _, reaching, handing⟩ := lawful.allowed did
    obtain ⟨demand, began', reached⟩ := reaching node.id rfl
    cases reached with
    | resolving resolves _ _ _ => exact handing node.id closer true rfl demand began' resolves
    | building given =>
        exact absurd (lawful.numbered.2 other builder node.id (grows.mem given) numbered) same

end Activity.Reachable

end Provision
