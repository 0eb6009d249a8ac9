import Provision.Proofs.Closing.ClosersRunOnce
import Provision.Proofs.Closing.GuardedInstances

/-!
# What becomes of instances that have to be closed

Every instance with a closer that a constructor returned is either lost or its closer is handed to
its scope, once and for the instance itself or for what decorators made of it.  Instances are lost
only to a context that is found done right after the constructor, and to a decorator that fails or
refuses an argument before the closer is handed over.  Nothing ever closes an instance that is lost.

Main statement: `instances_closed_unless_lost`.
-/

namespace Provision

open Moment

variable {U : Client}

/-- Only closing hands a closer to a scope. -/
theorem Event.hands_of_not_close {event : Event U}
    (other : ∀ place closer, event.turn? ≠ some (.close place closer)) (scope : ScopeId) :
    event.hands scope = [] := by
  cases event with
  | performed operation answer =>
      cases operation with
      | attach place closer => exact absurd rfl (other place closer)
      | _ => rfl
  | _ => rfl

namespace Moment

/-- What decorators made of an instance. -/
inductive Decorated (moment : Moment U) (site : Site U) (origin : Content U) : Content U → Prop where
  | same : Decorated moment site origin origin
  | decorated {id : RequestId} {key : Key} {transform : U.Transform} {content decorated : Content U}
      {arguments : List (Argument U)} : Decorated moment site origin content →
        moment.Did id (.returned (.decorate site key transform content arguments)
          (.ok decorated)) →
          Decorated moment site origin decorated

/-- A request did something for a scope that it may have to bring to an end: it took over a closer,
got an instance from a constructor, or is the one to fill a cell. -/
def WorksIn (moment : Moment U) (id : RequestId) (scope : ScopeId) : Prop :=
  (∃ closer, moment.Took id scope closer) ∨
    (∃ site make arguments content, site.scope = scope ∧
      moment.Did id (.returned (.construct site make arguments) (.ok content))) ∨
    ∃ cell, moment.Entered id scope cell

variable {moment next : Moment U} {site : Site U}

theorem Decorated.mono {origin content : Content U} (decorated : moment.Decorated site origin content)
    (grows : moment.history <:+ next.history) : next.Decorated site origin content := by
  induction decorated with
  | same => exact .same
  | decorated _ did ih => exact .decorated ih (grows.mem did)

theorem WorksIn.mono {id : RequestId} {scope : ScopeId} (works : moment.WorksIn id scope)
    (grows : moment.history <:+ next.history) : next.WorksIn id scope := by
  rcases works with ⟨closer, took⟩ | ⟨site, make, arguments, content, isScope, did⟩ | ⟨cell, entered⟩
  · exact .inl ⟨closer, took.mono grows⟩
  · exact .inr (.inl ⟨site, make, arguments, content, isScope, grows.mem did⟩)
  · exact .inr (.inr ⟨cell, grows.mem entered⟩)

/-- Whoever has an instance, or had it before it was stored, got it by working in its scope. -/
theorem worksIn_of_pending (lawful : moment.Lawful fun _ _ => True) {holding : Holding U}
    (pending : holding ∈ moment.books.pending) :
    moment.WorksIn holding.request holding.site.scope := by
  induction lawful generalizing holding with
  | initial => cases pending
  | contexts contexts _ ih => exact ih pending
  | @records moment next entry _ recorded _ ih =>
      obtain ⟨request, event⟩ := entry
      rcases recorded.books_cases with ⟨_, books⟩ | ⟨turn, turns, books⟩ <;> rw [books] at pending
      · exact (ih pending).mono recorded.suffix
      have of := Event.turn?_of turns
      rcases Books.mem_pending_turn pending with
        ⟨before, was, site, _, _, same | ⟨rfl, recipe, key, rfl⟩⟩ | ⟨rfl, rfl, _⟩
      · rw [← same, ← site]
        exact (ih was).mono recorded.suffix
      · exact .inr (.inr ⟨_, recorded.did_iff.mpr (.inl ⟨rfl, of.symm⟩)⟩)
      · obtain ⟨_, make, arguments, of⟩ := of
        exact .inr (.inl ⟨_, make, arguments, _, rfl,
          recorded.did_iff.mpr (.inl ⟨rfl, of.symm⟩)⟩)

/-- Handing over a closer books it, if it is for an instance. -/
theorem closingAt_close {request : RequestId} {place : ScopeId}
    {closer : PendingCloser U} (may : moment.MayTurn request (.close place closer))
    (books : next.books = moment.books.turn request (.close place closer)) (scope : ScopeId) :
    (next.books.closingAt scope).map Prod.snd =
      (if place = scope then [closer] else []).filter (fun closer => closer.recipe.isFactory) ++
        (moment.books.closingAt scope).map Prod.snd := by
  have single : Holding.Single closer.recipe.isFactory ⟨place, closer.recipe⟩ closer.subject
    (moment.heldBy request) := may.2
  rw [books]
  change List.map _ (List.filter _ (List.map _ (moment.heldBy request) ++ _)) = _
  rw [List.filter_append, List.map_append]
  refine congrArg (· ++ _) ?_
  cases made : closer.recipe.isFactory with
  | false =>
      rw [made] at single
      rw [show moment.heldBy request = [] from single]
      split <;> simp [made]
  | true =>
      rw [made] at single
      obtain ⟨holding, only, site, _⟩ := single
      rw [only]
      by_cases here : place = scope <;> simp [here, made, site]

section Lawful

variable {conduct : Conduct U} (lawful : moment.Lawful conduct)
  (within : ∀ moment entry, conduct moment entry → Conduct.custody moment entry)

include lawful within

/-- What is about to be closed is its instance, decorated. -/
theorem Lawful.decorated_pending {holding : Holding U} (pending : holding ∈ moment.books.pending) :
    moment.Decorated holding.site holding.origin holding.current := by
  induction lawful generalizing holding with
  | initial => cases pending
  | @contexts moment contexts _ ih =>
      have still : moment.history <:+ (moment.withContexts contexts).history := List.suffix_refl _
      exact (ih pending).mono still
  | @records moment next entry _ recorded allowed ih =>
      obtain ⟨request, event⟩ := entry
      rcases recorded.books_cases with ⟨_, books⟩ | ⟨turn, turns, books⟩ <;> rw [books] at pending
      · exact (ih pending).mono recorded.suffix
      rcases Books.mem_pending_turn pending with
        ⟨before, was, site, origin, same | ⟨had, place, target, rfl⟩, _⟩ | ⟨_, _, same⟩
      · rw [← site, ← origin, ← same]
        exact (ih was).mono recorded.suffix
      · obtain ⟨rfl, rfl⟩ := (within _ _ allowed).1 _ turns before had
        obtain ⟨key, transform, arguments, of⟩ := Event.turn?_of turns
        rw [← site, ← origin]
        exact .decorated ((ih was).mono recorded.suffix)
          (recorded.did_iff.mpr (.inl ⟨rfl, of.symm⟩))
      · rw [same]
        exact .same

/-- An instance is lost to something that its request did to it. -/
theorem Lawful.lost {holding : Holding U} {cause : Event U}
    (lost : (holding, cause) ∈ moment.books.lost) :
    moment.Did holding.request cause ∧ cause.Breaks holding := by
  induction lawful with
  | initial => cases lost
  | contexts contexts _ ih => exact ih lost
  | @records moment next entry _ recorded allowed ih =>
      obtain ⟨request, event⟩ := entry
      have before : (holding, cause) ∈ moment.books.lost →
          next.Did holding.request cause ∧ cause.Breaks holding := fun was =>
        ⟨recorded.suffix.mem (ih was).1, (ih was).2⟩
      rcases recorded.books_cases with ⟨_, books⟩ | ⟨turn, turns, books⟩ <;> rw [books] at lost
      · exact before lost
      rcases Books.mem_lost_turn lost with was | ⟨rfl, isHad⟩
      · exact before was
      · obtain rfl : event = cause := Event.turn?_of turns
        obtain rfl := Books.request_of_mem_heldBy isHad
        exact ⟨recorded.did, (within _ _ allowed).1 _ turns holding isHad⟩

/-- The closer that is handed over is the one of the registration, for what became of its
instance. -/
theorem Lawful.handedOver {holding : Holding U} {closer : PendingCloser U}
    (closing : (holding, closer) ∈ moment.books.closing) :
    closer.recipe = holding.site.recipe ∧ closer.recipe.closer = some closer.close ∧
      moment.Decorated holding.site holding.origin closer.subject := by
  induction lawful with
  | initial => cases closing
  | @contexts moment contexts _ ih =>
      have still : moment.history <:+ (moment.withContexts contexts).history := List.suffix_refl _
      exact ⟨(ih closing).1, (ih closing).2.1, (ih closing).2.2.mono still⟩
  | @records moment next entry lawful recorded allowed ih =>
      obtain ⟨request, event⟩ := entry
      have before : (holding, closer) ∈ moment.books.closing →
          closer.recipe = holding.site.recipe ∧ closer.recipe.closer = some closer.close ∧
            next.Decorated holding.site holding.origin closer.subject := fun was =>
        ⟨(ih was).1, (ih was).2.1, (ih was).2.2.mono recorded.suffix⟩
      rcases recorded.books_cases with ⟨_, books⟩ | ⟨turn, turns, books⟩ <;> rw [books] at closing
      · exact before closing
      rcases Books.mem_closing_turn closing with was | ⟨scope, rfl, isHad⟩
      · exact before was
      · have pending := List.mem_append_left moment.books.stored (List.mem_filter.mp isHad).1
        have decorated := lawful.decorated_pending within pending
        obtain ⟨named, single⟩ := (within _ _ allowed).1 _ turns
        obtain ⟨factory, site, subject⟩ := Carries.of_mem single isHad
        rw [← subject]
        exact ⟨by rw [site], named factory, decorated.mono recorded.suffix⟩

/-- The closers of instances that were handed to a scope are those on the books. -/
theorem Lawful.handed_eq (scope : ScopeId) :
    (moment.handed scope).filter (fun closer => closer.recipe.isFactory) =
      (moment.books.closingAt scope).map Prod.snd := by
  induction lawful with
  | initial => rfl
  | contexts contexts _ ih => exact ih
  | @records moment next entry lawful recorded allowed ih =>
      obtain ⟨request, event⟩ := entry
      rw [recorded.handed, List.filter_append, ih]
      by_cases closes : ∃ place closer, event.turn? = some (.close place closer)
      · obtain ⟨place, closer, turns⟩ := closes
        obtain ⟨answer, rfl⟩ := Event.turn?_of turns
        have books := recorded.books.trans (Entry.keepBooks_of_turn turns _)
        exact (closingAt_close ((within _ _ allowed).1 _ turns) books scope).symm
      · have other : ∀ place closer, event.turn? ≠ some (.close place closer) :=
          fun place closer turns => closes ⟨place, closer, turns⟩
        have same : next.books.closing = moment.books.closing := by
          rcases recorded.books_cases with ⟨_, books⟩ | ⟨turn, turns, books⟩ <;> rw [books]
          exact Books.closing_turn_of_not_close fun place closer isClose =>
            other place closer (isClose ▸ turns)
        rw [Event.hands_of_not_close other scope, Books.closingAt, Books.closingAt, same]
        rfl

/-- Requests that have an instance, or had it before it was stored, go on. -/
theorem Lawful.unfinished
    (orderly : ∀ moment entry, conduct moment entry → Conduct.orderly moment entry)
    {holding : Holding U} (pending : holding ∈ moment.books.pending)
    (reply : Except Error (Reply U)) : ¬ moment.Did holding.request (.finished reply) := by
  induction lawful generalizing holding with
  | initial => cases pending
  | contexts contexts _ ih => exact ih pending
  | @records moment next entry lawful recorded allowed ih =>
      obtain ⟨request, event⟩ := entry
      intro ended
      rcases recorded.did_iff.mp ended with ⟨same, now⟩ | earlier
      · subst now
        rw [recorded.books, Entry.keepBooks_of_none rfl] at pending
        have free := (within _ _ allowed).2 reply rfl
        rcases List.mem_append.mp pending with held | stored
        · have mine : holding ∈ moment.heldBy request :=
            List.mem_filter.mpr ⟨held, decide_eq_true same⟩
          rw [free.held] at mine
          cases mine
        · exact free.unstored holding stored same
      · rcases recorded.books_cases with ⟨_, books⟩ | ⟨turn, turns, books⟩ <;> rw [books] at pending
        · exact ih pending earlier
        have goesOn : holding.request ≠ request := by
          rintro rfl
          have began := orderly _ _ allowed
          cases event with
          | started demand => cases turns
          | performed operation answer => exact began.2 reply earlier
          | called call => exact began.2 reply earlier
          | returned call answer => exact began.2 reply earlier
          | finished other => exact began.2 reply earlier
        rcases Books.mem_pending_turn pending with
          ⟨before, was, _, _, _, same | ⟨mine, _⟩⟩ | ⟨mine, _⟩
        · exact ih was (same ▸ earlier)
        · exact goesOn mine
        · exact goesOn mine

end Lawful

/-- How instances that have to be closed fare. -/
structure ClosesInstances (moment : Moment U) : Prop where
  /-- Every instance is in one place: with a request, stored, lost or handed over. -/
  accounted : moment.instances.Perm (moment.books.holdings.map Holding.made)
  /-- The closer that is handed over for an instance is the one of its registration, for the
  instance itself or for what decorators made of it. -/
  closes : ∀ holding closer, (holding, closer) ∈ moment.books.closing →
    closer.recipe = holding.site.recipe ∧ closer.recipe.closer = some closer.close ∧
      moment.Decorated holding.site holding.origin closer.subject
  /-- An instance is lost only if the context of its request is found done before any decorator, or
  a decorator of it fails or refuses an argument. -/
  lost : ∀ holding cause, (holding, cause) ∈ moment.books.lost →
    moment.Did holding.request cause ∧ cause.Breaks holding
  /-- No instance is closed twice, and no lost instance is closed. -/
  atMostOnce : ∀ scope, ((moment.ran scope).filter fun closer => closer.recipe.isFactory).Subperm
    ((moment.books.closingAt scope).map Prod.snd)
  /-- Once a scope is closed and whoever worked in it is done, every instance of the scope was
  closed, unless it is lost. -/
  settled : ∀ scope, (moment.state.scope scope).closed = true →
    (∀ id, moment.WorksIn id scope → ∃ reply, moment.Did id (.finished reply)) →
      (moment.instances.filter fun made => decide (made.1.scope = scope)).Perm
        (((moment.books.lostAt scope).map Prod.fst ++
          (moment.books.closingAt scope).map Prod.fst).map Holding.made) ∧
      ((moment.ran scope).filter fun closer => closer.recipe.isFactory).Perm
        ((moment.books.closingAt scope).map Prod.snd)

/-- Where nothing is pending, instances are lost or handed over. -/
theorem instances_at_perm {scope : ScopeId}
    (none : ∀ holding ∈ moment.books.pending, holding.site.scope ≠ scope) :
    (moment.instances.filter fun made => decide (made.1.scope = scope)).Perm
      (((moment.books.lostAt scope).map Prod.fst ++
        (moment.books.closingAt scope).map Prod.fst).map Holding.made) := by
  have gone : moment.books.pending.filter (fun holding => decide (holding.site.scope = scope)) =
      [] :=
    List.filter_eq_nil_iff.mpr fun holding pending here =>
      none holding pending (of_decide_eq_true here)
  have here := moment.instances_perm.filter fun made => decide (made.1.scope = scope)
  refine here.trans (List.Perm.of_eq ?_)
  change List.filter _ (List.map _ (moment.books.pending ++ _ ++ _)) = _
  rw [List.filter_map, List.filter_append, List.filter_append]
  change List.map _ (moment.books.pending.filter (fun holding =>
    decide (holding.site.scope = scope)) ++ _ ++ _) = _
  rw [gone, List.nil_append, List.filter_map, List.filter_map]
  rfl

/-- In lawful moments every instance with a closer is closed or accounted for. -/
theorem Lawful.closesInstances {conduct : Conduct U} (lawful : moment.Lawful conduct)
    (within : ∀ moment entry, conduct moment entry →
      (Conduct.orderly.and (Conduct.growing.and (Conduct.custody.and Conduct.paying)))
        moment entry) :
    moment.ClosesInstances where
  accounted := moment.instances_perm
  closes := fun _ _ => lawful.handedOver fun _ _ allowed => (within _ _ allowed).2.2.1
  lost := fun _ _ => lawful.lost fun _ _ allowed => (within _ _ allowed).2.2.1
  atMostOnce := by
    intro scope
    have once := (lawful.mono fun _ _ allowed =>
      have all := within _ _ allowed
      ⟨all.1, all.2.1, all.2.2.2⟩).closesOnce scope
    rw [← lawful.handed_eq (fun _ _ allowed => (within _ _ allowed).2.2.1) scope]
    exact once.atMostOnce.filter _
  settled := by
    intro scope closed done
    have once := (lawful.mono fun _ _ allowed =>
      have all := within _ _ allowed
      ⟨all.1, all.2.1, all.2.2.2⟩).closesOnce scope
    have ran := once.settled closed fun id closer took => done id (.inl ⟨closer, took⟩)
    refine ⟨instances_at_perm fun holding pending here => ?_, ?_⟩
    · have works := worksIn_of_pending (lawful.mono fun _ _ _ => trivial) pending
      obtain ⟨reply, ended⟩ := done holding.request (here ▸ works)
      exact lawful.unfinished (fun _ _ allowed => (within _ _ allowed).2.2.1)
        (fun _ _ allowed => (within _ _ allowed).1) pending reply ended
    · rw [← lawful.handed_eq (fun _ _ allowed => (within _ _ allowed).2.2.1) scope]
      exact ran.symm.filter _

end Moment

/-- In whatever order requests go, every instance that has to be closed is closed exactly once when
its scope is closed, unless it is lost. -/
theorem instances_closed_unless_lost {activity : Activity U} (reachable : activity.Reachable) :
    activity.moment.ClosesInstances := by
  have keeps : Conduct.Kept
      (Conduct.orderly.and (Conduct.growing.and (Conduct.keeping.and (Conduct.custody.and
        Conduct.paying))))
      ((@Conduct.growing U).and (Conduct.keeping.and (Conduct.custody.and Conduct.paying))) :=
    kept_growing.and ((kept_keeping fun _ _ all => ⟨all.1, all.2.1, all.2.2.1⟩).and
      ((kept_custody fun _ _ all => ⟨all.1, all.2.1, all.2.2.1, all.2.2.2.1⟩).and
        (kept_paying fun _ _ all => ⟨all.1, all.2.1⟩)))
  exact (reachable.lawful keeps).closesInstances fun _ _ all =>
    ⟨all.1, all.2.1, all.2.2.2⟩

/-- Decorators fail, and everything else goes as with an obliging client. -/
def Behaviour.spoiling : Behaviour Client.obliging Unit
  | .decorate _ _ _ _ _, world => some (.error (.text "spoiled"), world)
  | call, world => Behaviour.obliging call world

theorem Behaviour.spoiling_detached : Behaviour.spoiling.Detached := by
  intro call world answer after runs
  refine ⟨world.state.contexts, ?_⟩
  cases call <;> cases runs <;> rfl

namespace Spoiled

/-- The key of a service that a decorator spoils. -/
def spoiled : Key := .of (.concrete "sample" "A")

/-- The key of another service. -/
def sound : Key := .of (.concrete "sample" "B")

/-- Two services that have to be closed, and a decorator of the first. -/
def registrations : List (Registration Client.obliging) :=
  [.service ((Offer.factory spoiled.type () []).closeWith ()),
    .service ((Offer.factory sound.type () []).closeWith ()),
    .decorator { target := spoiled, params := [], transform := () }]

/-- The scope that keeps them. -/
def scope : Scope Client.obliging :=
  ((Builder.root ⟨1⟩).addAll registrations).scope

/-- The world once the scope is built. -/
def built : World Client.obliging Unit :=
  (Demand.build none registrations).afterwards Behaviour.spoiling { state := {}, memory := () }

/-- The world once the service is made that a decorator spoils. -/
def lost : World Client.obliging Unit :=
  (Demand.resolve scope ⟨0⟩ spoiled).afterwards Behaviour.spoiling built

/-- The world once the other service is made. -/
def made : World Client.obliging Unit :=
  (Demand.resolve scope ⟨0⟩ sound).afterwards Behaviour.spoiling lost

/-- What becomes of the request for the first service. -/
def failure : Error := .creationFailed spoiled (.text "spoiled")

/-- The other service. -/
def value : Value Client.obliging :=
  { type := sound.type, content := .object () }

/-- What happens when the scope is built, both services are resolved and the scope is closed. -/
def history : List (Entry Client.obliging) :=
  ((Demand.close scope ⟨0⟩).trace Behaviour.spoiling (.ok .nothing) made).map (Entry.mk ⟨3⟩) ++
    (((Demand.resolve scope ⟨0⟩ sound).trace Behaviour.spoiling (.ok (.resolved value)) lost).map
        (Entry.mk ⟨2⟩) ++
      (((Demand.resolve scope ⟨0⟩ spoiled).trace Behaviour.spoiling (.error failure) built).map
          (Entry.mk ⟨1⟩) ++
        (((Demand.build none registrations).trace Behaviour.spoiling (.ok (.built scope))
            { state := {}, memory := () }).map (Entry.mk ⟨0⟩) ++ [])))

/-- An instance was made and lost, and its scope was closed. -/
theorem served : ∃ activity : Activity Client.obliging, activity.Reachable ∧
    activity.moment.state = ((Demand.close scope ⟨0⟩).afterwards Behaviour.spoiling made).state ∧
      activity.moment.history = history := by
  have builds : (Demand.build none registrations).request.run.run Behaviour.spoiling
      { state := {}, memory := () } = some (.ok (.built scope), built) := rfl
  have spoils : (Demand.resolve scope ⟨0⟩ spoiled).request.run.run Behaviour.spoiling built =
      some (.error failure, lost) := rfl
  have makes : (Demand.resolve scope ⟨0⟩ sound).request.run.run Behaviour.spoiling lost =
      some (.ok (.resolved value), made) := rfl
  have closes : (Demand.close scope ⟨0⟩).request.run.run Behaviour.spoiling made =
      some (.ok .nothing, (Demand.close scope ⟨0⟩).afterwards Behaviour.spoiling made) := rfl
  have detached := Behaviour.spoiling_detached
  obtain ⟨_, first, one⟩ := (Activity.Served.initial ()).next detached builds nofun
  obtain ⟨_, second, two⟩ := first.nextOn detached spoils rfl List.mem_cons_self
  obtain ⟨_, third, three⟩ := second.nextOn detached makes rfl List.mem_cons_self
  obtain ⟨activity, fourth, four⟩ := third.nextOn detached closes rfl List.mem_cons_self
  refine ⟨activity, fourth.reachable, fourth.state, ?_⟩
  rw [four, three, two, one]
  rfl

end Spoiled

/-- Of two instances one was lost to a decorator that failed, and the other was closed with the
scope. -/
theorem spoiled_instance_lost : ∃ activity : Activity Client.obliging, activity.Reachable ∧
    (activity.moment.state.scope ⟨1⟩).closed = true ∧ activity.moment.instances.length = 2 ∧
      activity.moment.books.lost.length = 1 ∧ (activity.moment.ran ⟨1⟩).length = 1 ∧
        activity.moment.ClosesInstances := by
  obtain ⟨activity, reachable, state, history⟩ := Spoiled.served
  refine ⟨activity, reachable, ?_, ?_, ?_, ?_, instances_closed_unless_lost reachable⟩
  · rw [state]
    rfl
  · unfold Moment.instances
    rw [history]
    rfl
  · unfold Moment.books
    rw [history]
    rfl
  · unfold Moment.ran
    rw [history]
    rfl

end Provision
