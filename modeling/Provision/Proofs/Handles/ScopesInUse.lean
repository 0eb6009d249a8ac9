import Provision.Proofs.Handles.LentHandles
import Provision.Proofs.Execution.RequestTraces
import Provision.Proofs.Resolution.RequestReach

/-!
# Scopes in use

A request uses the scope that it was made of and the ancestors of that scope until it ends, and if
it was made through a handle, from when it has found the scope there.  A client that owns its scopes
makes requests only of scopes that are there, and lets go of a scope only when no request uses it
and no scope below it is there.

Main statement: `Lawful.kept_in_use`, that a scope which is used by a request is there.
-/

namespace Provision

open Moment

variable {U : Client}

/-- The handle that a demand is made through. -/
def Demand.handle? : Demand U → Option (Handle U)
  | .resolveThrough handle _ _ => some handle
  | .resolveTypedThrough handle _ _ => some handle
  | _ => none

/-- A demand that is made through a handle names its scope. -/
theorem Demand.scopes_of_handle {demand : Demand U} {handle : Handle U}
    (isHandle : demand.handle? = some handle) : demand.scopes = [handle.scope] := by
  cases demand <;> cases isHandle <;> rfl

namespace Moment

variable {moment next : Moment U}

/-- Somebody let go of a scope. -/
def LetGo (moment : Moment U) (scope : ScopeId) : Prop :=
  ∃ id pending, moment.Did id (.performed (.discard scope) pending)

/-- A request that was started with a demand is under way and uses a scope. -/
structure Uses (moment : Moment U) (id : RequestId) (demand : Demand U) (scope : Scope U) :
    Prop where
  began : moment.Did id (.started demand)
  unfinished : ∀ reply, ¬ moment.Did id (.finished reply)
  stays : ∀ gone, demand ≠ .discard gone
  reaches : demand.Reaches scope
  found : ∀ handle, demand.handle? = some handle →
    moment.Did id (.performed (.isDropped handle.scope.id) false)

theorem Uses.congr {id : RequestId} {demand : Demand U} {scope : Scope U}
    (uses : moment.Uses id demand scope) (same : next.history = moment.history) :
    next.Uses id demand scope where
  began := by rw [Did, same]; exact uses.began
  unfinished := fun reply ended => uses.unfinished reply (by rwa [Did, ← same])
  stays := uses.stays
  reaches := uses.reaches
  found := fun handle isHandle => by rw [Did, same]; exact uses.found handle isHandle

end Moment

/-- Requests are made of scopes that are there, unless through a handle, and a scope is let go of
only when nobody uses it and no scope below it is there. -/
def Conduct.owning : Conduct U := fun moment entry =>
  match entry.event with
  | .started demand => demand.handle? = none → ∀ scope, demand.Reaches scope →
      ¬ moment.LetGo scope.id
  | .performed (.discard gone) _ =>
      (∀ id demand, ∀ scope : Scope U, moment.Uses id demand scope → scope.id ≠ gone) ∧
        ∀ scope below : Scope U, moment.IsScope below → scope.Above below → scope.id = gone →
          below.id = gone ∨ moment.LetGo below.id
  | _ => True

/-- What a client may do about its scopes depends on what happened so far. -/
theorem Conduct.owning_congr {moment next : Moment U} {entry : Entry U}
    (same : next.history = moment.history) (owning : Conduct.owning moment entry) :
    Conduct.owning next entry := by
  obtain ⟨request, event⟩ := entry
  have letGo {scope : ScopeId} (gone : next.LetGo scope) : moment.LetGo scope := by
    obtain ⟨id, pending, did⟩ := gone
    exact ⟨id, pending, by rwa [Did, ← same]⟩
  cases event with
  | started demand =>
      exact fun direct scope reaches gone => owning direct scope reaches (letGo gone)
  | performed operation answer =>
      cases operation with
      | discard gone =>
          obtain ⟨unused, lowest⟩ := owning
          refine ⟨fun id demand scope uses => unused id demand scope (uses.congr same.symm), ?_⟩
          rintro scope below ⟨id, did⟩ above isGone
          refine (lowest scope below ⟨id, by rwa [Did, ← same]⟩ above isGone).imp_right ?_
          rintro ⟨other, pending, did⟩
          exact ⟨other, pending, by rwa [Did, same]⟩
      | _ => trivial
  | _ => trivial

namespace Moment

variable {moment next : Moment U}

/-- Scopes that are used are there, and so are those above scopes that are there. -/
structure Owned (moment : Moment U) : Prop where
  /-- A scope is gone just if somebody let go of it. -/
  dropped : ∀ scope, (moment.state.scope scope).dropped = true ↔ moment.LetGo scope
  /-- Nobody uses a scope that somebody let go of. -/
  used : ∀ id demand, ∀ scope : Scope U, moment.Uses id demand scope → ¬ moment.LetGo scope.id
  /-- Nobody let go of a scope above one that is there. -/
  above : ∀ scope below : Scope U, moment.IsScope below → scope.Above below →
    ¬ moment.LetGo below.id → ¬ moment.LetGo scope.id

/-- A scope was let go of before, or is just now. -/
theorem Records.letGo_iff {id : RequestId} {event : Event U}
    (recorded : moment.Records ⟨id, event⟩ next) (scope : ScopeId) :
    next.LetGo scope ↔
      moment.LetGo scope ∨ ∃ pending, event = .performed (.discard scope) pending := by
  constructor
  · rintro ⟨other, pending, did⟩
    rcases recorded.did_iff.mp did with ⟨_, now⟩ | before
    · exact .inr ⟨pending, now.symm⟩
    · exact .inl ⟨other, pending, before⟩
  · rintro (⟨other, pending, did⟩ | ⟨pending, rfl⟩)
    · exact ⟨other, pending, recorded.suffix.mem did⟩
    · exact ⟨id, pending, recorded.did⟩

/-- A scope above one that is built is that scope, or is used by the request that builds it. -/
theorem Uses.of_above {id : RequestId} {parent : Option (Scope U)}
    {registrations : List (Registration U)} {built scope : Scope U}
    (began : moment.Did id (.started (.build parent registrations)))
    (unfinished : ∀ reply, ¬ moment.Did id (.finished reply))
    (same : built = ((Builder.start built.id parent).addAll registrations).scope)
    (above : scope.Above built) :
    scope = built ∨ moment.Uses id (.build parent registrations) scope := by
  have isParent : ((Builder.start built.id parent).addAll registrations).parent = parent :=
    (Builder.addAll_parent ..).trans (Builder.start_parent ..)
  cases parent with
  | none =>
      obtain ⟨node, isRoot, _⟩ := Builder.scope_of_none isParent
      rw [same, isRoot] at above
      cases above
      exact .inl (same.trans isRoot).symm
  | some parent =>
      obtain ⟨node, isChild, _⟩ := Builder.scope_of_parent isParent
      rw [same, isChild] at above
      cases above with
      | refl => exact .inl (same.trans isChild).symm
      | child _ upper =>
          exact .inr ⟨began, unfinished, nofun, ⟨parent, List.mem_singleton_self parent, upper⟩,
            nofun⟩

namespace Owned

variable {id : RequestId} {event : Event U}

/-- After every event a scope is gone just if somebody let go of it. -/
theorem dropped_next (owned : moment.Owned) (recorded : moment.Records ⟨id, event⟩ next)
    (scope : ScopeId) : (next.state.scope scope).dropped = true ↔ next.LetGo scope := by
  rw [Event.Changes.dropped recorded.state, owned.dropped, recorded.letGo_iff]

/-- Whoever finds the scope of a handle there finds everything above it there. -/
theorem used_found (owned : moment.Owned)
    (lawful : moment.Lawful (Conduct.orderly.and Conduct.growing)) {demand : Demand U}
    {scope : Scope U} {handle : Handle U} (began : moment.Did id (.started demand))
    (reaches : demand.Reaches scope) (isHandle : demand.handle? = some handle)
    (finds : (Operation.isDropped handle.scope.id).perform moment.state =
      some (false, next.state)) : ¬ moment.LetGo scope.id := by
  obtain ⟨named, names, above⟩ := reaches
  have isNamed := (lawful.mono fun _ _ both => both.1).named began names
  rw [Demand.scopes_of_handle isHandle, List.mem_singleton] at names
  subst names
  refine owned.above scope handle.scope isNamed above fun gone => ?_
  have answer : (moment.state.scope handle.scope.id).dropped = false :=
    (Prod.mk.inj (Option.some.inj finds)).1
  exact Bool.false_ne_true (answer.symm.trans ((owned.dropped _).mpr gone))

/-- After every event the scopes that are used are there. -/
theorem used_next (owned : moment.Owned)
    (lawful : moment.Lawful (Conduct.orderly.and Conduct.growing))
    (recorded : moment.Records ⟨id, event⟩ next) (orderly : Conduct.orderly moment ⟨id, event⟩)
    (owning : Conduct.owning moment ⟨id, event⟩) {user : RequestId} {demand : Demand U}
    {scope : Scope U} (uses : next.Uses user demand scope) : ¬ next.LetGo scope.id := by
  intro gone
  have unfinished : ∀ reply, ¬ moment.Did user (.finished reply) := fun reply ended =>
    uses.unfinished reply (recorded.suffix.mem ended)
  -- The request uses the scope already, or it is the one that goes on.
  by_cases before : moment.Uses user demand scope
  · rcases (recorded.letGo_iff scope.id).mp gone with earlier | ⟨pending, rfl⟩
    · exact owned.used user demand scope before earlier
    · exact owning.1 user demand scope before rfl
  rcases recorded.did_iff.mp uses.began with ⟨rfl, rfl⟩ | began
  · obtain earlier := ((recorded.letGo_iff scope.id).mp gone).resolve_right nofun
    cases through : demand.handle? with
    | none => exact owning through scope uses.reaches earlier
    | some handle =>
        exact orderly.1 ⟨_, recorded.before (uses.found handle through) nofun, rfl⟩
  · have sought : ∃ handle, demand.handle? = some handle ∧
        ¬ moment.Did user (.performed (.isDropped handle.scope.id) false) := by
      by_contra all
      push Not at all
      exact before ⟨began, unfinished, uses.stays, uses.reaches, all⟩
    obtain ⟨handle, through, unseen⟩ := sought
    obtain ⟨rfl, rfl⟩ :=
      (recorded.did_iff.mp (uses.found handle through)).resolve_right unseen
    obtain earlier := ((recorded.letGo_iff scope.id).mp gone).resolve_right nofun
    exact owned.used_found lawful began uses.reaches through recorded.state earlier

/-- After every event the scopes above those that are there are there. -/
theorem above_next (owned : moment.Owned) (recorded : moment.Records ⟨id, event⟩ next)
    (orderly : Conduct.orderly moment ⟨id, event⟩) (growing : Conduct.growing moment ⟨id, event⟩)
    (owning : Conduct.owning moment ⟨id, event⟩) {scope below : Scope U}
    (isScope : next.IsScope below) (above : scope.Above below) (kept : ¬ next.LetGo below.id) :
    ¬ next.LetGo scope.id := by
  intro gone
  have keptBefore : ¬ moment.LetGo below.id := fun earlier =>
    kept ((recorded.letGo_iff _).mpr (.inl earlier))
  obtain ⟨builder, did⟩ := isScope
  rcases recorded.did_iff.mp did with ⟨rfl, rfl⟩ | before
  · obtain ⟨parent, registrations, began, _, same⟩ := growing
    have earlier := ((recorded.letGo_iff scope.id).mp gone).resolve_right nofun
    rcases Uses.of_above began orderly.2 same above with rfl | uses
    · exact keptBefore earlier
    · exact owned.used _ _ scope uses earlier
  · rcases (recorded.letGo_iff scope.id).mp gone with earlier | ⟨pending, rfl⟩
    · exact owned.above scope below ⟨builder, before⟩ above keptBefore earlier
    · rcases owning.2 scope below ⟨builder, before⟩ above rfl with same | earlier
      · rw [same] at kept
        exact kept gone
      · exact keptBefore earlier

end Owned

/-- As long as clients own their scopes, no scope that is in use is let go of. -/
theorem Lawful.owned (lawful : moment.Lawful (Conduct.orderly.and Conduct.growing))
    (owning : moment.Lawful Conduct.owning) : moment.Owned := by
  have allowed {entry : Entry U} {earlier : List (Entry U)}
      (done : entry :: earlier <:+ moment.history) :
      ∃ before : Moment U, before.history = earlier ∧ Conduct.owning before entry := by
    obtain ⟨before, _, same, allowed⟩ := owning.allowed_at done
    exact ⟨before, same, allowed⟩
  clear owning
  induction lawful with
  | initial =>
      refine ⟨fun scope => ⟨nofun, ?_⟩, ?_, ?_⟩
      · rintro ⟨_, _, impossible⟩
        cases impossible
      · rintro id demand scope uses
        cases uses.began
      · rintro scope below ⟨_, impossible⟩
        cases impossible
  | contexts contexts _ ih =>
      obtain ⟨dropped, used, above⟩ := ih allowed
      exact ⟨dropped, fun id demand scope uses => used id demand scope (uses.congr rfl), above⟩
  | @records moment next entry lawful recorded both ih =>
      obtain ⟨id, event⟩ := entry
      have owned := ih fun done => allowed (done.trans recorded.suffix)
      have ends : (⟨id, event⟩ : Entry U) :: moment.history <:+ next.history :=
        recorded.history ▸ List.suffix_refl _
      obtain ⟨before, same, owning⟩ := allowed ends
      have owning : Conduct.owning moment ⟨id, event⟩ := Conduct.owning_congr same.symm owning
      exact ⟨owned.dropped_next recorded,
        fun _ _ _ => owned.used_next lawful recorded both.1 owning,
        fun _ _ => owned.above_next recorded both.1 both.2 owning⟩

/-- As long as nobody lets go of a scope, clients own their scopes. -/
theorem Lawful.owning_of_kept (lawful : moment.Lawful Conduct.orderly)
    (kept : ∀ scope, ¬ moment.LetGo scope) : moment.Lawful Conduct.owning := by
  induction lawful with
  | initial => exact .initial
  | contexts contexts _ ih => exact .contexts contexts (ih kept)
  | @records moment next entry _ recorded _ ih =>
      obtain ⟨id, event⟩ := entry
      have keptBefore (scope : ScopeId) : ¬ moment.LetGo scope := fun gone =>
        kept scope ((recorded.letGo_iff scope).mpr (.inl gone))
      refine .records (ih keptBefore) recorded ?_
      cases event with
      | started demand => exact fun _ scope _ => keptBefore scope.id
      | performed operation answer =>
          cases operation with
          | discard gone => exact absurd ⟨id, answer, recorded.did⟩ (kept gone)
          | _ => trivial
      | _ => trivial

/-- A scope is let go of by a request that was started to do so. -/
theorem LetGo.asked (lawful : moment.Lawful Conduct.reaching) {scope : ScopeId}
    (gone : moment.LetGo scope) : ∃ id left, moment.Did id (.started (.discard left)) := by
  obtain ⟨id, pending, did⟩ := gone
  obtain ⟨before, _, suffix, reaching⟩ := lawful.allowed did
  obtain ⟨demand, began, reaches⟩ := reaching scope rfl
  cases reaches with
  | discarding _ => exact ⟨id, _, suffix.mem began⟩
  | resolving _ _ _ producing => exact producing.elim

/-- A scope that is used by a request is there. -/
theorem Lawful.kept_in_use (lawful : moment.Lawful (Conduct.orderly.and Conduct.growing))
    (owning : moment.Lawful Conduct.owning) {id : RequestId} {demand : Demand U} {scope : Scope U}
    (uses : moment.Uses id demand scope) : (moment.state.scope scope.id).dropped = false := by
  have owned := lawful.owned owning
  exact Bool.eq_false_iff.mpr fun dropped =>
    owned.used id demand scope uses ((owned.dropped scope.id).mp dropped)

end Moment

/-- Clients own their scopes if demands that let go of none are served one after another. -/
theorem Activity.Served.owning {σ : Type} {behaviour : Behaviour U σ} {world : World U σ}
    {served : List (Demand U × Except Error (Reply U))} {activity : Activity U}
    (isServed : activity.Served behaviour served world)
    (none : ∀ asked ∈ served, ∀ left, asked.1 ≠ .discard left) :
    activity.moment.Lawful Conduct.owning := by
  have lawful := isServed.reachable.lawful (kept_growing.and kept_reaching)
  refine (lawful.mono fun _ _ allowed => allowed.1).owning_of_kept fun scope gone => ?_
  obtain ⟨id, left, began⟩ := gone.asked (lawful.mono fun _ _ allowed => allowed.2.2)
  have inside := isServed.known ⟨_, began, rfl⟩
  have began' := (isServed.did id.index (List.getElem?_eq_getElem inside)).1
  have orderly := lawful.mono fun _ _ allowed => allowed.1
  exact none _ (List.getElem_mem inside) left (orderly.started_once began' began)

end Provision
