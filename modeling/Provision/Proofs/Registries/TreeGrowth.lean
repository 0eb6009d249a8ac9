import Provision.Proofs.Execution.InterleavedActivity
import Provision.Proofs.Resolution.DemandPrograms

/-!
# Growth of the tree of scopes

Every scope of an activity comes from a request to build it: it is what the builder makes of the
registrations that were asked for, under a number that no other scope gets.  Only scopes that were
built are closed.

Main statements: `IsScope.built`, and `IsScope.eq_of_id` that a scope is known by its identity.
-/

namespace Provision

open Moment

variable {U : Client}

/-! ## The conduct -/

/-- A built scope is what the builder makes of the registrations under a new identity, and only
built scopes are closed. -/
def Conduct.growing : Conduct U := fun moment entry =>
  match entry.event with
  | .finished (.ok (.built scope)) => ∃ parent registrations,
      moment.Did entry.request (.started (.build parent registrations)) ∧
        moment.Did entry.request (.performed .newScope scope.id) ∧
          scope = ((Builder.start scope.id parent).addAll registrations).scope
  | .performed (.shut id) _ => ∃ scope, moment.IsScope scope ∧ scope.id = id
  | _ => True

/-- Making values and keeping them. -/
def Event.Producing : Event U → Prop
  | .performed (.enter _ _) _ => True
  | .performed (.settle _ _ _) _ => True
  | event => event.Making

/-- Events that make values produce nothing but values. -/
theorem Event.Making.producing {event : Event U} (making : event.Making) : event.Producing := by
  cases event with
  | performed operation answer => cases operation <;> first | exact trivial | exact making.elim
  | called call => trivial
  | returned call answer => trivial
  | started demand => exact making.elim
  | finished reply => exact making.elim

/-- Producing values does not let the tree grow. -/
theorem Conduct.growing_of_producing {moment : Moment U} {id : RequestId} {event : Event U}
    (producing : event.Producing) : Conduct.growing moment ⟨id, event⟩ := by
  cases event with
  | performed operation answer => cases operation <;> first | exact trivial | exact producing.elim
  | called call => trivial
  | returned call answer => trivial
  | started demand => exact producing.elim
  | finished reply => exact producing.elim

/-- Making values does not let the tree grow. -/
theorem Conduct.growing_of_making {moment : Moment U} {id : RequestId} {event : Event U}
    (making : event.Making) : Conduct.growing moment ⟨id, event⟩ :=
  growing_of_producing making.producing

/-! ## What requests do -/

/-- Making and keeping a value only produces. -/
theorem only_produceFrom (home : Scope U) (context : ContextId) (key : Key) (binding : Binding U)
    (inputs : Inputs U) :
    Request.Only Event.Producing (fun _ => True)
      (produceFrom home context key binding inputs) := by
  have makes := (only_construct home.id context binding.recipe inputs.arguments inputs.flag
    binding.cast.isSome).mono (fun _ => Event.Making.producing) fun _ makes => makes
  refine Request.only_bind (only_keepIf makes (fun _ _ => trivial) fun _ _ _ => trivial)
    (fun _ _ => trivial) fun made _ => ?_
  have finishes := (only_finish home.id context key binding inputs.stages made).mono
    (fun _ => Event.Making.producing) fun _ makes => makes
  exact only_keepIf finishes (fun _ _ => trivial) fun _ _ _ => trivial

section Kept

variable {rely : Conduct U} {id : RequestId} {start : Moment U}

/-- Requests for keys need nothing to grow no scopes. -/
def growth (rely : Conduct U) (id : RequestId) : Upkeep rely Conduct.growing id where
  holds := fun _ => True
  among := fun _ => True
  yields := fun _ _ _ _ => True
  failed := fun _ _ _ _ _ => True
  stable := fun _ _ => trivial
  harmless := fun _ _ _ idle => Conduct.growing_of_making idle.making
  ancestor := fun _ _ => trivial
  lasts := fun _ _ => trivial
  plain := fun _ _ => trivial
  cycle := fun _ _ _ => trivial
  dependency := fun _ _ _ _ => trivial
  recalled := fun _ _ _ _ _ _ _ _ _ => .of_trivial
  convert := by
    intro start scope key binding content _ _ _ _ _ _
    refine ((only_convert binding scope.id key _).keeps ?_).mono ?_
    · exact fun _ _ _ _ serving => Conduct.growing_of_making serving.making
    · exact fun _ _ _ _ => .of_holds trivial
  produce := by
    intro start scope key binding home inputs context _ _ _ _ _ _
    refine ((only_produceFrom home context key binding inputs).keeps ?_).mono ?_
    · exact fun _ _ _ _ producing => Conduct.growing_of_producing producing
    · exact fun _ _ _ _ => .of_holds trivial

/-- Requests for keys under another conduct, to which making values and keeping them keeps. -/
def resolving {guar : Conduct U} (rely : Conduct U) (id : RequestId)
    (making : ∀ {moment event}, event.Making → guar moment ⟨id, event⟩)
    (produces : ∀ (start : Moment U) (home : Scope U) (context : ContextId) (key : Key)
      (binding : Binding U) (inputs : Inputs U),
        Request.Keeps rely guar id (fun _ _ => True) (produceFrom home context key binding inputs)
          start) : Upkeep rely guar id where
  holds := (growth rely id).holds
  among := (growth rely id).among
  yields := (growth rely id).yields
  failed := (growth rely id).failed
  stable := (growth rely id).stable
  harmless := fun _ _ _ idle => making idle.making
  ancestor := (growth rely id).ancestor
  lasts := (growth rely id).lasts
  plain := (growth rely id).plain
  cycle := (growth rely id).cycle
  dependency := (growth rely id).dependency
  recalled := (growth rely id).recalled
  convert := by
    intro start scope key binding content _ _ _ _ _ _
    refine ((only_convert binding scope.id key _).keeps ?_).mono ?_
    · exact fun _ _ _ _ serving => making serving.making
    · exact fun _ _ _ _ => .of_holds trivial
  produce := by
    intro start scope key binding home inputs context _ _ _ _ _ _
    exact (produces start home context key binding inputs).mono fun _ _ _ _ => .of_holds trivial

/-- A scope that is built is what the builder makes under the number it was given. -/
theorem Builder.keeps_buildScope (parent : Option (Scope U))
    (registrations : List (Registration U)) :
    Request.Keeps rely Conduct.growing id
      (Ends (fun scope moment => moment.Did id (.performed .newScope scope.id) ∧
          scope = ((Builder.start scope.id parent).addAll registrations).scope)
        fun _ _ => True)
      (buildScope parent registrations) start := by
  refine Request.keeps_bind_lift (keeps_newBuilder parent fun _ _ => trivial) ?_
  rintro _ moment _ ⟨_, scope, rfl, given⟩
  have registers := (only_register registrations (Builder.start scope parent)).mono
    (fun _ => Event.Idle.making) fun _ same => same
  refine Request.keeps_bind_lift (registers.keeps fun _ _ _ _ => Conduct.growing_of_making) ?_
  rintro _ moment' _ ⟨rfl, passage⟩
  refine ((only_build _).keeps fun _ _ _ _ promises => Conduct.growing_of_making
    (promises.founding fun _ => fixed_closers).attending.making).mono ?_
  rintro (error | built) last _ ⟨isBuilt, passage'⟩
  · trivial
  · obtain ⟨_, same⟩ := isBuilt built rfl
    have named : built.id = scope := by
      rw [same, Builder.scope_id, Builder.addAll_id, Builder.start_id]
    rw [← named] at given same
    exact ⟨passage'.suffix.mem (passage.suffix.mem given), same⟩

/-- Closing a scope does not let the tree grow. -/
theorem keeps_close {scope : Scope U} (context : ContextId) (isScope : start.IsScope scope) :
    Request.Keeps rely Conduct.growing id (fun _ _ => True) (scope.close context) start := by
  refine ((only_close scope context).keeps ?_).mono fun _ _ _ _ => trivial
  rintro moment event passage _ (disposing | ⟨answer, rfl⟩)
  · exact Conduct.growing_of_making disposing.attending.making
  · exact ⟨scope, isScope.imp fun _ built => passage.suffix.mem built, rfl⟩

/-- Letting go of a scope does not let the tree grow. -/
theorem keeps_discard (scope : Scope U) :
    scope.discard.Keeps rely Conduct.growing id (fun _ _ => True) start := by
  refine ((only_discard scope).keeps ?_).mono fun _ _ _ _ => trivial
  rintro moment event _ _ (idle | ⟨answer, rfl⟩)
  · exact Conduct.growing_of_making idle.making
  · trivial

/-- All requests grow the tree of scopes as they should, whatever others do. -/
theorem kept_growing : Conduct.Kept rely Conduct.growing where
  started := fun _ _ _ _ _ => trivial
  follows := by
    intro moment id demand after _ orderly recorded
    have named : ∀ scope ∈ demand.scopes, after.IsScope scope := fun scope member =>
      (orderly.2 scope member).imp fun _ built => recorded.suffix.mem built
    have asks : demand.Resolves → Request.Keeps rely Conduct.growing id
        (fun reply last => Conduct.growing last ⟨id, .finished reply⟩) demand.request after := by
      intro resolves
      refine ((growth rely id).asking resolves (fun _ _ => trivial) trivial).mono ?_
      rintro (error | reply) last _ ends
      · trivial
      · obtain ⟨_, ⟨_, rfl, _⟩ | ⟨_, rfl⟩⟩ := ends
        · trivial
        · trivial
    cases demand with
    | build parent registrations =>
        refine Request.keeps_bind (Builder.keeps_buildScope parent registrations).grows ?_ ?_
        · exact fun _ _ _ _ => trivial
        · rintro scope moment _ ⟨grown, given, built⟩
          refine Request.keeps_pure fun later passage _ => ?_
          have began : later.Did id (.started (.build parent registrations)) :=
            passage.suffix.mem (grown.mem recorded.did)
          exact ⟨parent, registrations, began, passage.suffix.mem given, built⟩
    | close scope context =>
        refine Request.keeps_bind
          (keeps_close context (named scope (List.mem_singleton_self _))) ?_ ?_
        · exact fun _ _ _ _ => trivial
        · exact fun _ _ _ _ => Request.keeps_pure fun _ _ _ => trivial
    | discard scope =>
        refine Request.keeps_bind_lift (keeps_discard scope) ?_
        exact fun _ _ _ _ => Request.keeps_pure fun _ _ _ => trivial
    | resolve _ _ _ => exact asks trivial
    | resolveTyped _ _ _ => exact asks trivial
    | resolveThrough _ _ _ => exact asks trivial
    | resolveTypedThrough _ _ _ => exact asks trivial
    | invoke _ _ _ _ => exact asks trivial

end Kept

/-! ## Requests that resolve -/

/-- All requests keep to a conduct if those that resolve do, and if the conduct allows what the
others do and how they end. -/
theorem Conduct.Kept.ofResolving {rely guar : Conduct U}
    (starts : ∀ moment id demand, guar moment ⟨id, .started demand⟩)
    (tends : ∀ {moment id event}, event.Tending → guar moment ⟨id, event⟩)
    (ends : ∀ moment id demand reply, moment.Did id (.started demand) → ¬ demand.Resolves →
      guar moment ⟨id, .finished reply⟩)
    (asks : ∀ moment id demand after, moment.Lawful rely →
      Conduct.orderly moment ⟨id, .started demand⟩ → moment.Records ⟨id, .started demand⟩ after →
        demand.Resolves → Request.Keeps rely guar id
          (fun reply last => guar last ⟨id, .finished reply⟩) demand.request after) :
    Conduct.Kept rely guar where
  started := fun moment id demand _ _ => starts moment id demand
  follows := by
    intro moment id demand after lawful orderly recorded
    by_cases resolves : demand.Resolves
    · exact asks moment id demand after lawful orderly recorded resolves
    · refine ((Demand.only_tending resolves).keeps fun _ _ _ _ => tends).mono ?_
      rintro reply last _ ⟨_, passage⟩
      exact ends last id demand reply (passage.suffix.mem recorded.did) resolves

/-! ## The tree of scopes -/

namespace Moment

variable {conduct : Conduct U} {moment next : Moment U}

theorem IsScope.mono {scope : Scope U} (isScope : moment.IsScope scope)
    (grows : moment.history <:+ next.history) : next.IsScope scope :=
  isScope.imp fun _ built => grows.mem built

/-- When a request starts, the scopes that its demand names have been built. -/
theorem Lawful.starts {id : RequestId} {demand : Demand U}
    (lawful : moment.Lawful (Conduct.orderly.and Conduct.growing))
    (orderly : Conduct.orderly moment ⟨id, .started demand⟩)
    (recorded : moment.Records ⟨id, .started demand⟩ next) :
    next.Lawful (Conduct.orderly.and Conduct.growing) ∧
      ∀ scope ∈ demand.scopes, next.IsScope scope :=
  ⟨.records lawful recorded ⟨orderly, trivial⟩,
    fun scope member => (orderly.2 scope member).mono recorded.suffix⟩

/-- The number of a new scope is below the next, and given once. -/
theorem Lawful.numbered (lawful : moment.Lawful conduct) :
    (∀ id scope, moment.Did id (.performed .newScope scope) →
        scope.number < moment.state.nextScope) ∧
      ∀ id other scope, moment.Did id (.performed .newScope scope) →
        moment.Did other (.performed .newScope scope) → id = other := by
  induction lawful with
  | initial => exact ⟨nofun, nofun⟩
  | contexts contexts _ ih => exact ih
  | @records moment next entry _ recorded _ ih =>
      obtain ⟨below, once⟩ := ih
      obtain ⟨request, event⟩ := entry
      rcases recorded.state.nextScope with ⟨isNew, counted⟩ | ⟨same, notNew⟩
      · refine ⟨?_, ?_⟩
        · intro id scope did
          rw [counted]
          rcases recorded.did_iff.mp did with ⟨_, now⟩ | before
          · rw [show event = _ from isNew] at now
            cases now
            exact Nat.lt_succ_self _
          · exact Nat.lt_succ_of_lt (below id scope before)
        · have fresh : ∀ id scope, moment.Did id (.performed .newScope scope) →
              event ≠ .performed .newScope scope := by
            intro id scope before now
            rw [show event = _ from isNew] at now
            cases now
            exact Nat.lt_irrefl _ (below id _ before)
          intro id other scope did did'
          rcases recorded.did_iff.mp did with ⟨rfl, now⟩ | before
          · rcases recorded.did_iff.mp did' with ⟨rfl, _⟩ | before'
            · rfl
            · exact absurd now.symm (fresh other scope before')
          · rcases recorded.did_iff.mp did' with ⟨_, now⟩ | before'
            · exact absurd now.symm (fresh id scope before)
            · exact once id other scope before before'
      · have earlier : ∀ id scope, next.Did id (.performed .newScope scope) →
            moment.Did id (.performed .newScope scope) := by
          intro id scope did
          rcases recorded.did_iff.mp did with ⟨_, now⟩ | before
          · exact absurd now.symm (notNew scope)
          · exact before
        refine ⟨fun id scope did => ?_, fun id other scope did did' => ?_⟩
        · rw [same]
          exact below id scope (earlier id scope did)
        · exact once id other scope (earlier id scope did) (earlier other scope did')

section Orderly

variable (lawful : moment.Lawful Conduct.orderly)

include lawful

/-- A request ends once. -/
theorem Lawful.finished_once {id : RequestId} {reply other : Except Error (Reply U)}
    (ended : moment.Did id (.finished reply)) (ended' : moment.Did id (.finished other)) :
    reply = other := by
  induction lawful with
  | initial => cases ended
  | contexts contexts _ ih => exact ih ended ended'
  | @records moment next entry _ recorded orderly ih =>
      obtain ⟨request, event⟩ := entry
      rcases recorded.did_iff.mp ended with ⟨rfl, now⟩ | before
      · rcases recorded.did_iff.mp ended' with ⟨_, now'⟩ | before'
        · exact Event.finished.inj (now.trans now'.symm)
        · subst now
          exact absurd before' (orderly.2 other)
      · rcases recorded.did_iff.mp ended' with ⟨rfl, now'⟩ | before'
        · subst now'
          exact absurd before (orderly.2 reply)
        · exact ih before before'

/-- What a request did, it did before it ended. -/
theorem Lawful.before_finished {id : RequestId} {reply : Except Error (Reply U)}
    {event : Event U} {earlier : List (Entry U)}
    (ended : ⟨id, .finished reply⟩ :: earlier <:+ moment.history) (did : moment.Did id event) :
    event = .finished reply ∨ ⟨id, event⟩ ∈ earlier := by
  induction lawful with
  | initial => cases did
  | contexts contexts _ ih => exact ih ended did
  | @records moment next entry _ recorded orderly ih =>
      obtain ⟨request, now⟩ := entry
      rw [recorded.history] at ended
      rcases List.suffix_cons_iff.mp ended with last | before
      · obtain ⟨same, rfl⟩ := List.cons.inj last
        cases same
        rcases recorded.did_iff.mp did with ⟨_, rfl⟩ | before
        · exact .inl rfl
        · exact .inr before
      · rcases recorded.did_iff.mp did with ⟨rfl, rfl⟩ | earlier
        · have done := before.mem List.mem_cons_self
          cases event with
          | started demand => exact absurd ⟨_, done, rfl⟩ orderly.1
          | performed operation answer => exact absurd done (orderly.2 reply)
          | called call => exact absurd done (orderly.2 reply)
          | returned call answer => exact absurd done (orderly.2 reply)
          | finished other => exact absurd done (orderly.2 reply)
        · exact ih before earlier

/-- A request starts once. -/
theorem Lawful.started_once {id : RequestId} {demand other : Demand U}
    (began : moment.Did id (.started demand)) (began' : moment.Did id (.started other)) :
    demand = other := by
  induction lawful with
  | initial => cases began
  | contexts contexts _ ih => exact ih began began'
  | @records moment next entry _ recorded orderly ih =>
      obtain ⟨request, event⟩ := entry
      rcases recorded.did_iff.mp began with ⟨rfl, now⟩ | before
      · rcases recorded.did_iff.mp began' with ⟨_, now'⟩ | before'
        · exact Event.started.inj (now.trans now'.symm)
        · subst now
          exact absurd ⟨_, before', rfl⟩ orderly.1
      · rcases recorded.did_iff.mp began' with ⟨rfl, now'⟩ | before'
        · subst now'
          exact absurd ⟨_, before, rfl⟩ orderly.1
        · exact ih before before'

/-- A request that is made names scopes that were built. -/
theorem Lawful.named {id : RequestId} {demand : Demand U} {scope : Scope U}
    (began : moment.Did id (.started demand)) (names : scope ∈ demand.scopes) :
    moment.IsScope scope := by
  induction lawful with
  | initial => cases began
  | contexts contexts _ ih => exact ih began
  | @records moment next entry _ recorded orderly ih =>
      obtain ⟨request, event⟩ := entry
      rcases recorded.did_iff.mp began with ⟨rfl, now⟩ | before
      · subst now
        exact (orderly.2 scope names).mono recorded.suffix
      · exact (ih before).mono recorded.suffix

end Orderly

/-- Where a scope comes from. -/
structure Grown (moment : Moment U) (scope : Scope U) : Prop where
  built : scope.Built
  ancestors : ∀ {wanted above}, scope.ancestor? wanted = some above → moment.IsScope above
  numbered : ∃ id, moment.Did id (.finished (.ok (.built scope))) ∧
    moment.Did id (.performed .newScope scope.id)

theorem Grown.mono {scope : Scope U} (grown : moment.Grown scope)
    (grows : moment.history <:+ next.history) : next.Grown scope where
  built := grown.built
  ancestors := fun above => (grown.ancestors above).mono grows
  numbered := grown.numbered.imp fun _ did => ⟨grows.mem did.1, grows.mem did.2⟩

/-- Ancestors of a child are scopes if those of its parent are. -/
theorem ancestors_child {scope parent : Scope U} {node : ScopeNode U}
    (isChild : scope = .child node parent) (isScope : moment.IsScope scope)
    (above : ∀ {wanted found}, parent.ancestor? wanted = some found → moment.IsScope found)
    {wanted : ScopeId} {found : Scope U} (finds : scope.ancestor? wanted = some found) :
    moment.IsScope found := by
  subst isChild
  by_cases here : node.id = wanted
  · simp only [Scope.ancestor?, here, if_true, Option.some.injEq] at finds
    exact finds ▸ isScope
  · rw [Scope.ancestor?_child_of_ne here] at finds
    exact above finds

/-- Every scope has grown as it should. -/
theorem IsScope.grown {scope : Scope U}
    (lawful : moment.Lawful (Conduct.orderly.and Conduct.growing))
    (isScope : moment.IsScope scope) : moment.Grown scope := by
  induction lawful generalizing scope with
  | initial =>
      obtain ⟨_, impossible⟩ := isScope
      cases impossible
  | contexts contexts _ ih => exact ⟨(ih isScope).1, (ih isScope).2, (ih isScope).3⟩
  | @records moment next entry lawful recorded allowed ih =>
      obtain ⟨request, event⟩ := entry
      obtain ⟨id, did⟩ := isScope
      rcases recorded.did_iff.mp did with ⟨rfl, now⟩ | before
      swap
      · exact (ih ⟨id, before⟩).mono recorded.suffix
      subst now
      have lawfully := lawful.mono fun _ _ both => both.1
      obtain ⟨orderly, parent, registrations, began, given, same⟩ := allowed
      have isScope : next.IsScope scope := ⟨id, did⟩
      have numbered : ∃ id, next.Did id (.finished (.ok (.built scope))) ∧
          next.Did id (.performed .newScope scope.id) := ⟨id, did, recorded.suffix.mem given⟩
      cases parent with
      | none =>
          obtain ⟨node, isRoot, _⟩ := Builder.scope_of_none
            (show ((Builder.start scope.id none).addAll registrations).parent = none from
              (Builder.addAll_parent ..).trans (Builder.start_parent ..))
          refine ⟨same ▸ .root _ registrations, ?_, numbered⟩
          intro wanted above finds
          rw [same, isRoot] at finds
          simp only [Scope.ancestor?, Option.ite_none_right_eq_some, Option.some.injEq] at finds
          rw [← finds.2, ← isRoot, ← same]
          exact isScope
      | some parent =>
          have isParent := lawfully.named began (List.mem_singleton_self parent)
          have grown := ih isParent
          obtain ⟨node, isChild, _⟩ := Builder.scope_of_parent
            (show ((Builder.start scope.id (some parent)).addAll registrations).parent =
                some parent from
              (Builder.addAll_parent ..).trans (Builder.start_parent ..))
          -- A scope above under the new number would come from this request, which goes on.
          have fresh : scope.id ∉ parent.lineage := by
            intro member
            obtain ⟨above, finds⟩ := Scope.ancestor?_isSome_of_mem member
            obtain ⟨other, ended, given'⟩ := (ih (grown.ancestors finds)).numbered
            rw [(Scope.ancestor?_some finds).1] at given'
            have isOther := lawful.numbered.2 id other scope.id given given'
            exact orderly.2 _ (isOther ▸ ended)
          refine ⟨same ▸ .child _ registrations grown.built fresh, ?_, numbered⟩
          exact fun finds => ancestors_child (same.trans isChild) isScope
            (fun found => (grown.ancestors found).mono recorded.suffix) finds

/-- Ancestors of scopes are scopes. -/
theorem IsScope.ancestor (lawful : moment.Lawful (Conduct.orderly.and Conduct.growing))
    {scope : Scope U} {wanted : ScopeId} {above : Scope U} (isScope : moment.IsScope scope)
    (finds : scope.ancestor? wanted = some above) : moment.IsScope above :=
  (isScope.grown lawful).ancestors finds

/-- A scope is known by its identity. -/
theorem IsScope.eq_of_id {scope other : Scope U}
    (lawful : moment.Lawful (Conduct.orderly.and Conduct.growing))
    (isScope : moment.IsScope scope) (isOther : moment.IsScope other)
    (same : scope.id = other.id) : scope = other := by
  obtain ⟨id, ended, given⟩ := (isScope.grown lawful).numbered
  obtain ⟨id', ended', given'⟩ := (isOther.grown lawful).numbered
  rw [← same] at given'
  obtain rfl := lawful.numbered.2 id id' scope.id given given'
  have replies := (lawful.mono fun _ _ both => both.1).finished_once ended ended'
  cases replies
  rfl

end Moment

end Provision
