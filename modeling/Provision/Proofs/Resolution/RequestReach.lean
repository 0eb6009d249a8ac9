import Provision.Proofs.Instances.ValueResidence

/-!
# How far requests reach

What an operation may change is the state of one scope.  Resolving enters and settles cells and
hands over closers in the homes of what it makes, which are the scope that it was asked of and the
ancestors of that scope; building hands closers over to the new scope; closing and letting go
concern just their scope.  So a request that goes on while no other does leaves everything beside
and below its scope as it was.

Main statement: `requests_reach_up`.
-/

namespace Provision

open Moment

variable {U : Client}

/-! ## What events change -/

/-- The scope whose state an operation may change. -/
def Operation.target? : Operation U → Option ScopeId
  | .enter scope _ => some scope
  | .settle scope _ _ => some scope
  | .attach scope _ => some scope
  | .shut scope => some scope
  | .discard scope => some scope
  | _ => none

/-- The scope whose state an event may change. -/
def Event.target? : Event U → Option ScopeId
  | .performed operation _ => operation.target?
  | _ => none

namespace Event.Changes

variable {event : Event U} {before after : State U}

/-- An event changes no scope but its target. -/
theorem scope_of_ne_target (changes : event.Changes before after) {scope : ScopeId}
    (other : event.target? ≠ some scope) : after.scope scope = before.scope scope := by
  have elsewhere {target : ScopeId} (state : ScopeState U)
      (isTarget : event.target? = some target) :
      (before.setScope target state).scope scope = before.scope scope := by
    rw [State.scope_setScope, if_neg]
    rintro rfl
    exact other isTarget
  cases event with
  | performed operation answer =>
      cases Operation.effect_of_perform changes with
      | entered _ => exact elsewhere _ rfl
      | settled _ _ _ => exact elsewhere _ rfl
      | attached _ _ => exact elsewhere _ rfl
      | shut _ => exact elsewhere _ rfl
      | discarded _ _ => exact elsewhere _ rfl
      | _ => rfl
  | _ => cases changes; rfl

/-- Closing a scope changes its flag and its closers. -/
theorem scope_of_shut {scope : ScopeId} {answer : (Operation.shut scope : Operation U).Answer}
    (changes : (Event.performed (.shut scope) answer).Changes before after) :
    ∃ closed closers,
      after.scope scope = { before.scope scope with closed := closed, closers := closers } := by
  cases Operation.effect_of_perform changes with
  | shut _ => exact ⟨_, _, State.scope_setScope_self ..⟩
  | wasShut _ => exact ⟨_, _, rfl⟩

end Event.Changes

/-! ## What requests change -/

/-- How a request may change the state of a scope. -/
inductive Reaches (moment : Moment U) (id : RequestId) :
    Demand U → Event U → ScopeId → Prop where
  | resolving {demand : Demand U} {asked : Scope U} {event : Event U} {scope : ScopeId}
      (resolves : demand.Resolves) (names : asked ∈ demand.scopes)
      (upward : scope ∈ asked.lineage) (producing : event.Producing) :
      Reaches moment id demand event scope
  | building {parent : Option (Scope U)} {registrations : List (Registration U)}
      {scope : ScopeId} {closer : PendingCloser U} {answer : Bool}
      (numbered : moment.Did id (.performed .newScope scope)) :
      Reaches moment id (.build parent registrations) (.performed (.attach scope closer) answer)
        scope
  | closing {closed : Scope U} {context : ContextId} {scope : ScopeId} (named : scope = closed.id)
      {answer : (Operation.shut scope : Operation U).Answer} :
      Reaches moment id (.close closed context) (.performed (.shut scope) answer) scope
  | discarding {left : Scope U} {scope : ScopeId} (named : scope = left.id) {answer : Nat} :
      Reaches moment id (.discard left) (.performed (.discard scope) answer) scope

/-- Requests change only the state of scopes that they reach. -/
def Conduct.reaching : Conduct U := fun moment entry =>
  ∀ scope, entry.event.target? = some scope → ∃ demand,
    moment.Did entry.request (.started demand) ∧
      Reaches moment entry.request demand entry.event scope

/-- Making values and keeping them in one scope. -/
def Event.ProducesIn (home : ScopeId) (event : Event U) : Prop :=
  event.Producing ∧ ∀ scope, event.target? = some scope → scope = home

/-- Events that serve change no other scope. -/
theorem Event.Serving.producesIn {event : Event U} (serving : event.Serving) (home : ScopeId) :
    event.ProducesIn home := by
  refine ⟨serving.making.producing, fun scope isTarget => ?_⟩
  cases event with
  | performed operation answer => cases operation <;> first | exact serving.elim | cases isTarget
  | _ => cases isTarget

/-- Idle events change no scope. -/
theorem Event.Idle.target? {event : Event U} (idle : event.Idle) : event.target? = none := by
  cases event with
  | performed operation answer => cases operation <;> first | rfl | exact idle.elim
  | _ => rfl

/-- Events that change no scope reach as far as they may. -/
theorem Conduct.reaching_of_untargeted {moment : Moment U} {id : RequestId} {event : Event U}
    (untargeted : event.target? = none) : Conduct.reaching moment ⟨id, event⟩ := by
  intro scope isTarget
  rw [untargeted] at isTarget
  cases isTarget

section Making

variable {home : ScopeId} {context : ContextId} {own : Event U → Prop} {recipe : Recipe U}

/-- What a sort of events has to cover so that making values with a recipe and keeping them in one
scope is of that sort. -/
structure Covers (own : Event U → Prop) (home : ScopeId) (recipe : Recipe U) : Prop where
  serving : ∀ event, event.Serving → own event
  called : ∀ call, own (.called call)
  returned : ∀ call (answer : call.Answer), own (.returned call answer)
  handed : ∀ closer subject answer, recipe.closerFor? subject = some closer →
    own (.performed (.attach home closer) answer)
  entered : ∀ entry answer, own (.performed (.enter home entry) answer)
  settled : ∀ entry outcome answer, own (.performed (.settle home entry outcome) answer)

/-- What may be done to make a value in a scope covers making it. -/
theorem covers_producesIn : Covers (Event.ProducesIn home) home recipe where
  serving := fun _ serving => serving.producesIn home
  called := fun _ => ⟨trivial, nofun⟩
  returned := fun _ _ => ⟨trivial, nofun⟩
  handed := fun _ _ _ _ => ⟨trivial, fun _ isTarget => (Option.some.inj isTarget).symm⟩
  entered := fun _ _ => ⟨trivial, fun _ isTarget => (Option.some.inj isTarget).symm⟩
  settled := fun _ _ _ => ⟨trivial, fun _ isTarget => (Option.some.inj isTarget).symm⟩

variable (covers : Covers own home recipe)

include covers

/-- Attaching a closer is covered. -/
theorem Covers.only_attachCloser (subject : Value U) :
    Request.Only own (fun _ => True) (attachCloser home context recipe subject) := by
  unfold attachCloser
  cases isCloser : recipe.closerFor? subject with
  | none => exact trivial
  | some closer =>
      refine Request.only_bind_act fun attached => ⟨covers.handed closer subject _ isCloser, ?_⟩
      cases attached with
      | true => exact ⟨covers.called _, fun _ => ⟨covers.returned _ _, trivial⟩⟩
      | false =>
          refine Request.only_bind_call (covers.called _) fun failure =>
            ⟨covers.returned _ _, ?_⟩
          cases failure with
          | none => exact trivial
          | some failure => exact ⟨covers.called _, fun _ => ⟨covers.returned _ _, trivial⟩⟩

/-- Constructing an instance is covered. -/
theorem Covers.only_construct (arguments : List (Argument U)) (flag : FlagId) (closeMade : Bool) :
    Request.Only own (fun _ => True)
      (construct home context recipe arguments flag closeMade) := by
  have usable : Request.Only own (fun _ => True) (ensureUsable context) :=
    (only_ensureUsable context).mono (fun event idle => covers.serving event idle.serving)
      fun _ _ => trivial
  refine Request.only_bind usable (fun _ _ => trivial) fun _ _ => ?_
  refine Request.only_bind_call (covers.called _) fun _ => ⟨covers.returned _ _, ?_⟩
  refine Request.only_bind_lift ((only_produce recipe home arguments).mono covers.serving
    fun _ makes => makes) fun outcome _ => ?_
  refine Request.only_bind_act fun _ => ⟨covers.serving _ trivial, ?_⟩
  refine Request.only_bind_ofExcept (fun _ _ => trivial) fun value _ => ?_
  refine Request.only_bind usable (fun _ _ => trivial) fun _ _ => ?_
  cases closeMade with
  | false => exact trivial
  | true =>
      exact Request.only_bind (covers.only_attachCloser value) (fun _ _ => trivial)
        fun _ _ => trivial

omit covers in

/-- Finishing a value is covered. -/
theorem Covers.only_finish {binding : Binding U} (covers : Covers own home binding.recipe)
    (key : Key) (stages : List (Stage U)) (made : Value U) :
    Request.Only own (fun _ => True) (finish home context key binding stages made) := by
  refine Request.only_bind ((only_convert binding home key made).mono covers.serving
    fun _ makes => makes) (fun _ _ => trivial) ?_
  intro converted _
  refine Request.only_bind ((only_decorateAll _ stages converted binding.registered.type).mono
    covers.serving fun _ makes => makes) (fun _ _ => trivial) ?_
  intro value _
  by_cases uncast : binding.cast.isNone = true
  · simp only [uncast, if_true]
    exact Request.only_bind (covers.only_attachCloser _) (fun _ _ => trivial) fun _ _ => trivial
  · simp only [uncast]
    exact trivial

/-- Keeping a value is covered. -/
theorem Covers.only_keepIf {kept : Bool} {entry : CacheKey} {create : Request U (Value U)}
    (creates : Request.Only own (fun _ => True) create) :
    Request.Only own (fun _ => True) (keepIf kept home entry create) := by
  exact Provision.only_keepIf creates (fun _ _ => covers.entered _ _)
    fun _ _ _ => covers.settled _ _ _

omit covers in
/-- Making a value and keeping it changes the scope that keeps it and no other, and hands over
closers of the recipe only. -/
theorem Covers.only_produceFrom {home : Scope U} {binding : Binding U}
    (covers : Covers own home.id binding.recipe) (context : ContextId) (key : Key)
    (inputs : Inputs U) :
    Request.Only own (fun _ => True) (produceFrom home context key binding inputs) :=
  Request.only_bind (covers.only_keepIf (covers.only_construct _ _ _)) (fun _ _ => trivial)
    fun made _ => covers.only_keepIf (covers.only_finish key inputs.stages made)

end Making

section Kept

variable {rely : Conduct U} {id : RequestId} {start : Moment U}

/-- Requests for keys of the scopes that a demand names, and of their ancestors, reach upward. -/
def reachingUp (rely : Conduct U) (id : RequestId) {demand : Demand U}
    (resolves : demand.Resolves) : Upkeep rely Conduct.reaching id where
  holds := fun moment => moment.Did id (.started demand)
  among := fun scope => ∃ asked ∈ demand.scopes, scope.Above asked
  yields := fun _ _ _ _ => True
  failed := fun _ _ _ _ _ => True
  stable := fun passage began => passage.suffix.mem began
  harmless := fun _ _ _ idle => Conduct.reaching_of_untargeted idle.target?
  ancestor := by
    rintro scope wanted above ⟨asked, names, isAbove⟩ finds
    exact ⟨asked, names, (Scope.Above.ofAncestor finds).trans isAbove⟩
  lasts := fun _ _ => trivial
  plain := fun _ _ => trivial
  cycle := fun _ _ _ => trivial
  dependency := fun _ _ _ _ => trivial
  recalled := fun _ _ _ _ _ _ _ _ _ => .of_trivial
  convert := by
    intro start scope key binding content _ _ _ _ _ began
    refine ((only_convert binding scope.id key _).keeps ?_).mono ?_
    · intro moment event _ _ serving target isTarget
      cases event with
      | performed operation answer =>
          have idle : (Event.performed operation answer).Idle := serving
          rw [idle.target?] at isTarget
          cases isTarget
      | _ => cases isTarget
    · exact fun _ _ _ reached => .of_holds (reached.2.suffix.mem began)
  produce := by
    intro start scope key binding home inputs context _ among finds _ began _
    obtain ⟨asked, names, isAbove⟩ := among
    have leads : scope.Leads key ⟨home, binding⟩ := ⟨finds.bound, finds.home⟩
    refine ((covers_producesIn.only_produceFrom context key inputs).keeps ?_).mono ?_
    · rintro moment event passage _ ⟨producing, only⟩ target isTarget
      obtain rfl := only target isTarget
      exact ⟨demand, passage.suffix.mem began,
        .resolving resolves names (leads.above.trans isAbove).id_mem producing⟩
    · exact fun _ _ _ reached => .of_holds (reached.2.suffix.mem began)

/-- A request that builds changes the scope that it numbered. -/
theorem keeps_buildScope_reaching {parent : Option (Scope U)}
    {registrations : List (Registration U)}
    (began : start.Did id (.started (.build parent registrations))) :
    Request.Keeps rely Conduct.reaching id (fun _ _ => True) (buildScope parent registrations)
      start := by
  refine Request.keeps_bind_lift
    (keeps_newBuilder parent fun _ _ => Conduct.reaching_of_untargeted rfl) ?_
  rintro _ moment _ ⟨grown, scope, rfl, given⟩
  refine Request.keeps_bind_lift ((Builder.only_register registrations _).keeps
    fun _ _ _ _ idle => Conduct.reaching_of_untargeted idle.target?) ?_
  rintro _ moment' _ ⟨rfl, passage⟩
  refine ((Builder.only_build _).keeps ?_).mono fun _ _ _ _ => trivial
  rintro later event passage' _ (idle | ⟨closer, _, answer, rfl⟩)
  · exact Conduct.reaching_of_untargeted idle.target?
  · rintro _ ⟨⟩
    have since := passage.suffix.trans passage'.suffix
    refine ⟨_, since.mem (grown.mem began), .building ?_⟩
    rw [Builder.addAll_id, Builder.start_id]
    exact since.mem given

/-- All requests reach only so far. -/
theorem kept_reaching : Conduct.Kept rely Conduct.reaching where
  started := fun _ _ _ _ _ => Conduct.reaching_of_untargeted rfl
  follows := by
    intro moment id demand after _ _ recorded
    have began : after.Did id (.started demand) := recorded.did
    have untargeted (reply : Except Error (Reply U)) (last : Moment U) :
        Conduct.reaching last ⟨id, .finished reply⟩ := Conduct.reaching_of_untargeted rfl
    by_cases resolves : demand.Resolves
    · exact ((reachingUp rely id resolves).asking resolves
        (fun scope names => ⟨scope, names, .refl scope⟩) began).mono fun _ _ _ _ => untargeted _ _
    cases demand with
    | build parent registrations =>
        refine Request.keeps_bind (keeps_buildScope_reaching began) ?_ ?_
        · exact fun _ _ _ _ => untargeted _ _
        · exact fun _ _ _ _ => Request.keeps_pure fun _ _ _ => untargeted _ _
    | close scope context =>
        refine Request.keeps_bind ((only_close scope context).keeps ?_) ?_ ?_
        · rintro moment event passage _ (disposing | ⟨answer, rfl⟩)
          · refine Conduct.reaching_of_untargeted ?_
            cases event with
            | performed operation answer => exact Event.Idle.target? disposing
            | _ => rfl
          · rintro _ ⟨⟩
            exact ⟨_, passage.suffix.mem began, .closing rfl⟩
        · exact fun _ _ _ _ => untargeted _ _
        · exact fun _ _ _ _ => Request.keeps_pure fun _ _ _ => untargeted _ _
    | discard scope =>
        refine Request.keeps_bind_lift ((only_discard scope).keeps ?_) ?_
        · rintro moment event passage _ (idle | ⟨answer, rfl⟩)
          · exact Conduct.reaching_of_untargeted idle.target?
          · rintro _ ⟨⟩
            exact ⟨_, passage.suffix.mem began, .discarding rfl⟩
        · exact fun _ _ _ _ => Request.keeps_pure fun _ _ _ => untargeted _ _
    | resolve _ _ _ => exact absurd trivial resolves
    | resolveTyped _ _ _ => exact absurd trivial resolves
    | resolveThrough _ _ _ => exact absurd trivial resolves
    | resolveTypedThrough _ _ _ => exact absurd trivial resolves
    | invoke _ _ _ _ => exact absurd trivial resolves

end Kept

/-! ## What stays -/

/-- What a request for a demand leaves as it was from one moment to another. -/
structure Demand.Spares (demand : Demand U) (before after : Moment U) : Prop where
  /-- Every scope is there still, with its registry and its ancestors, and no other has its
  identity. -/
  scopes : ∀ scope, before.IsScope scope →
    after.IsScope scope ∧ ∀ other, after.IsScope other → other.id = scope.id → other = scope
  /-- What is neither the scope of the demand nor an ancestor of it keeps what it kept, has promised
  what it had promised and is closed only if it was. -/
  beyond : ∀ scope, before.IsScope scope → (∀ named ∈ demand.scopes, ¬ scope.Above named) →
    after.state.scope scope.id = before.state.scope scope.id
  /-- No scope is closed by any other demand than to close it. -/
  flags : ∀ scope, before.IsScope scope → (∀ context, demand ≠ .close scope context) →
    (after.state.scope scope.id).closed = (before.state.scope scope.id).closed
  /-- Closing changes the flag and the closers of the one scope. -/
  closing : ∀ closed context, demand = .close closed context →
    (∃ flag closers, after.state.scope closed.id =
        { before.state.scope closed.id with closed := flag, closers := closers }) ∧
      ∀ scope, before.IsScope scope → scope ≠ closed →
        after.state.scope scope.id = before.state.scope scope.id
  /-- Building changes no scope that there was. -/
  building : ∀ parent registrations, demand = .build parent registrations →
    ∀ scope, before.IsScope scope → after.state.scope scope.id = before.state.scope scope.id

namespace Demand.Spares

variable {demand : Demand U} {before middle after : Moment U}

theorem trans (first : demand.Spares before middle) (second : demand.Spares middle after) :
    demand.Spares before after where
  scopes := fun scope isScope => second.scopes scope (first.scopes scope isScope).1
  beyond := fun scope isScope apart =>
    (second.beyond scope (first.scopes scope isScope).1 apart).trans
      (first.beyond scope isScope apart)
  flags := fun scope isScope other =>
    (second.flags scope (first.scopes scope isScope).1 other).trans
      (first.flags scope isScope other)
  closing := by
    intro closed context isClose
    obtain ⟨⟨_, _, changed⟩, others⟩ := first.closing closed context isClose
    obtain ⟨⟨flag, closers, changed'⟩, others'⟩ := second.closing closed context isClose
    refine ⟨⟨flag, closers, by rw [changed', changed]⟩, fun scope isScope differs => ?_⟩
    rw [others' scope (first.scopes scope isScope).1 differs, others scope isScope differs]
  building := fun parent registrations isBuild scope isScope =>
    (second.building parent registrations isBuild scope (first.scopes scope isScope).1).trans
      (first.building parent registrations isBuild scope isScope)

/-- Where all scopes are as they were, everything is left as it was. -/
theorem of_scope_eq (lawful : after.Lawful (Conduct.orderly.and Conduct.growing))
    (grows : before.history <:+ after.history)
    (same : ∀ scope, after.state.scope scope = before.state.scope scope) :
    demand.Spares before after where
  scopes := fun _ isScope =>
    ⟨isScope.mono grows, fun _ isOther ids => isOther.eq_of_id lawful (isScope.mono grows) ids⟩
  beyond := fun _ _ _ => same _
  flags := fun _ _ _ => by rw [same]
  closing := fun _ _ _ => ⟨⟨_, _, same _⟩, fun _ _ _ => same _⟩
  building := fun _ _ _ _ _ => same _

end Demand.Spares

namespace Moment

variable {moment next : Moment U} {id : RequestId} {demand : Demand U} {event : Event U}

/-- A scope whose identity is in the lineage of another is that scope or an ancestor of it. -/
theorem IsScope.above_of_mem (lawful : moment.Lawful (Conduct.orderly.and Conduct.growing))
    {scope asked : Scope U} (isScope : moment.IsScope scope) (isAsked : moment.IsScope asked)
    (upward : scope.id ∈ asked.lineage) : scope.Above asked := by
  obtain ⟨found, finds⟩ := Scope.ancestor?_isSome_of_mem upward
  obtain rfl := (isAsked.ancestor lawful finds).eq_of_id lawful isScope
    (Scope.ancestor?_some finds).1
  exact .ofAncestor finds

/-- One thing that a request does leaves as it was what the request does not reach. -/
theorem Records.spares (recorded : moment.Records ⟨id, event⟩ next)
    (lawful : moment.Lawful (Conduct.orderly.and Conduct.growing))
    (lawful' : next.Lawful (Conduct.orderly.and Conduct.growing))
    (named : ∀ scope ∈ demand.scopes, moment.IsScope scope)
    (unfinished : ∀ reply, ¬ moment.Did id (.finished reply))
    (reaches : ∀ scope, event.target? = some scope → Reaches moment id demand event scope) :
    demand.Spares moment next := by
  have elsewhere {scope : Scope U} (apart : event.target? ≠ some scope.id) :
      next.state.scope scope.id = moment.state.scope scope.id :=
    recorded.state.scope_of_ne_target apart
  have fresh {scope : Scope U} (isScope : moment.IsScope scope) :
      ¬ moment.Did id (.performed .newScope scope.id) := by
    intro numbered
    obtain ⟨maker, ended, given⟩ := (isScope.grown lawful).numbered
    obtain rfl := lawful.numbered.2 id maker scope.id numbered given
    exact unfinished _ ended
  have same {scope other : Scope U} (isScope : moment.IsScope scope)
      (names : other ∈ demand.scopes) (ids : scope.id = other.id) : scope = other :=
    isScope.eq_of_id lawful (named other names) ids
  refine ⟨?_, ?_, ?_, ?_, ?_⟩
  · intro scope isScope
    have still := isScope.mono recorded.suffix
    exact ⟨still, fun other isOther ids => isOther.eq_of_id lawful' still ids⟩
  · intro scope isScope apart
    refine elsewhere fun isTarget => ?_
    cases reaches scope.id isTarget with
    | resolving resolves names upward _ =>
        exact apart _ names (isScope.above_of_mem lawful (named _ names) upward)
    | building numbered => exact fresh isScope numbered
    | closing isClosed =>
        obtain rfl := same isScope (List.mem_singleton_self _) isClosed
        exact apart _ (List.mem_singleton_self _) (.refl _)
    | discarding isLeft =>
        obtain rfl := same isScope (List.mem_singleton_self _) isLeft
        exact apart _ (List.mem_singleton_self _) (.refl _)
  · intro scope isScope other
    refine recorded.state.closed_of_ne_shut ?_
    rintro answer rfl
    cases reaches scope.id rfl with
    | resolving resolves names _ producing => exact producing
    | closing isClosed =>
        obtain rfl := same isScope (List.mem_singleton_self _) isClosed
        exact other _ rfl
  · rintro closed context rfl
    constructor
    · by_cases isTarget : event.target? = some closed.id
      · cases reaches closed.id isTarget with
        | resolving resolves => exact resolves.elim
        | closing => exact recorded.state.scope_of_shut
      · exact ⟨_, _, elsewhere isTarget⟩
    · intro scope isScope differs
      refine elsewhere fun isTarget => ?_
      cases reaches scope.id isTarget with
      | resolving resolves => exact resolves.elim
      | closing isClosed => exact differs (same isScope (List.mem_singleton_self _) isClosed)
  · rintro parent registrations rfl scope isScope
    refine elsewhere fun isTarget => ?_
    cases reaches scope.id isTarget with
    | resolving resolves => exact resolves.elim
    | building numbered => exact fresh isScope numbered

end Moment

/-- What every request keeps to in order to reach only so far. -/
abbrev Conduct.confined : Conduct U :=
  Conduct.orderly.and (Conduct.growing.and Conduct.reaching)

namespace Activity

/-- A step adds an entry to the history, or the client changes its contexts. -/
theorem Step.moves {activity next : Activity U} (step : Step activity next) :
    (∃ entry, activity.moment.Records entry next.moment) ∨
      ∃ contexts, next.moment = activity.moment.withContexts contexts := by
  cases step with
  | start _ _ recorded => exact .inl ⟨_, recorded⟩
  | perform _ recorded => exact .inl ⟨_, recorded⟩
  | call _ recorded => exact .inl ⟨_, recorded⟩
  | resume _ recorded => exact .inl ⟨_, recorded⟩
  | finish _ recorded => exact .inl ⟨_, recorded⟩
  | contexts contexts => exact .inr ⟨contexts, rfl⟩

/-- The history grows by steps. -/
theorem Steps.grows {activity next : Activity U} (steps : Steps activity next) :
    activity.moment.history <:+ next.moment.history := by
  induction steps with
  | refl => exact List.suffix_refl _
  | step _ step ih =>
      rcases step.moves with ⟨_, recorded⟩ | ⟨_, same⟩
      · exact ih.trans recorded.suffix
      · rw [same]
        exact ih

/-- Nobody but one request did anything from one moment to another. -/
def OnlyBy (id : RequestId) (before after : Moment U) : Prop :=
  ∃ recent, after.history = recent ++ before.history ∧ ∀ entry ∈ recent, entry.request = id

/-- What only one request recorded goes on by an entry of it. -/
theorem OnlyBy.of_records {id : RequestId} {before middle after : Moment U} {entry : Entry U}
    (only : OnlyBy id before after) (grows : before.history <:+ middle.history)
    (recorded : middle.Records entry after) : OnlyBy id before middle ∧ entry.request = id := by
  obtain ⟨recent, isRecent, own⟩ := only
  obtain ⟨part, isPart⟩ := grows
  rw [recorded.history, ← isPart, ← List.cons_append, List.append_cancel_right_eq] at isRecent
  subst isRecent
  exact ⟨⟨part, isPart.symm, fun other member => own other (List.mem_cons_of_mem _ member)⟩,
    own entry List.mem_cons_self⟩

/-- A step of one request leaves as it was what its demand does not reach. -/
theorem spares_of_records {id : RequestId} {demand : Demand U} {event : Event U}
    {moment next : Moment U} (recorded : moment.Records ⟨id, event⟩ next)
    (lawful : moment.Lawful Conduct.confined) (lawful' : next.Lawful Conduct.confined)
    (only : ∀ other, moment.Did id (.started other) → other = demand) :
    demand.Spares moment next := by
  have grown := lawful.mono fun _ _ all => And.intro all.1 all.2.1
  have grown' := lawful'.mono fun _ _ all => And.intro all.1 all.2.1
  cases isTarget : event.target? with
  | none =>
      refine .of_scope_eq grown' recorded.suffix fun scope => ?_
      exact recorded.state.scope_of_ne_target (by rw [isTarget]; nofun)
  | some target =>
      have done : (⟨id, event⟩ : Entry U) :: moment.history <:+ next.history :=
        recorded.history ▸ List.suffix_refl _
      obtain ⟨before, _, same, orderly, _, reaching⟩ := lawful'.allowed_at done
      have did {event : Event U} : before.Did id event ↔ moment.Did id event := by
        rw [Moment.Did, Moment.Did, same]
      obtain ⟨other, began, _⟩ := reaching target isTarget
      obtain rfl := only other (did.mp began)
      refine recorded.spares grown grown' ?_ ?_ fun scope here => ?_
      · exact fun scope names => (grown.mono fun _ _ both => both.1).named (did.mp began) names
      · intro reply ended
        cases event with
        | performed => exact orderly.2 reply (did.mpr ended)
        | _ => cases isTarget
      · obtain ⟨asked, begun, reaches⟩ := reaching scope here
        obtain rfl := only asked (did.mp begun)
        cases reaches with
        | resolving resolves names upward producing =>
            exact .resolving resolves names upward producing
        | building numbered => exact .building (did.mp numbered)
        | closing named => exact .closing named
        | discarding named => exact .discarding named

end Activity

/-- While a request goes on and no other does, because the functions of the client use no
containers, it leaves as it was what is not the scope of its demand or an ancestor of it; it closes
nothing but what it is to close, and building leaves all that there is as it was. -/
theorem requests_reach_up {activity next : Activity U} (reachable : activity.Reachable)
    (steps : Activity.Steps activity next) {id : RequestId} {demand : Demand U}
    (began : next.moment.Did id (.started demand))
    (alone : Activity.OnlyBy id activity.moment next.moment) :
    demand.Spares activity.moment next.moment := by
  have kept : Conduct.Kept Conduct.confined (Conduct.growing.and (Conduct.reaching (U := U))) :=
    kept_growing.and kept_reaching
  have only : ∀ other, next.moment.Did id (.started other) → other = demand := by
    intro other began'
    have lawful := (reachable.steps steps).lawful kept
    exact (lawful.mono fun _ _ all => all.1).started_once began' began
  clear began
  induction steps with
  | refl =>
      have lawful := reachable.lawful kept
      exact .of_scope_eq (lawful.mono fun _ _ all => ⟨all.1, all.2.1⟩) (List.suffix_refl _)
        fun _ => rfl
  | @step middle last before step ih =>
      have lawful := (reachable.steps before).lawful kept
      have lawful' := (reachable.steps (before.step step)).lawful kept
      rcases step.moves with ⟨⟨other, event⟩, recorded⟩ | ⟨contexts, same⟩
      · obtain ⟨alone, rfl⟩ := alone.of_records before.grows recorded
        have only : ∀ asked, middle.moment.Did other (.started asked) → asked = demand :=
          fun asked began => only asked (recorded.suffix.mem began)
        exact (ih alone only).trans (Activity.spares_of_records recorded lawful lawful' only)
      · have history : last.moment.history = middle.moment.history :=
          (congrArg Moment.history same).trans rfl
        have still : demand.Spares middle.moment last.moment := by
          refine .of_scope_eq (lawful'.mono fun _ _ all => ⟨all.1, all.2.1⟩) ?_ fun scope => ?_
          · exact history ▸ List.suffix_refl _
          · exact congrArg (fun moment => moment.state.scope scope) same
        have did {event : Event U} : last.moment.Did id event ↔ middle.moment.Did id event := by
          rw [Moment.Did, Moment.Did, history]
        rw [Activity.OnlyBy, history] at alone
        exact (ih alone fun other began => only other (did.mpr began)).trans still

namespace Sibling

/-- A second child of the root scope. -/
def other : Scope Client.obliging :=
  ((Builder.child ⟨3⟩ Resident.root).addAll []).scope

/-- The world once the root scope and two children of it are built. -/
def built : World Client.obliging Unit :=
  (Demand.build (some Resident.root) []).afterwards Behaviour.obliging Resident.built

/-- What the first child is asked for: a service of its own, which needs a singleton of the root. -/
def demand : Demand Client.obliging :=
  .resolve Resident.child ⟨0⟩ Resident.own

/-- Two children of one root were built. -/
theorem served : ∃ activity : Activity Client.obliging, Activity.Served Behaviour.obliging
    [(.build none Resident.registrations, .ok (.built Resident.root)),
      (.build (some Resident.root) [], .ok (.built Resident.child)),
      (.build (some Resident.root) [], .ok (.built other))] built activity := by
  have builds : (Demand.build none Resident.registrations).request.run.run Behaviour.obliging
      { state := {}, memory := () } = some (.ok (.built Resident.root), Resident.begun) := rfl
  have more : (Demand.build (some Resident.root) []).request.run.run Behaviour.obliging
      Resident.begun = some (.ok (.built Resident.child), Resident.built) := rfl
  have again : (Demand.build (some Resident.root) []).request.run.run Behaviour.obliging
      Resident.built = some (.ok (.built other), built) := rfl
  have detached := Behaviour.obliging_detached
  obtain ⟨_, one, _⟩ := (Activity.Served.initial ()).next detached builds nofun
  obtain ⟨_, two, _⟩ := one.nextOn detached more rfl List.mem_cons_self
  obtain ⟨activity, three, _⟩ := two.nextOn detached again rfl List.mem_cons_self
  exact ⟨activity, three⟩

end Sibling

/-- One child is asked for a service: the other child is as it was, while something is kept in the
first and in the root scope. -/
theorem sibling_untouched : ∃ activity next : Activity Client.obliging,
    activity.Reachable ∧ activity.Steps next ∧ next.moment.Did ⟨3⟩ (.started Sibling.demand) ∧
      Activity.OnlyBy ⟨3⟩ activity.moment next.moment ∧
      Sibling.demand.Spares activity.moment next.moment ∧
      activity.moment.IsScope Sibling.other ∧
      next.moment.state.scope ⟨3⟩ = activity.moment.state.scope ⟨3⟩ ∧
      (activity.moment.state.cell? ⟨2⟩ (.made (.registration ⟨1⟩ 1))).isSome = false ∧
      (next.moment.state.cell? ⟨2⟩ (.made (.registration ⟨1⟩ 1))).isSome = true ∧
      (next.moment.state.cell? ⟨1⟩ (.made (.registration ⟨1⟩ 0))).isSome = true := by
  obtain ⟨activity, served⟩ := Sibling.served
  have runs : Sibling.demand.request.run.run Behaviour.obliging Sibling.built =
      some (.ok (.resolved { type := Resident.own.type, content := .object () }),
        Sibling.demand.afterwards Behaviour.obliging Sibling.built) := rfl
  have allowed : Sibling.demand.Allowed activity.moment := by
    rintro scope named
    obtain rfl := List.mem_singleton.mp named
    exact ⟨_, (served.did 1 rfl).2⟩
  have fresh : ¬ activity.moment.Knows ⟨3⟩ := fun known => Nat.lt_irrefl _ (served.known known)
  obtain ⟨next, steps, state, history⟩ := Activity.steps_alone Behaviour.obliging_detached runs
    fresh allowed served.state
  have began : next.moment.Did ⟨3⟩ (.started Sibling.demand) := by
    rw [Moment.Did, history]
    refine List.mem_append_left _ (List.mem_map_of_mem ?_)
    exact List.mem_cons_of_mem _ (List.mem_append_right _ (List.mem_singleton_self _))
  have only : Activity.OnlyBy ⟨3⟩ activity.moment next.moment := by
    refine ⟨_, history, fun entry member => ?_⟩
    obtain ⟨event, _, rfl⟩ := List.mem_map.mp member
    rfl
  have isOther : activity.moment.IsScope Sibling.other := ⟨_, (served.did 2 rfl).2⟩
  have spares := requests_reach_up served.reachable steps began only
  have same := spares.beyond Sibling.other isOther fun named names above => by
    obtain rfl := List.mem_singleton.mp names
    exact absurd above.id_mem (by decide)
  refine ⟨activity, next, served.reachable, steps, began, only, spares, isOther, same, ?_⟩
  rw [served.state, state]
  exact ⟨rfl, rfl, rfl⟩

end Provision
