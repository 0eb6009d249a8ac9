import Provision.Proofs.Resolution.MakingValues

/-!
# Programs of demands

Resolving a key, directly or through a handle, and calling a function with injected parameters all
come down to requests for keys of one scope.  What requests for keys uphold is therefore upheld by
these demands, `Upkeep.asking`, and tells how they end.

The other demands build a scope, close it or let go of it: apart from calling the client, a new
scope is numbered, a scope is shut, or it is forgotten, `Demand.only_tending`.  A conduct that is
about none of this is kept by them, `Duties.conduct`.
-/

namespace Provision

open Moment

variable {U : Client}

/-- The keys of scopes that a demand asks for. -/
inductive Demand.Asks : Demand U → Scope U → Key → Prop where
  | resolve (scope : Scope U) (context : ContextId) (key : Key) :
      Asks (.resolve scope context key) scope key
  | resolveTyped (scope : Scope U) (context : ContextId) (key : Key) :
      Asks (.resolveTyped scope context key) scope key
  | resolveThrough (handle : Handle U) (context : ContextId) (key : Key) :
      Asks (.resolveThrough handle context key) handle.scope key
  | resolveTypedThrough (handle : Handle U) (context : ContextId) (key : Key) :
      Asks (.resolveTypedThrough handle context key) handle.scope key
  | invoke (scope : Scope U) (context : ContextId) {params : List Param} (routine : U.Routine)
      {key : Key} (needs : .service key ∈ params) :
      Asks (.invoke scope context params routine) scope key

/-- Whether a demand neither builds nor closes nor lets go of a scope. -/
def Demand.Resolves : Demand U → Prop
  | build _ _ => False
  | close _ _ => False
  | discard _ => False
  | _ => True

/-- A demand asks for keys of the scopes that it names. -/
theorem Demand.Asks.mem_scopes {demand : Demand U} {scope : Scope U} {key : Key}
    (asks : demand.Asks scope key) : scope ∈ demand.scopes := by
  cases asks <;> exact List.mem_singleton_self _

/-- A demand that asks for a key resolves. -/
theorem Demand.Asks.resolves {demand : Demand U} {scope : Scope U} {key : Key}
    (asks : demand.Asks scope key) : demand.Resolves := by
  cases asks <;> exact trivial

namespace Upkeep

variable {rely guar : Conduct U} {id : RequestId} (upkeep : Upkeep rely guar id)
  {start : Moment U}

/-- How a demand that resolves ends. -/
abbrev Answers (demand : Demand U) : Except Error (Reply U) → Moment U → Prop :=
  Ends
    (fun reply moment => upkeep.holds moment ∧
      ((∃ value, reply = .resolved value ∧
          ∀ scope key, demand.Asks scope key → upkeep.yields moment scope key value) ∨
        ∃ failure, reply = .invoked failure))
    fun error moment => (upkeep.holds moment ∧ error.Acyclic) ∨
      ∃ scope key, demand.Asks scope key ∧ upkeep.failed moment scope key [] error

/-- A demand that comes down to one key ends as the request for the key does. -/
theorem answers_resolved {demand : Demand U} {scope : Scope U} {key : Key}
    {request : Request U (Value U)} (asks : demand.Asks scope key)
    (only : ∀ other wanted, demand.Asks other wanted → other = scope ∧ wanted = key)
    (keeps : Request.Keeps rely guar id
      (Ends (fun value moment => upkeep.holds moment ∧ upkeep.yields moment scope key value)
        fun error moment => (upkeep.holds moment ∧ error.Acyclic) ∨
          upkeep.failed moment scope key [] error) request start) :
    Request.Keeps rely guar id (upkeep.Answers demand)
      (do
        let value ← request
        pure (.resolved value)) start := by
  refine Request.keeps_bind keeps ?_ ?_
  · rintro error moment _ (reached | reached)
    · exact .inl reached
    · exact .inr ⟨scope, key, asks, reached⟩
  · intro value moment _ reached
    refine Request.keeps_pure fun later passage _ => ⟨upkeep.meanwhile passage reached.1, .inl ?_⟩
    refine ⟨value, rfl, fun other wanted asks => ?_⟩
    obtain ⟨rfl, rfl⟩ := only other wanted asks
    exact upkeep.lasts passage.suffix reached.2

/-- A request for a key upholds what resolution upholds. -/
theorem resolves {scope : Scope U} (context : ContextId) (key : Key)
    (among : upkeep.among scope) (holds : upkeep.holds start) :
    Request.Keeps rely guar id
      (Ends (fun value moment => upkeep.holds moment ∧ upkeep.yields moment scope key value)
        fun error moment => (upkeep.holds moment ∧ error.Acyclic) ∨
          upkeep.failed moment scope key [] error) (Provision.resolve scope context key) start := by
  refine (upkeep.resolve context key among holds).mono ?_
  rintro (error | value) moment _ reached
  · exact .inr reached
  · exact reached

/-- A typed request for a key upholds what resolution upholds. -/
theorem resolvesTyped {scope : Scope U} (context : ContextId) (key : Key)
    (among : upkeep.among scope) (holds : upkeep.holds start) :
    Request.Keeps rely guar id
      (Ends (fun value moment => upkeep.holds moment ∧ upkeep.yields moment scope key value)
        fun error moment => (upkeep.holds moment ∧ error.Acyclic) ∨
          upkeep.failed moment scope key [] error) (scope.resolveTyped context key) start := by
  refine Request.keeps_bind (upkeep.resolve context key among holds) ?_ ?_
  · exact fun error moment _ reached => .inr reached
  · intro value moment _ reached
    by_cases typed : value.type = key.type
    · simp only [typed, if_true]
      exact Request.keeps_pure fun later passage _ =>
        ⟨upkeep.meanwhile passage reached.1, upkeep.lasts passage.suffix reached.2⟩
    · simp only [typed, if_false]
      exact Request.keeps_fail fun later passage _ =>
        .inl ⟨upkeep.meanwhile passage reached.1, nofun⟩

/-- Looking at the flag of a handle is idle, and fails without a cycle. -/
theorem only_ensureReady (handle : Handle U) (key : Key) :
    Request.Only Event.Idle Acyclic (handle.ensureReady key) := by
  refine Request.only_bind_act fun ready => ⟨trivial, ?_⟩
  cases ready with
  | false => exact Acyclic.error nofun
  | true =>
      refine Request.only_bind_act fun dropped => ⟨trivial, ?_⟩
      cases dropped with
      | false => exact Acyclic.ok _
      | true => exact Acyclic.error nofun

/-- A request through a handle upholds what the request upholds that it stands for. -/
theorem throughHandle {handle : Handle U} {key : Key} {request : Request U (Value U)}
    {post : Outcome U → Moment U → Prop} (holds : upkeep.holds start)
    (plain : ∀ error moment, upkeep.holds moment → error.Acyclic → post (.error error) moment)
    (ready : ∀ moment, upkeep.holds moment → Request.Keeps rely guar id post request moment) :
    Request.Keeps rely guar id post
      (do
        handle.ensureReady key
        request) start := by
  refine Request.keeps_bind (upkeep.idle (only_ensureReady handle key) holds) ?_ ?_
  · exact fun error moment _ reached => plain error moment reached.2 (reached.1 _ rfl)
  · exact fun _ moment _ reached => ready moment reached.2

/-- Arguments that are resolved one by one, each on its own. -/
theorem keeps_inject {scope : Scope U} (context : ContextId) (flag : FlagId) {params : List Param}
    (among : upkeep.among scope) (holds : upkeep.holds start) :
    Request.Keeps rely guar id
      (Ends (fun _ moment => upkeep.holds moment) fun error moment =>
        ∃ key, .service key ∈ params ∧ upkeep.failed moment scope key [] error)
      (scope.inject context flag params) start := by
  induction params generalizing start with
  | nil => exact Request.keeps_pure fun moment passage _ => upkeep.meanwhile passage holds
  | cons param params ih =>
      have first : Request.Keeps rely guar id
          (Ends (fun _ moment => upkeep.holds moment) fun error moment =>
            ∃ key, .service key ∈ param :: params ∧ upkeep.failed moment scope key [] error)
          (Resolver.argument (fun scope context key _ => Provision.resolve scope context key)
            scope context [] flag param) start := by
        cases param with
        | context => exact Request.keeps_pure fun _ passage _ => upkeep.meanwhile passage holds
        | scope => exact Request.keeps_pure fun _ passage _ => upkeep.meanwhile passage holds
        | service key =>
            refine Request.keeps_bind (upkeep.resolve context key among holds) ?_ ?_
            · exact fun error moment _ reached => ⟨key, List.mem_cons_self, reached⟩
            · exact fun value moment _ reached => Request.keeps_pure fun _ passage _ =>
                upkeep.meanwhile passage reached.1
      refine Request.keeps_bind first ?_ ?_
      · exact fun error moment _ reached => reached
      · intro argument moment _ reached
        refine Request.keeps_bind (ih reached) ?_ ?_
        · rintro error last _ ⟨key, member, failed⟩
          exact ⟨key, List.mem_cons_of_mem _ member, failed⟩
        · exact fun rest last _ reached => Request.keeps_pure fun _ passage _ =>
            upkeep.meanwhile passage reached

/-- The arguments to call a function with. -/
theorem keeps_invocation {scope : Scope U} (context : ContextId) (params : List Param)
    (among : upkeep.among scope) (holds : upkeep.holds start) :
    Request.Keeps rely guar id
      (Ends (fun _ moment => upkeep.holds moment) fun error moment =>
        (upkeep.holds moment ∧ error.Acyclic) ∨
          ∃ key, .service key ∈ params ∧ upkeep.failed moment scope key [] error)
      (scope.invocation context params) start := by
  unfold Scope.invocation
  refine Request.keeps_bind (upkeep.idle (only_ensureUsable context) holds) ?_ ?_
  · exact fun error moment _ reached => .inl ⟨reached.2, (reached.1 _ rfl).direct.acyclic⟩
  rintro _ usable _ ⟨_, holds⟩
  refine Request.keeps_bind (upkeep.idle (only_ensureOpen scope.id) holds) ?_ ?_
  · exact fun error moment _ reached => .inl ⟨reached.2, (reached.1 _ rfl).direct.acyclic⟩
  rintro _ opened _ ⟨_, holds⟩
  refine Request.keeps_bind_act fun moment flag numbered passage _ recorded => ?_
  have held := upkeep.meanwhile passage holds
  refine ⟨upkeep.harmless _ _ held trivial, ?_⟩
  have holds := upkeep.stable (.own (.refl _) recorded trivial) held
  refine Request.keeps_bind_act fun moment _ raised passage _ recorded => ?_
  have held := upkeep.meanwhile passage holds
  refine ⟨upkeep.harmless _ _ held trivial, ?_⟩
  have holds := upkeep.stable (.own (.refl _) recorded trivial) held
  refine Request.keeps_bind (upkeep.keeps_inject context flag among holds) ?_ ?_
  · exact fun error moment _ reached => .inr reached
  intro arguments moment _ holds
  have taken := (only_takeAll params arguments).mono (fun _ taking => taking.idle)
    fun _ reached => reached
  refine Request.keeps_bind (upkeep.idle taken holds) ?_ ?_
  · exact fun error moment _ reached => .inl ⟨reached.2, (reached.1.1 _ rfl).direct.acyclic⟩
  · exact fun _ moment _ reached => Request.keeps_pure fun _ passage _ =>
      upkeep.meanwhile passage reached.2

/-- A demand that resolves upholds what requests for keys uphold. -/
theorem asking {demand : Demand U} (resolves : demand.Resolves)
    (among : ∀ scope ∈ demand.scopes, upkeep.among scope) (holds : upkeep.holds start) :
    Request.Keeps rely guar id (upkeep.Answers demand) demand.request start := by
  cases demand with
  | build _ _ => exact resolves.elim
  | close _ _ => exact resolves.elim
  | discard _ => exact resolves.elim
  | resolve scope context key =>
      have amongScope := among scope (List.mem_singleton_self _)
      exact upkeep.answers_resolved (.resolve scope context key)
        (by rintro _ _ ⟨⟩; exact ⟨rfl, rfl⟩)
        (upkeep.resolves context key amongScope holds)
  | resolveTyped scope context key =>
      have amongScope := among scope (List.mem_singleton_self _)
      exact upkeep.answers_resolved (.resolveTyped scope context key)
        (by rintro _ _ ⟨⟩; exact ⟨rfl, rfl⟩)
        (upkeep.resolvesTyped context key amongScope holds)
  | resolveThrough handle context key =>
      have amongScope := among handle.scope (List.mem_singleton_self _)
      refine upkeep.answers_resolved (.resolveThrough handle context key)
        (by rintro _ _ ⟨⟩; exact ⟨rfl, rfl⟩)
        (upkeep.throughHandle holds ?_ fun moment holds => ?_)
      · exact fun error moment holds acyclic => .inl ⟨holds, acyclic⟩
      · exact upkeep.resolves context key amongScope holds
  | resolveTypedThrough handle context key =>
      have amongScope := among handle.scope (List.mem_singleton_self _)
      refine upkeep.answers_resolved (.resolveTypedThrough handle context key)
        (by rintro _ _ ⟨⟩; exact ⟨rfl, rfl⟩)
        (upkeep.throughHandle holds ?_ fun moment holds => ?_)
      · exact fun error moment holds acyclic => .inl ⟨holds, acyclic⟩
      · exact upkeep.resolvesTyped context key amongScope holds
  | invoke scope context params routine =>
      have amongScope := among scope (List.mem_singleton_self _)
      have invokes : Request.Keeps rely guar id
          (Ends (fun _ moment => upkeep.holds moment) fun error moment =>
            (upkeep.holds moment ∧ error.Acyclic) ∨
              ∃ key, .service key ∈ params ∧ upkeep.failed moment scope key [] error)
          (scope.invoke context params fun arguments =>
            Program.callClient (.enact routine arguments)) start := by
        refine Request.keeps_bind (upkeep.keeps_invocation context params amongScope holds) ?_ ?_
        · exact fun error moment _ reached => reached
        · intro arguments moment _ holds
          have calls : Request.Only Event.Idle
              (fun outcome : Except Error (Option UserError) => ∃ failure, outcome = .ok failure)
              (ExceptT.lift (Program.callClient (.enact routine arguments) :
                Program U (Option UserError))) :=
            ⟨trivial, fun failure => ⟨trivial, failure, rfl⟩⟩
          refine (upkeep.idle calls holds).mono ?_
          rintro _ last _ ⟨⟨failure, rfl⟩, holds⟩
          exact holds
      refine Request.keeps_bind invokes ?_ ?_
      · rintro error moment _ (reached | ⟨key, needs, failed⟩)
        · exact .inl reached
        · exact .inr ⟨scope, key, .invoke scope context routine needs, failed⟩
      · exact fun failure moment _ holds => Request.keeps_pure fun later passage _ =>
          ⟨upkeep.meanwhile passage holds, .inr ⟨failure, rfl⟩⟩

end Upkeep

/-! ## Tending scopes -/

/-- Promising some closers to a scope, besides idle events. -/
def Event.Promises (scope : ScopeId) (closers : List (PendingCloser U)) (event : Event U) : Prop :=
  event.Idle ∨ ∃ closer ∈ closers, ∃ answer, event = .performed (.attach scope closer) answer

/-- Promising to close fixed values, besides idle events. -/
def Event.Founding : Event U → Prop
  | .performed (.attach _ closer) _ => ∃ content, closer.recipe.source = .value content
  | event => event.Idle

/-- Running closers, besides idle events. -/
def Event.Disposing : Event U → Prop
  | .called (.close _ _ _ _) => True
  | .returned (.close _ _ _ _) _ => True
  | event => event.Idle

/-- The events of requests that do not resolve. -/
def Event.Tending : Event U → Prop
  | .performed .newScope _ => True
  | .performed (.shut _) _ => True
  | .performed (.discard _) _ => True
  | .performed (.attach _ closer) _ => ∃ content, closer.recipe.source = .value content
  | event => event.Disposing

theorem Event.Idle.founding {event : Event U} (idle : event.Idle) : event.Founding := by
  cases event with
  | performed operation answer => cases operation <;> first | exact idle | exact idle.elim
  | called call => exact idle
  | returned call answer => exact idle
  | started demand => exact idle
  | finished reply => exact idle

/-- Promising to close fixed values founds a scope. -/
theorem Event.Promises.founding {scope : ScopeId} {closers : List (PendingCloser U)}
    {event : Event U} (promises : event.Promises scope closers)
    (fixed : ∀ closer ∈ closers, ∃ content, closer.recipe.source = .value content) :
    event.Founding := by
  rcases promises with idle | ⟨closer, member, answer, rfl⟩
  · exact idle.founding
  · exact fixed closer member

theorem Event.Idle.disposing {event : Event U} (idle : event.Idle) : event.Disposing := by
  cases event with
  | performed operation answer => exact idle
  | called call => cases call <;> first | exact trivial | exact idle
  | returned call answer => cases call <;> first | exact trivial | exact idle
  | started demand => exact idle
  | finished reply => exact idle

/-- Founding a scope is tending it. -/
theorem Event.Founding.tending {event : Event U} (founding : event.Founding) : event.Tending := by
  cases event with
  | performed operation answer =>
      cases operation <;> first | exact trivial | exact founding
  | called call => exact Event.Idle.disposing founding
  | returned call answer => exact Event.Idle.disposing founding
  | started demand => exact founding
  | finished reply => exact founding

/-- Disposing of closers is tending a scope. -/
theorem Event.Disposing.tending {event : Event U} (disposing : event.Disposing) :
    event.Tending := by
  cases event with
  | performed operation answer =>
      cases operation <;> first | exact trivial | exact disposing | exact disposing.elim
  | called call => exact disposing
  | returned call answer => exact disposing
  | started demand => exact disposing
  | finished reply => exact disposing

/-- Founding a scope is attending. -/
theorem Event.Founding.attending {event : Event U} (founding : event.Founding) :
    event.Attending := by
  cases event with
  | performed operation answer =>
      cases operation <;> first | exact trivial | exact founding
  | called call => exact Event.Idle.attending founding
  | returned call answer => exact Event.Idle.attending founding
  | started demand => exact founding
  | finished reply => exact founding

/-- Disposing of closers is attending. -/
theorem Event.Disposing.attending {event : Event U} (disposing : event.Disposing) :
    event.Attending := by
  cases event with
  | performed operation answer => exact Event.Idle.attending disposing
  | called call => cases call <;> first | exact trivial | exact disposing.elim
  | returned call answer => cases call <;> first | exact trivial | exact disposing.elim
  | started demand => exact disposing
  | finished reply => exact disposing

/-- All events but to enter a cell, to settle one and to end. -/
def Event.Aside : Event U → Prop
  | .performed (.enter _ _) _ => False
  | .performed (.settle _ _ _) _ => False
  | .finished _ => False
  | _ => True

/-- Making values is aside. -/
theorem Event.Making.aside {event : Event U} (making : event.Making) : event.Aside := by
  cases event with
  | performed operation answer => cases operation <;> first | exact trivial | exact making.elim
  | finished reply => exact making.elim
  | _ => trivial

/-- Tending scopes is aside. -/
theorem Event.Tending.aside {event : Event U} (tending : event.Tending) : event.Aside := by
  cases event with
  | performed operation answer => cases operation <;> first | exact trivial | exact tending.elim
  | finished reply => exact tending.elim
  | _ => trivial

/-- What is asked of a request when it enters a cell, when it settles one and when it ends. -/
structure Duties (U : Client) where
  enters : Moment U → ScopeId → CacheKey → Option (Outcome U) → Prop := fun _ _ _ _ => True
  settles : Moment U → RequestId → ScopeId → CacheKey → Outcome U → Prop :=
    fun _ _ _ _ _ => True
  ends : Moment U → RequestId → Except Error (Reply U) → Prop := fun _ _ _ => True

/-- The conduct of requests that do their duties, and anything else as they like. -/
def Duties.conduct (duties : Duties U) : Conduct U := fun moment entry =>
  match entry.event with
  | .performed (.enter scope cell) found => duties.enters moment scope cell found
  | .performed (.settle scope cell outcome) _ =>
      duties.settles moment entry.request scope cell outcome
  | .finished reply => duties.ends moment entry.request reply
  | _ => True

/-- A conduct that is made up of duties has nothing to say about events that are aside. -/
theorem Duties.conduct_of_aside {duties : Duties U} {moment : Moment U} {id : RequestId}
    {event : Event U} (aside : event.Aside) : duties.conduct moment ⟨id, event⟩ := by
  cases event with
  | performed operation answer => cases operation <;> first | exact trivial | exact aside.elim
  | finished reply => exact aside.elim
  | _ => trivial

namespace Builder

/-- Registering is idle and adds all registrations. -/
theorem only_register (registrations : List (Registration U)) (builder : Builder U) :
    (register registrations builder).Only Event.Idle
      (fun result => result = builder.addAll registrations) := by
  induction registrations generalizing builder with
  | nil => exact rfl
  | cons registration rest ih =>
      unfold register
      cases builder.notice? registration with
      | none => exact ih (builder.add registration)
      | some notice => exact ⟨trivial, fun _ => ⟨trivial, ih (builder.add registration)⟩⟩

/-- Attaching closers only promises them. -/
theorem only_attachAll (scope : ScopeId) {closers promised : List (PendingCloser U)}
    (within : closers ⊆ promised) :
    Request.Only (Event.Promises scope promised) (fun outcome => outcome = .ok ())
      (attachAll scope closers) := by
  induction closers with
  | nil => exact rfl
  | cons closer rest ih =>
      obtain ⟨member, within⟩ := List.cons_subset.mp within
      refine Request.only_bind_act fun answer => ⟨.inr ⟨closer, member, answer, rfl⟩, ?_⟩
      exact Request.only_bind_call (.inl trivial) fun _ => ⟨.inl trivial, ih within⟩

/-- Completing a builder promises its closers, and gives its scope if nothing is wrong. -/
theorem only_complete (builder : Builder U) :
    Request.Only (Event.Promises builder.id builder.closers)
      (fun outcome => ∀ scope, outcome = .ok scope → builder.issues = [] ∧ scope = builder.scope)
      builder.complete := by
  by_cases sound : builder.issues = []
  · rw [complete_of_sound sound]
    refine Request.only_bind (only_attachAll builder.id (List.Subset.refl _)) (fun _ _ => nofun) ?_
    intro _ _
    refine Request.only_bind_call (.inl trivial) fun _ => ⟨.inl trivial, ?_⟩
    rintro _ ⟨⟩
    exact ⟨sound, rfl⟩
  · rw [complete_of_wrong sound]
    exact nofun

/-- A scope is only built if nothing is wrong with its registrations. -/
theorem only_build (builder : Builder U) :
    Request.Only (Event.Promises builder.id builder.closers)
      (fun outcome => ∀ scope, outcome = .ok scope → builder.issues = [] ∧ scope = builder.scope)
      builder.build := by
  cases above : builder.parent with
  | none =>
      rw [build_of_root above]
      exact only_complete builder
  | some parent =>
      rw [build_of_child above]
      exact Request.only_bind ((only_ensureOpen parent.id).mono (fun _ => .inl) fun _ _ => trivial)
        (fun _ _ => nofun) fun _ _ => only_complete builder

end Builder

/-- Building numbers a scope and promises to close fixed values. -/
theorem only_buildScope (parent : Option (Scope U)) (registrations : List (Registration U)) :
    Request.Only (fun event => event.Founding ∨ ∃ scope, event = .performed .newScope scope)
      (fun outcome => ∀ scope, outcome = .ok scope →
        ((Builder.start scope.id parent).addAll registrations).issues = [] ∧
          scope = ((Builder.start scope.id parent).addAll registrations).scope)
      (buildScope parent registrations) := by
  have numbers : (newBuilder parent : Program U (Builder U)).Only
      (fun event => event.Founding ∨ ∃ scope, event = .performed .newScope scope)
      fun builder => ∃ id, builder = Builder.start id parent := by
    rw [newBuilder_eq]
    exact fun id => ⟨.inr ⟨id, rfl⟩, id, rfl⟩
  refine Request.only_bind_lift numbers ?_
  rintro _ ⟨id, rfl⟩
  refine Request.only_bind_lift ((Builder.only_register registrations _).mono
    (fun _ idle => .inl idle.founding) fun _ same => same) ?_
  rintro _ rfl
  refine (Builder.only_build _).mono
    (fun _ promises => .inl (promises.founding fun _ => Builder.fixed_closers)) ?_
  intro outcome builds scope same
  obtain ⟨sound, isBuilt⟩ := builds scope same
  have named : scope.id = id := by
    rw [isBuilt, Builder.scope_id, Builder.addAll_id, Builder.start_id]
  rw [named]
  exact ⟨sound, isBuilt⟩

/-- Whoever starts a builder has numbered its scope. -/
theorem keeps_newBuilder {rely guar : Conduct U} {id : RequestId} {start : Moment U}
    (parent : Option (Scope U))
    (allowed : ∀ moment scope, guar moment ⟨id, .performed .newScope scope⟩) :
    (newBuilder parent : Program U (Builder U)).Keeps rely guar id
      (fun builder moment => start.history <:+ moment.history ∧
        ∃ scope, builder = Builder.start scope parent ∧
          moment.Did id (.performed .newScope scope)) start := by
  rw [newBuilder_eq]
  intro moment passage _ scope after recorded
  refine ⟨allowed moment scope, fun later more _ => ⟨?_, scope, rfl, ?_⟩⟩
  · exact (passage.suffix.trans recorded.suffix).trans more.suffix
  · exact more.suffix.mem recorded.did

/-- Running closers only disposes of them. -/
theorem only_runClosers (scope : ScopeId) (context : ContextId) (closers : List (PendingCloser U)) :
    (Scope.runClosers scope context closers).Only Event.Disposing fun _ => True := by
  induction closers with
  | nil => exact trivial
  | cons closer rest ih =>
      refine ⟨trivial, fun failure => ⟨trivial, ?_⟩⟩
      cases failure with
      | none => exact ih
      | some failure =>
          exact ⟨trivial, fun _ => ⟨trivial, ih.andThen fun _ _ => trivial⟩⟩

/-- Closing a scope shuts it and disposes of its closers. -/
theorem only_close (scope : Scope U) (context : ContextId) :
    Request.Only
      (fun event => event.Disposing ∨ ∃ answer, event = .performed (.shut scope.id) answer)
      (fun _ => True) (scope.close context) := by
  refine Request.only_bind_act fun answer => ⟨.inr ⟨answer, rfl⟩, ?_⟩
  cases answer with
  | none => exact trivial
  | some closers =>
      refine Request.only_bind_call (.inl trivial) fun _ => ⟨.inl trivial, ?_⟩
      refine Request.only_bind_lift ((only_runClosers scope.id context closers.reverse).mono
        (fun _ disposing => .inl disposing) fun _ _ => trivial) fun failures _ => ?_
      cases failures with
      | nil => exact trivial
      | cons failure failures => exact trivial

/-- A warning about a scope that was left open is idle. -/
theorem only_warn (scope : ScopeId) (pending : Nat) :
    (if pending = 0 then pure () else
      Program.callClient (.report (.droppedOpen scope pending)) : Program U Unit).Only
        Event.Idle fun _ => True := by
  cases pending with
  | zero => exact trivial
  | succ pending => exact ⟨trivial, fun _ => ⟨trivial, trivial⟩⟩

/-- Letting go of a scope discards it and is idle otherwise. -/
theorem only_discard (scope : Scope U) :
    scope.discard.Only
      (fun event => event.Idle ∨ ∃ answer, event = .performed (.discard scope.id) answer)
      fun _ => True :=
  fun pending => ⟨.inr ⟨pending, rfl⟩,
    (only_warn scope.id pending).mono (fun _ idle => .inl idle) fun _ _ => trivial⟩

/-- A demand that does not resolve anything. -/
theorem Demand.only_tending {demand : Demand U} (other : ¬ demand.Resolves) :
    Request.Only Event.Tending (fun _ => True) demand.request := by
  cases demand with
  | build parent registrations =>
      refine Request.only_bind ((only_buildScope parent registrations).mono ?_ fun _ _ => trivial)
        (fun _ _ => trivial) fun _ _ => trivial
      rintro event (founding | ⟨scope, rfl⟩)
      · exact founding.tending
      · trivial
  | close scope context =>
      refine Request.only_bind ((only_close scope context).mono ?_ fun _ _ => trivial)
        (fun _ _ => trivial) fun _ _ => trivial
      rintro event (disposing | ⟨answer, rfl⟩)
      · exact disposing.tending
      · trivial
  | discard scope =>
      refine Request.only_bind_lift ((only_discard scope).mono ?_ fun _ _ => trivial)
        fun _ _ => trivial
      rintro event (idle | ⟨answer, rfl⟩)
      · exact idle.disposing.tending
      · trivial
  | resolve _ _ _ => exact absurd trivial other
  | resolveTyped _ _ _ => exact absurd trivial other
  | resolveThrough _ _ _ => exact absurd trivial other
  | resolveTypedThrough _ _ _ => exact absurd trivial other
  | invoke _ _ _ _ => exact absurd trivial other

end Provision
