import Provision.Proofs.Instances.KeptFailures
import Provision.Proofs.Types.MirroredRequests

/-!
# Values have the type that their key promises

Everything is held as a value with a type, and every use of a value looks at that type first.  It
always is the type that is wanted: what a scope keeps has the type of its recipe or of its key,
what a request is answered with has the type of the key that was asked for, and nothing that a
request did would be different if any of the guards let everything through.  Only a parameter that
refuses its value makes a request fail for a type.

Main statement: `well_typed`.
-/

namespace Provision

open Moment

variable {U : Client} {α : Type}

/-! ## Keeping values -/

/-- Requests that keep what they make settle cells as they should. -/
theorem Conduct.settling_of_and_keeping (moment : Moment U) (entry : Entry U)
    (allowed : (orderly.and (growing.and keeping)) moment entry) :
    settling moment entry :=
  settling_of_keeping allowed.2.2

namespace Moment

/-- If an error is for a type, then a parameter refused its value in the request itself, or the
request was told of such an error by a cell. -/
def Relays (moment : Moment U) (id : RequestId) (error : Error) : Prop :=
  ∀ key, error.root = .typeMismatch key → moment.Refuses id key ∨ ∃ event kept,
    moment.Did id event ∧ event.Recalls (.error kept) ∧ kept.root = .typeMismatch key

variable {moment : Moment U} {id : RequestId}

/-- What explains an error relays it. -/
theorem Explains.relays {error : Error} (explains : moment.Explains id error) :
    moment.Relays id error :=
  fun key isMismatch => .inl (explains key isMismatch)

/-- An error that was told to a request is relayed by it. -/
theorem Relays.told {event : Event U} {error : Error} (did : moment.Did id event)
    (recalls : event.Recalls (.error error)) : moment.Relays id error :=
  fun _ isMismatch => .inr ⟨event, error, did, recalls, isMismatch⟩

section Lawful

variable (lawful : moment.Lawful (Conduct.orderly.and (Conduct.growing.and Conduct.keeping)))

include lawful

/-- A request that saw a cell filled never finds it empty afterwards. -/
theorem Lawful.not_peeked {before after : List (Event U)} {scope : ScopeId} {cell : CacheKey}
    (doings : moment.doings id = before ++ .performed (.enter scope cell) none :: after)
    (outcome : Outcome U) : .performed (.peek scope cell) (some outcome) ∉ before := by
  induction lawful generalizing after with
  | initial => cases before <;> cases doings
  | contexts contexts _ ih => exact ih doings
  | @records moment next entry lawful recorded _ ih =>
      obtain ⟨request, event⟩ := entry
      by_cases own : request = id
      swap
      · rw [recorded.doings_of_ne own] at doings
        exact ih doings
      subst own
      rw [recorded.doings_self] at doings
      rcases List.eq_nil_or_concat after with rfl | ⟨rest, last, rfl⟩
      · -- The cell is entered now: it is empty, and what was seen in a cell stays in it.
        obtain ⟨rfl, same⟩ := List.append_inj' doings rfl
        cases same
        intro peeked
        obtain ⟨_, settled⟩ :=
          lawful.peeked Conduct.settling_of_and_keeping (mem_doings.mp peeked)
        have sound := lawful.cellSound Conduct.settling_of_and_keeping scope cell
        have filled := (sound.settled settled).2
        rw [(Operation.perform_enter_none recorded.state).1] at filled
        cases filled
      · have split : before ++ .performed (.enter scope cell) none :: (rest ++ [last]) =
            before ++ .performed (.enter scope cell) none :: rest ++ [last] := by simp
        rw [List.concat_eq_append, split] at doings
        exact ih (List.append_inj' doings rfl).1

end Lawful

end Moment

/-- An error that is explained is relayed. -/
theorem Request.Mirrors.relays {moment : Moment U} {id : RequestId} {before : List (Event U)}
    {typed : List (Event U) → α → Prop} {request other : Request U α}
    (mirrors : Request.Mirrors moment id typed (moment.Explains id) request other before) :
    Request.Mirrors moment id typed (moment.Relays id) request other before :=
  mirrors.imp (fun _ _ typed => typed) fun _ => Explains.relays

section Keeping

variable {moment : Moment U} {id : RequestId} {before : List (Event U)} {guards : Guards U}
  (lawful : moment.Lawful (Conduct.orderly.and (Conduct.growing.and Conduct.keeping)))

open Request

include lawful

/-- A value that is kept, or made for the cell, has the type that whatever settles the cell has. -/
theorem mirrors_keepIf {kept : Bool} {scope : ScopeId} {cell : CacheKey}
    {create create' : Request U (Value U)} {type : ServiceType}
    (known : kept = true → ∀ value, moment.Settled scope cell (.ok value) → value.type = type)
    (creates : (kept = true →
        before ++ [.performed (.enter scope cell) none] <+: moment.doings id) →
      ∀ soFar, Mirrors moment id (OfType type) (moment.Explains id) create create' soFar) :
    Mirrors moment id (OfType type) (moment.Relays id) (keepIf kept scope cell create)
      (keepIf kept scope cell create') before := by
  cases kept with
  | false => exact (creates nofun before).relays
  | true =>
      refine mirrors_bind_act fun found within => ⟨trivial, ?_⟩
      cases found with
      | some outcome =>
          have did : moment.Did id (.performed (.enter scope cell) (some outcome)) :=
            mem_doings.mp (within.subset (by simp))
          refine mirrors_ofExcept ?_
          cases outcome with
          | ok value => exact known rfl value (lawful.awaited Conduct.settling_of_and_keeping did)
          | error error => exact Relays.told did (.entered ..)
      | none =>
          refine mirrors_bind_lift (creates (fun _ => within) _) fun outcome _ _ comes => ?_
          refine mirrors_bind_act fun _ _ => ⟨?_, mirrors_ofExcept ?_⟩
          · cases outcome with
            | ok value => trivial
            | error error => exact comes
          · cases outcome with
            | ok value => exact comes
            | error error => exact Explains.relays comes

variable {key : Key} {binding : Binding U} {home : Scope U}

/-- What making a value needs is as its parameters ask, unless the instance was seen in its cell. -/
abbrev Inputs.Ready (inputs : Inputs U) (binding : Binding U) (home : Scope U)
    (soFar : List (Event U)) : Prop :=
  inputs.Suit Typed binding home
    (∃ outcome, .performed (.peek home.id (.made binding.recipe.id)) (some outcome) ∈ soFar)

/-- With guards of types or without them, making a value goes the same way. -/
theorem mirrors_produceFrom (lenient : guards.Lenient) (homes : moment.Homes key binding home)
    {inputs : Inputs U} (ready : inputs.Ready binding home before) (context : ContextId)
    (asked : Key) :
    Mirrors moment id (OfType binding.registered.type) (moment.Relays id)
      (produceFrom home context asked binding inputs)
      (guards.produceFrom home context asked binding inputs) before := by
  have grown := lawful.mono fun _ _ allowed => And.intro allowed.1 allowed.2.1
  have made : Mirrors moment id (OfType binding.recipe.produces) (moment.Relays id)
      (keepIf binding.recipe.lifetime.isKept home.id (.made binding.recipe.id)
        (construct home.id context binding.recipe inputs.arguments inputs.flag
          binding.cast.isSome))
      (keepIf binding.recipe.lifetime.isKept home.id (.made binding.recipe.id)
        (guards.construct home.id context binding.recipe inputs.arguments inputs.flag
          binding.cast.isSome)) before := by
    refine mirrors_keepIf lawful (fun kept value settled => ?_) fun entered soFar => ?_
    · have prepared : moment.Prepared binding home inputs.arguments value :=
        lawful.prepared (fun _ _ allowed => allowed) homes kept settled
      exact prepared.type
    · have fits : List.Forall₂ (Fits Typed) binding.recipe.params inputs.arguments := by
        rcases ready.arguments with ⟨kept, outcome, peeked⟩ | fits
        · obtain ⟨after, doings⟩ := entered kept
          rw [List.append_assoc] at doings
          exact absurd peeked (lawful.not_peeked doings.symm outcome)
        · exact fits
      have built := (homes.isScope.grown grown).built
      refine mirrors_construct lenient fits (fun item isList => ?_) _ _ _ _
      exact (built.listed _ _ item homes.bound isList).2
  refine made.bind fun made _ _ produced => ?_
  refine mirrors_keepIf lawful (fun kept value settled => ?_) fun _ soFar => ?_
  · exact (lawful.vouched (fun _ _ allowed => allowed.2.2) settled).1
  · exact mirrors_finish lenient produced homes.proper.produces
      (fun stage member => congrArg Key.type (ready.targets stage member)) ready.stages _ _ _

end Keeping

/-! ## Requests for keys -/

/-- For every key of a scope that was built, what one resolver was run for is what another does, and
the value has the type of the key. -/
def Resolver.Mirrors (moment : Moment U) (id : RequestId) (resolver other : Resolver U) : Prop :=
  ∀ {scope : Scope U} (context : ContextId) (key : Key) (active : List Key) {before},
    moment.IsScope scope → Request.Mirrors moment id (OfType key.type) (moment.Relays id)
      (resolver scope context key active) (other scope context key active) before

namespace Resolver.Mirrors

variable {moment : Moment U} {id : RequestId} {before : List (Event U)}
  {resolver other : Resolver U} (mirrors : resolver.Mirrors moment id other)
  {home : Scope U} {active : List Key} {context : ContextId}

open Request

include mirrors

/-- An argument is resolved in the same way, and fits its parameter. -/
theorem argument (isScope : moment.IsScope home) (service : Key) (flag : FlagId) (param : Param) :
    Request.Mirrors moment id (fun _ argument => Fits Typed param argument) (moment.Relays id)
      (wrapDependency service param (resolver.argument home context active flag param))
      (wrapDependency service param (other.argument home context active flag param)) before := by
  cases param with
  | context => exact mirrors_pure (.context context)
  | scope => exact mirrors_pure (.scope _)
  | service needed =>
      have resolves : Request.Mirrors moment id
          (fun _ argument => Fits Typed (.service needed) argument) (moment.Relays id)
          (resolver.argument home context active flag (.service needed))
          (other.argument home context active flag (.service needed)) before :=
        (mirrors context needed active isScope).bind
          fun _ _ _ typed => mirrors_pure (.service typed)
      exact resolves.tryCatch fun _ _ relays => mirrors_fail relays

/-- Arguments are resolved in the same way, and fit their parameters. -/
theorem arguments (isScope : moment.IsScope home) (service : Key) (flag : FlagId)
    (params : List Param) :
    Request.Mirrors moment id (fun _ arguments => List.Forall₂ (Fits Typed) params arguments)
      (moment.Relays id) (resolver.arguments home context service active flag params)
      (other.arguments home context service active flag params) before := by
  induction params generalizing before with
  | nil => exact mirrors_pure .nil
  | cons param params ih =>
      refine (mirrors.argument isScope service flag param).bind fun _ _ _ fit => ?_
      exact ih.bind fun _ _ _ fits => mirrors_pure (.cons fit fits)

/-- Stages are resolved in the same way, and their arguments fit. -/
theorem stages (isScope : moment.IsScope home) (service : Key)
    (decorators : List (Decorator U)) :
    Request.Mirrors moment id
      (fun _ stages => stages.map Stage.decorator = decorators ∧ ∀ stage ∈ stages,
        List.Forall₂ (Fits Typed) stage.decorator.params stage.arguments)
      (moment.Relays id) (resolver.stages home context service active decorators)
      (other.stages home context service active decorators) before := by
  induction decorators generalizing before with
  | nil => exact mirrors_pure ⟨rfl, by simp⟩
  | cons decorator decorators ih =>
      refine mirrors_bind_act fun flag _ => ⟨trivial, ?_⟩
      refine (mirrors.arguments isScope service flag decorator.params).bind
        fun arguments _ _ fits => ?_
      refine ih.bind fun stages _ _ staged => mirrors_pure ?_
      exact ⟨congrArg _ staged.1, List.forall_mem_cons.mpr ⟨fits, staged.2⟩⟩

/-- All that a service needs is resolved in the same way, and is ready for it. -/
theorem inputs (isScope : moment.IsScope home) (key : Key) (binding : Binding U) :
    Request.Mirrors moment id (fun soFar (inputs : Inputs U) => inputs.Ready binding home soFar)
      (moment.Relays id) (resolver.inputs home context key binding active)
      (other.inputs home context key binding active) before := by
  have staged : ∀ (arguments : List (Argument U)) (flag : FlagId) (soFar : List (Event U)),
      (binding.recipe.lifetime.isKept = true ∧ (∃ outcome,
          .performed (.peek home.id (.made binding.recipe.id)) (some outcome) ∈ soFar) ∨
        List.Forall₂ (Fits Typed) binding.recipe.params arguments) →
      Request.Mirrors moment id (fun soFar (inputs : Inputs U) => inputs.Ready binding home soFar)
        (moment.Relays id)
        (do
          let stages ← resolver.stages home context key active
            (home.registry.decoratorsOf binding.registered)
          pure { arguments, flag, stages })
        (do
          let stages ← other.stages home context key active
            (home.registry.decoratorsOf binding.registered)
          pure { arguments, flag, stages }) soFar := by
    intro arguments flag soFar ready
    refine (mirrors.stages isScope key _).bind
      fun stages later grown staged => mirrors_pure ⟨?_, staged.1, staged.2⟩
    exact ready.imp_left fun seen => ⟨seen.1, seen.2.imp fun _ member => grown.subset member⟩
  refine mirrors_bind_act fun flag _ => ⟨trivial, ?_⟩
  unfold isMade
  by_cases kept : binding.recipe.lifetime.isKept = true
  · simp only [kept, if_true]
    refine mirrors_bind_act fun made _ => ⟨trivial, ?_⟩
    cases made with
    | some outcome => exact staged [] flag _ (.inl ⟨kept, outcome, by simp⟩)
    | none =>
        refine (mirrors.arguments isScope key flag _).bind fun arguments _ _ fits => ?_
        exact staged arguments flag _ (.inr fits)
  · simp only [kept]
    refine (mirrors.arguments isScope key flag _).bind fun arguments _ _ fits => ?_
    exact staged arguments flag _ (.inr fits)

section Resolve

variable {guards : Guards U} (lenient : guards.Lenient)
  (lawful : moment.Lawful (Conduct.orderly.and (Conduct.growing.and Conduct.keeping)))

include lenient lawful

/-- A value is created in the same way, and has the type of its key. -/
theorem create {key : Key} {binding : Binding U} (homes : moment.Homes key binding home) :
    Request.Mirrors moment id (OfType key.type) (moment.Relays id)
      (resolver.create home context key binding active)
      (guards.create other home context key binding active) before := by
  rw [Resolver.create_eq, ← homes.proper.type]
  exact (mirrors.inputs homes.isScope key binding).bind
    fun inputs _ _ ready => mirrors_produceFrom lawful lenient homes ready context key

/-- A value is resolved in its home in the same way, and has the type of its key. -/
theorem resolveIn {key : Key} {binding : Binding U} (homes : moment.Homes key binding home) :
    Request.Mirrors moment id (OfType key.type) (moment.Relays id)
      (resolver.resolveIn home context key binding active)
      (guards.resolveIn other home context key binding active) before := by
  have creates : ∀ soFar, Request.Mirrors moment id (OfType key.type) (moment.Relays id)
      (if key ∈ active then Request.fail (.cycle (cycleChain active key))
        else resolver.create home context key binding active)
      (if key ∈ active then Request.fail (.cycle (cycleChain active key))
        else guards.create other home context key binding active) soFar := by
    intro soFar
    by_cases isActive : key ∈ active
    · rw [if_pos isActive, if_pos isActive]
      exact mirrors_fail (Explains.relays (explains_of_ne nofun))
    · rw [if_neg isActive, if_neg isActive]
      exact mirrors.create lenient lawful homes
  unfold Resolver.resolveIn Guards.resolveIn recallShown
  by_cases kept : binding.recipe.lifetime.isKept = true
  · simp only [kept]
    refine mirrors_bind_act fun found within => ⟨trivial, ?_⟩
    cases found with
    | none => exact creates _
    | some outcome =>
        have did : moment.Did id (.performed
            (.peek home.id (.shown binding.recipe.id binding.registered)) (some outcome)) :=
          mem_doings.mp (within.subset (by simp))
        refine mirrors_bind_call fun _ _ later => mirrors_ofExcept ?_
        cases outcome with
        | error error => exact Relays.told did (.peeked ..)
        | ok value =>
            have settled := lawful.peeked Conduct.settling_of_and_keeping did
            exact (lawful.vouched (fun _ _ allowed => allowed.2.2) settled).1.trans
              homes.proper.type
  · simp only [kept]
    exact creates _

/-- One level of resolution goes the same way if the level below does. -/
theorem resolveBy : resolver.resolve.Mirrors moment id (guards.resolveBy other) := by
  intro scope context key active before isScope
  have grown := lawful.mono fun _ _ allowed => And.intro allowed.1 allowed.2.1
  unfold Resolver.resolve Guards.resolveBy
  refine (mirrors_ensureUsable context).relays.bind fun _ _ _ _ => ?_
  refine (mirrors_ensureOpen scope.id).relays.bind fun _ _ _ _ => ?_
  cases bound : scope.registry.find? key with
  | none => exact mirrors_fail (Explains.relays (explains_of_ne nofun))
  | some binding =>
      have proper := (isScope.grown grown).built.sound.proper bound
      have makes (made : ¬ binding.IsValue) (soFar : List (Event U)) :
          Request.Mirrors moment id (OfType key.type) (moment.Relays id)
            (do
              let effective ← effectiveScope scope key binding
              resolver.resolveIn effective context key binding active)
            (do
              let effective ← effectiveScope scope key binding
              guards.resolveIn other effective context key binding active) soFar :=
        (mirrors_effectiveScope scope key binding).relays.bind fun home _ _ isHome =>
            mirrors.resolveIn lenient lawful (isScope.homes grown ⟨bound, made, isHome⟩)
      cases source : binding.recipe.source with
      | value content =>
          simp only [source]
          rw [← proper.type]
          exact (mirrors_convert lenient proper.produces rfl scope.id key).relays
      | factory make =>
          simp only [source]
          exact makes (fun ⟨_, isValue⟩ => by rw [source] at isValue; cases isValue) _
      | list item =>
          simp only [source]
          exact makes (fun ⟨_, isValue⟩ => by rw [source] at isValue; cases isValue) _

end Resolve

end Resolver.Mirrors

/-! ## Demands -/

/-- Events of requests that do not resolve warrant nothing. -/
theorem Event.Tending.warrants {moment : Moment U} {id : RequestId} {event : Event U}
    (tending : event.Tending) : moment.Warrants id event := by
  cases event with
  | performed operation answer => cases operation <;> first | exact trivial | exact tending.elim
  | _ => trivial

section Demands

variable {moment : Moment U} {id : RequestId} {before : List (Event U)} {guards : Guards U}
  (lenient : guards.Lenient)
  (lawful : moment.Lawful (Conduct.orderly.and (Conduct.growing.and Conduct.keeping)))
  {scope : Scope U}

open Request

theorem mirrors_attachAll (scope : ScopeId) (closers : List (PendingCloser U)) :
    Mirrors moment id (fun _ _ => True) (moment.Relays id) (Builder.attachAll scope closers)
      (Builder.attachAll scope closers) before := by
  induction closers generalizing before with
  | nil => exact mirrors_pure trivial
  | cons closer rest ih =>
      exact mirrors_bind_act fun _ _ => ⟨trivial, mirrors_bind_call fun _ _ _ => ih⟩

theorem mirrors_complete (builder : Builder U) :
    Mirrors moment id (fun _ _ => True) (moment.Relays id) builder.complete builder.complete
      before := by
  by_cases sound : builder.issues = []
  · rw [Builder.complete_of_sound sound]
    refine (mirrors_attachAll builder.id builder.closers).bind fun _ _ _ _ => ?_
    exact mirrors_bind_call fun _ _ _ => mirrors_pure trivial
  · rw [Builder.complete_of_wrong sound]
    exact mirrors_fail (Explains.relays (explains_of_ne nofun))

theorem mirrors_build (builder : Builder U) :
    Mirrors moment id (fun _ _ => True) (moment.Relays id) builder.build builder.build before := by
  cases above : builder.parent with
  | none =>
      rw [Builder.build_of_root above]
      exact mirrors_complete builder
  | some parent =>
      rw [Builder.build_of_child above]
      exact (mirrors_ensureOpen parent.id).relays.bind fun _ _ _ _ => mirrors_complete builder

/-- Building a scope has no guards. -/
theorem mirrors_buildScope (parent : Option (Scope U)) (registrations : List (Registration U)) :
    Mirrors moment id (fun _ _ => True) (moment.Relays id) (buildScope parent registrations)
      (buildScope parent registrations) before := by
  have numbers : (newBuilder parent : Program U (Builder U)).Only Event.Tending
      fun _ => True := by
    rw [newBuilder_eq]
    exact fun _ => ⟨trivial, trivial⟩
  refine mirrors_bind_lift (numbers.mirrors (fun _ => Event.Tending.warrants)
    fun _ _ holds => holds) fun builder _ _ _ => ?_
  refine mirrors_bind_lift ((Builder.only_register registrations builder).mirrors
    (fun _ idle => idle.disposing.tending.warrants) fun _ _ holds => holds) fun _ _ _ _ => ?_
  exact mirrors_build _

/-- Closing a scope has no guards. -/
theorem mirrors_close (scope : Scope U) (context : ContextId) :
    Mirrors moment id (fun _ _ => True) (moment.Relays id) (scope.close context)
      (scope.close context) before := by
  refine mirrors_bind_act fun answer _ => ⟨trivial, ?_⟩
  cases answer with
  | none => exact mirrors_fail (Explains.relays (explains_of_ne nofun))
  | some closers =>
      refine mirrors_bind_call fun _ _ _ => ?_
      refine mirrors_bind_lift ((only_runClosers scope.id context closers.reverse).mirrors
        (fun _ disposing => disposing.tending.warrants) fun _ _ holds => holds)
        fun failures _ _ _ => ?_
      cases failures with
      | nil => exact mirrors_pure trivial
      | cons failure failures => exact mirrors_fail (Explains.relays (explains_of_ne nofun))

/-- Looking at the flag of a handle has no guards. -/
theorem mirrors_ensureReady (handle : Handle U) (key : Key) :
    Mirrors moment id (fun _ _ => True) (moment.Relays id) (handle.ensureReady key)
      (handle.ensureReady key) before := by
  refine mirrors_bind_act fun ready _ => ⟨trivial, ?_⟩
  cases ready with
  | false => exact mirrors_fail (Explains.relays (explains_of_ne nofun))
  | true =>
      refine mirrors_bind_act fun dropped _ => ⟨trivial, ?_⟩
      cases dropped with
      | false => exact mirrors_pure trivial
      | true => exact mirrors_fail (Explains.relays (explains_of_ne nofun))

include lenient lawful

/-- Resolution goes the same way at every depth. -/
theorem mirrors_resolveWithin (depth : Nat) :
    (resolveWithin depth : Resolver U).Mirrors moment id (guards.resolveWithin depth) := by
  induction depth with
  | zero => exact fun _ _ _ _ _ => Program.mirrors_never
  | succ depth ih => exact ih.resolveBy lenient lawful

/-- A request for a key goes the same way, and what it resolves has the type of the key. -/
theorem mirrors_resolve (isScope : moment.IsScope scope) (context : ContextId) (key : Key) :
    Mirrors moment id (OfType key.type) (moment.Relays id) (resolve scope context key)
      (guards.resolve scope context key) before :=
  mirrors_resolveWithin lenient lawful _ context key [] isScope

/-- A typed request for a key goes the same way. -/
theorem mirrors_resolveTyped (isScope : moment.IsScope scope) (context : ContextId) (key : Key) :
    Mirrors moment id (OfType key.type) (moment.Relays id) (scope.resolveTyped context key)
      (guards.resolveTyped scope context key) before := by
  refine (mirrors_resolve lenient lawful isScope context key).bind fun value _ _ typed => ?_
  rw [if_pos typed, if_pos (lenient.passes_of_eq typed)]
  exact mirrors_pure typed

/-- Arguments for a routine are resolved in the same way, and fit its parameters. -/
theorem mirrors_inject (isScope : moment.IsScope scope) (context : ContextId) (flag : FlagId)
    (params : List Param) :
    Mirrors moment id (fun _ arguments => List.Forall₂ (Fits Typed) params arguments)
      (moment.Relays id) (scope.inject context flag params)
      (guards.inject scope context flag params) before := by
  induction params generalizing before with
  | nil => exact mirrors_pure .nil
  | cons param params ih =>
      have first : Mirrors moment id (fun _ argument => Fits Typed param argument)
          (moment.Relays id)
          (Resolver.argument (fun scope context key _ => resolve scope context key)
            scope context [] flag param)
          (Resolver.argument (fun scope context key _ => guards.resolve scope context key)
            scope context [] flag param) before := by
        cases param with
        | context => exact mirrors_pure (.context context)
        | scope => exact mirrors_pure (.scope _)
        | service key =>
            exact (mirrors_resolve lenient lawful isScope context key).bind
              fun _ _ _ typed => mirrors_pure (.service typed)
      refine first.bind fun _ _ _ fit => ?_
      exact ih.bind fun _ _ _ fits => mirrors_pure (.cons fit fits)

/-- A routine is invoked in the same way. -/
theorem mirrors_invocation (isScope : moment.IsScope scope) (context : ContextId)
    (params : List Param) :
    Mirrors moment id (fun _ _ => True) (moment.Relays id) (scope.invocation context params)
      (guards.invocation scope context params) before := by
  unfold Scope.invocation Guards.invocation
  refine (mirrors_ensureUsable context).relays.bind fun _ _ _ _ => ?_
  refine (mirrors_ensureOpen scope.id).relays.bind fun _ _ _ _ => ?_
  refine mirrors_bind_act fun flag _ => ⟨trivial, mirrors_bind_act fun _ _ => ⟨trivial, ?_⟩⟩
  refine (mirrors_inject lenient lawful isScope context flag params).bind
    fun arguments _ _ fits => ?_
  exact (mirrors_takeAll lenient fits).relays.bind fun _ _ _ _ =>
    mirrors_pure trivial

/-- What a request for a demand did is what it would do under lenient guards. -/
theorem Demand.mirrors {demand : Demand U}
    (named : ∀ scope ∈ demand.scopes, moment.IsScope scope) :
    Mirrors moment id (fun _ _ => True) (moment.Relays id) demand.request
      (guards.request demand) before := by
  have answered {request other : Request U (Value U)} {type : ServiceType}
      (mirrors : Mirrors moment id (OfType type) (moment.Relays id) request other before) :
      Mirrors moment id (fun _ _ => True) (moment.Relays id)
        (do
          let value ← request
          pure (Reply.resolved value))
        (do
          let value ← other
          pure (Reply.resolved value)) before :=
    mirrors.bind fun _ _ _ _ => mirrors_pure trivial
  cases demand with
  | build parent registrations =>
      have builds : Mirrors moment id (fun _ _ => True) (moment.Relays id)
          (buildScope parent registrations) (guards.buildScope parent registrations) before := by
        rw [lenient.buildScope]
        exact mirrors_buildScope parent registrations
      exact builds.bind fun _ _ _ _ => mirrors_pure trivial
  | close scope context =>
      exact (mirrors_close scope context).bind fun _ _ _ _ => mirrors_pure trivial
  | discard scope =>
      refine mirrors_bind_lift ((only_discard scope).mirrors ?_ fun _ _ holds => holds)
        fun _ _ _ _ => mirrors_pure trivial
      rintro event (idle | ⟨answer, rfl⟩)
      · exact idle.disposing.tending.warrants
      · trivial
  | resolve scope context key =>
      have isScope := named scope (List.mem_singleton_self _)
      exact answered (mirrors_resolve lenient lawful isScope context key)
  | resolveTyped scope context key =>
      have isScope := named scope (List.mem_singleton_self _)
      exact answered (mirrors_resolveTyped lenient lawful isScope context key)
  | resolveThrough handle context key =>
      have isScope := named handle.scope (List.mem_singleton_self _)
      exact answered ((mirrors_ensureReady handle key).bind
        fun _ _ _ _ => mirrors_resolve lenient lawful isScope context key)
  | resolveTypedThrough handle context key =>
      have isScope := named handle.scope (List.mem_singleton_self _)
      exact answered ((mirrors_ensureReady handle key).bind
        fun _ _ _ _ => mirrors_resolveTyped lenient lawful isScope context key)
  | invoke scope context params routine =>
      have isScope := named scope (List.mem_singleton_self _)
      have invokes : Mirrors moment id (fun _ _ => True) (moment.Relays id)
          (scope.invoke context params fun arguments =>
            Program.callClient (.enact routine arguments))
          (do
            let arguments ← guards.invocation scope context params
            ExceptT.lift (Program.callClient (.enact routine arguments))) before := by
        refine (mirrors_invocation lenient lawful isScope context params).bind
          fun arguments _ _ _ => ?_
        exact Program.mirrors_ask fun _ _ _ => Program.mirrors_done trivial
      exact invokes.bind fun _ _ _ _ => mirrors_pure trivial

end Demands

/-! ## Well-typed moments -/

/-- Values have the types that their keys promise, so far. -/
structure Moment.WellTyped (moment : Moment U) : Prop where
  /-- A request for a key is answered with a value of the key's type. -/
  answers : ∀ id demand scope key value, moment.Did id (.started demand) →
    demand.Asks scope key → moment.Did id (.finished (.ok (.resolved value))) →
      value.type = key.type
  /-- An instance that a scope keeps has the type that its recipe makes. -/
  instances : ∀ scope id value, moment.state.kept? scope (.made id) = some (.ok value) →
    ∃ recipe home, recipe.id = id ∧ moment.Houses ⟨scope, recipe⟩ home ∧
      value.type = recipe.produces
  /-- A value that a scope keeps for a key has the type of the key. -/
  views : ∀ scope id key value, moment.state.kept? scope (.shown id key) = some (.ok value) →
    value.type = key.type
  /-- No guard turned anything away: whatever more the guards let through, all requests would have
  done the same. -/
  unguarded : ∀ guards : Guards U, guards.Lenient → moment.Obeys guards.request
  /-- A list that is neither converted nor decorated has one item for each parameter. -/
  gathers : ∀ id demand scope key value binding item, moment.Did id (.started demand) →
    demand.Asks scope key → moment.Did id (.finished (.ok (.resolved value))) →
      scope.registry.find? key = some binding → binding.recipe.source = .list item →
        binding.cast = none → scope.registry.decoratorsOf binding.registered = [] →
          ∃ items, value.content = .list items ∧ items.length = binding.recipe.params.length
  /-- A request fails for a type only if a parameter refused its value: in the request itself, or in
  the one that kept the error of which this one was told. -/
  mismatches : ∀ id error key, moment.Did id (.finished (.error error)) →
    error.root = .typeMismatch key → ∃ refuser, moment.Refuses refuser key ∧
      (refuser = id ∨ ∃ event kept scope cell, moment.Did id event ∧
        event.Recalls (.error kept) ∧
          moment.Did refuser (.performed (.settle scope cell (.error kept)) ()))

section Activity

variable {activity : Activity U} (reachable : activity.Reachable)

include reachable

/-- What a request did, as far as it came, is what it would do under lenient guards.  The errors it
kept are explained, and the error it ended with is relayed. -/
theorem Activity.Reachable.mirrored {guards : Guards U} (lenient : guards.Lenient)
    {id : RequestId} {demand : Demand U} {events : List (Event U)}
    {reply : Option (Except Error (Reply U))}
    (doings : activity.moment.doings id =
      .started demand :: events ++ (reply.map Event.finished).toList)
    (goes : demand.request.run.Goes events reply) :
    (guards.request demand).run.Goes events reply ∧
      (∀ event ∈ activity.moment.doings id, activity.moment.Warrants id event) ∧
        ∀ error, reply = some (.error error) → activity.moment.Relays id error := by
  have began : activity.moment.Did id (.started demand) := mem_doings.mp (by simp [doings])
  have within : [.started demand] ++ events <+: activity.moment.doings id :=
    doings ▸ List.prefix_append ..
  have mirrors : Request.Mirrors activity.moment id (fun _ _ => True) (activity.moment.Relays id)
      demand.request (guards.request demand) [.started demand] :=
    Demand.mirrors lenient reachable.keeping fun _ names =>
      (reachable.keeping.mono fun _ _ allowed => allowed.1).named began names
  obtain ⟨goes', warrants, comes⟩ := mirrors events reply within goes
  refine ⟨goes', fun event member => ?_, fun error ends => comes (.error error) ends⟩
  rw [doings, List.cons_append, List.mem_cons, List.mem_append] at member
  rcases member with rfl | member | last
  · trivial
  · exact warrants event member
  · obtain ⟨outcome, _, rfl⟩ := Option.map_eq_some_iff.mp (Option.mem_toList.mp last)
    trivial

/-- What requests do could be done with guards as well as without. -/
theorem Activity.Reachable.unguarded {guards : Guards U} (lenient : guards.Lenient) :
    activity.moment.Obeys guards.request := by
  intro id knows
  obtain ⟨demand, events, reply, doings, goes⟩ := reachable.obeys id knows
  exact ⟨demand, events, reply, doings, (reachable.mirrored lenient doings goes).1⟩

/-- All requests did what they would do without any guards. -/
theorem Activity.Reachable.unguarded_lax : activity.moment.Obeys Guards.lax.request :=
  reachable.unguarded Guards.lax_lenient

/-- An error that a request kept is explained. -/
theorem Activity.Reachable.explained {id : RequestId} {scope : ScopeId} {cell : CacheKey}
    {error : Error}
    (settled : activity.moment.Did id (.performed (.settle scope cell (.error error)) ())) :
    activity.moment.Explains id error := by
  obtain ⟨demand, events, reply, doings, goes⟩ := reachable.obeys id ⟨_, settled, rfl⟩
  exact (reachable.mirrored Guards.exact_lenient doings goes).2.1 _ (mem_doings.mpr settled)

/-- An error that a request ended with is explained, or the request was told of it. -/
theorem Activity.Reachable.relayed {id : RequestId} {error : Error}
    (ended : activity.moment.Did id (.finished (.error error))) :
    activity.moment.Relays id error := by
  obtain ⟨demand, events, doings, does⟩ := reachable.told ended
  have goes := Program.goes_some.mpr does
  exact (reachable.mirrored Guards.exact_lenient doings goes).2.2 error rfl

/-- What a scope keeps in a cell is what the cell is for. -/
theorem Activity.Reachable.vouched {scope : ScopeId} {cell : CacheKey} {value : Value U}
    (kept : activity.moment.state.kept? scope cell = some (.ok value)) :
    activity.moment.Vouches scope value cell :=
  have sound := reachable.keeping.cellSound Conduct.settling_of_and_keeping scope cell
  reachable.keeping.vouched (fun _ _ allowed => allowed.2.2)
    (sound.filled (State.kept?_eq_some.mp kept))

/-- A cell that told a request of an outcome was settled with it. -/
theorem Activity.Reachable.settled_of_recalls {id : RequestId} {event : Event U}
    {outcome : Outcome U} (did : activity.moment.Did id event) (recalls : event.Recalls outcome) :
    ∃ scope cell, activity.moment.Settled scope cell outcome := by
  cases recalls with
  | peeked scope cell =>
      exact ⟨scope, cell, reachable.keeping.peeked Conduct.settling_of_and_keeping did⟩
  | entered scope cell =>
      exact ⟨scope, cell, reachable.keeping.awaited Conduct.settling_of_and_keeping did⟩

/-- A list that is neither converted nor decorated has an item for each parameter. -/
theorem Activity.Reachable.gathered {id : RequestId} {demand : Demand U} {scope : Scope U}
    {key : Key} {value : Value U} {binding : Binding U} {item : ServiceType}
    (began : activity.moment.Did id (.started demand)) (asks : demand.Asks scope key)
    (ended : activity.moment.Did id (.finished (.ok (.resolved value))))
    (bound : scope.registry.find? key = some binding)
    (isList : binding.recipe.source = .list item) (uncast : binding.cast = none)
    (undecorated : scope.registry.decoratorsOf binding.registered = []) :
    ∃ items, value.content = .list items ∧ items.length = binding.recipe.params.length := by
  obtain ⟨arguments, fits, content⟩ :=
    (reachable.assembled began asks ended).items binding item bound isList uncast undecorated
  have isScope : activity.moment.IsScope scope :=
    (reachable.keeping.mono fun _ _ allowed => allowed.1).named began asks.mem_scopes
  have built :=
    (isScope.grown (reachable.keeping.mono fun _ _ allowed => ⟨allowed.1, allowed.2.1⟩)).built
  refine ⟨_, content, length_itemsOf ?_ (built.listed _ _ item bound isList).2⟩
  exact fits.imp fun _ _ fit => fit.mono fun _ _ delivers => delivers.type

end Activity

/-- In whatever order requests go, values have the types that their keys promise, and nothing but a
parameter that refuses its value makes a request fail for a type. -/
theorem well_typed {activity : Activity U} (reachable : activity.Reachable) :
    activity.moment.WellTyped where
  answers := fun _ _ _ _ _ began asks ended => (reachable.keeping.yielded began asks ended).type
  instances := by
    intro scope id value kept
    obtain ⟨recipe, home, same, _, houses, type, _⟩ := reachable.vouched kept
    exact ⟨recipe, home, same, houses, type⟩
  views := fun scope id key value kept => (reachable.vouched kept).1
  unguarded := fun _ lenient => reachable.unguarded lenient
  gathers := fun _ _ _ _ _ _ _ began asks ended => reachable.gathered began asks ended
  mismatches := by
    intro id error key ended isMismatch
    rcases reachable.relayed ended key isMismatch with refuses | ⟨event, kept, did, recalls, same⟩
    · exact ⟨id, refuses, .inl rfl⟩
    · obtain ⟨scope, cell, refuser, settled⟩ := reachable.settled_of_recalls did recalls
      exact ⟨refuser, reachable.explained settled key same,
        .inr ⟨event, kept, scope, cell, did, recalls, settled⟩⟩

namespace Fussy

/-- The type under which a service is visible. -/
def view : Key := .of (.interface "sample" "I")

/-- The key of a service whose constructor asks for the view. -/
def dependent : Key := .of (.concrete "sample" "B")

/-- A service that is visible under an alias and decorated there, and one that depends on it. -/
def registrations : List (Registration Client.obliging) :=
  [.service ((Offer.factory (.concrete "sample" "A") () []).alsoAs view.type ()),
    .service (Offer.factory dependent.type () [.service view]),
    .decorator { target := view, params := [], transform := () }]

/-- The scope that registers them. -/
def scope : Scope Client.obliging :=
  ((Builder.root ⟨1⟩).addAll registrations).scope

/-- All functions succeed, but parameters refuse whatever is resolved for them. -/
def behaviour : Behaviour Client.obliging Unit := fun call world =>
  match call with
  | .accepts _ => some (false, world)
  | call => Behaviour.obliging call world

theorem detached : behaviour.Detached := by
  intro call world answer after runs
  refine ⟨world.state.contexts, ?_⟩
  cases call <;> cases runs <;> rfl

/-- The world once the scope is built. -/
def built : World Client.obliging Unit :=
  (Demand.build none registrations).afterwards behaviour { state := {}, memory := () }

/-- The world once the dependent service was asked for. -/
def refused : World Client.obliging Unit :=
  (Demand.resolve scope ⟨0⟩ dependent).afterwards behaviour built

/-- What the constructor's parameter makes of the view. -/
def error : Error := .typeMismatch view

/-- The constructor of the dependent service is refused what it needs, twice. -/
theorem served : ∃ activity : Activity Client.obliging, Activity.Served behaviour
    [(.build none registrations, .ok (.built scope)),
      (.resolve scope ⟨0⟩ dependent, .error error), (.resolve scope ⟨0⟩ dependent, .error error)]
    ((Demand.resolve scope ⟨0⟩ dependent).afterwards behaviour refused) activity := by
  have builds : (Demand.build none registrations).request.run.run behaviour
      { state := {}, memory := () } = some (.ok (.built scope), built) := rfl
  have fails : (Demand.resolve scope ⟨0⟩ dependent).request.run.run behaviour built =
      some (.error error, refused) := rfl
  have again : (Demand.resolve scope ⟨0⟩ dependent).request.run.run behaviour refused =
      some (.error error, (Demand.resolve scope ⟨0⟩ dependent).afterwards behaviour refused) := rfl
  obtain ⟨_, one, _⟩ := (Activity.Served.initial ()).next detached builds nofun
  obtain ⟨_, two, _⟩ := one.nextOn detached fails rfl List.mem_cons_self
  obtain ⟨activity, three, _⟩ := two.nextOn detached again rfl List.mem_cons_self
  exact ⟨activity, three⟩

end Fussy

/-- A constructor whose parameter refuses the decorated view fails for its type, and so does a
second request, which is told of it. -/
theorem refused_view : ∃ activity : Activity Client.obliging, activity.Reachable ∧
    activity.moment.Did ⟨1⟩ (.finished (.error Fussy.error)) ∧
      activity.moment.Did ⟨2⟩ (.finished (.error Fussy.error)) ∧
        activity.moment.WellTyped := by
  obtain ⟨activity, served⟩ := Fussy.served
  have first := (served.did 1 rfl).2
  have second := (served.did 2 rfl).2
  exact ⟨activity, served.reachable, first, second, well_typed served.reachable⟩

end Provision
