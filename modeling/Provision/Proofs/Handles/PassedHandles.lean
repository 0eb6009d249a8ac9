import Provision.Proofs.Handles.LentHandles

/-!
# Handles that are passed to functions

What a request resolves it gets ready first: the arguments of a constructor and of the decorators of
a service, each with a flag of its own.  Then it calls these functions, one after another.  What is
resolved in between has flags of its own, so the flags of the service stay as they are until its
functions have returned.

Main statement: `Demand.lends`.
-/

namespace Provision

variable {U : Client} {α β : Type}

/-! ## Parcels -/

/-- The handles among the arguments of one function go to one scope, and have the flag of the
function. -/
def Handed (scope : Scope U) (flag : FlagId) (arguments : List (Argument U)) : Prop :=
  ∀ handle ∈ handlesOf arguments, handle = { scope, flag }

/-- Flags that were numbered for functions yet to be called, each with the arguments for its
function. -/
structure Packed (scope : Scope U) (start later : Flags)
    (parcels : List (FlagId × List (Argument U))) : Prop where
  distinct : (parcels.map Prod.fst).Nodup
  new : ∀ parcel ∈ parcels, start parcel.1 = none
  lowered : ∀ parcel ∈ parcels, later parcel.1 = some false
  handed : ∀ parcel ∈ parcels, Handed scope parcel.1 parcel.2

/-- The flag of a decorator with its arguments. -/
def Stage.parcel (stage : Stage U) : FlagId × List (Argument U) :=
  (stage.flag, stage.arguments)

/-- All flags of a service with their arguments: that of its constructor and those of its
decorators. -/
def Inputs.parcels (inputs : Inputs U) : List (FlagId × List (Argument U)) :=
  (inputs.flag, inputs.arguments) :: inputs.stages.map Stage.parcel

namespace Packed

variable {scope : Scope U} {start middle later : Flags}
  {parcels : List (FlagId × List (Argument U))} {flag : FlagId} {arguments : List (Argument U)}

/-- Nothing is packed to begin with. -/
theorem nil (scope : Scope U) (start later : Flags) : Packed scope start later [] where
  distinct := List.nodup_nil
  new := fun _ member => absurd member List.not_mem_nil
  lowered := fun _ member => absurd member List.not_mem_nil
  handed := fun _ member => absurd member List.not_mem_nil

/-- A flag is numbered first, and then its arguments and all other parcels are got ready. -/
theorem cons (new : start flag = none)
    (spares : Flags.Spares [] (Function.update start flag (some false)) middle)
    (handed : Handed scope flag arguments) (packed : Packed scope middle later parcels)
    (after : Flags.Spares [] middle later) : Packed scope start later ((flag, arguments) :: parcels)
    where
  distinct := by
    rw [List.map_cons, List.nodup_cons]
    refine ⟨fun member => ?_, packed.distinct⟩
    obtain ⟨parcel, isParcel, same⟩ := List.mem_map.mp member
    have known : middle flag = some false := spares.keeps (Function.update_self ..)
    cases known.symm.trans (same ▸ packed.new parcel isParcel)
  new := by
    intro parcel member
    rcases List.mem_cons.mp member with rfl | other
    · exact new
    · exact (Flags.Spares.number start new).unknown (spares.unknown (packed.new parcel other))
  lowered := by
    intro parcel member
    rcases List.mem_cons.mp member with rfl | other
    · exact after.keeps (spares.keeps (Function.update_self ..))
    · exact packed.lowered parcel other
  handed := by
    intro parcel member
    rcases List.mem_cons.mp member with rfl | other
    · exact handed
    · exact packed.handed parcel other

/-- After the first function has returned the others are still ready. -/
theorem tail (packed : Packed scope start middle ((flag, arguments) :: parcels))
    (spares : Flags.Spares [flag] middle later) : Packed scope start later parcels where
  distinct := (List.nodup_cons.mp packed.distinct).2
  new := fun parcel member => packed.new parcel (List.mem_cons_of_mem _ member)
  lowered := by
    intro parcel member
    refine spares parcel.1 (fun spent => ?_) _
      (packed.lowered parcel (List.mem_cons_of_mem _ member))
    have isFlag : parcel.1 = flag := List.mem_singleton.mp spent
    have isParcel : parcel.1 ∈ parcels.map Prod.fst := List.mem_map_of_mem member
    rw [isFlag] at isParcel
    exact (List.nodup_cons.mp packed.distinct).1 isParcel
  handed := fun parcel member => packed.handed parcel (List.mem_cons_of_mem _ member)

end Packed

/-! ## Getting ready -/

section Resolving

variable {demand : Demand U} {resolver : Resolver U} {scope home : Scope U}
  {context : ContextId} {key service : Key} {binding : Binding U} {active : List Key}
  {flag : FlagId} {flags : Flags} {spent : List FlagId}

/-- A resolver that lends handles as it may spares all flags there are. -/
def Resolver.Lends (resolver : Resolver U) (demand : Demand U) : Prop :=
  ∀ scope, demand.Reaches scope → ∀ context key active flags,
    Request.Lends demand (Sparing [] flags fun _ _ => True)
      (resolver scope context key active) flags

/-- Resolving an argument lends handles as it should. -/
theorem Resolver.Lends.argument (lends : resolver.Lends demand) (reach : demand.Reaches scope)
    (param : Param) :
    Request.Lends demand (Sparing [] flags fun argument _ => Handed scope flag [argument])
      (resolver.argument scope context active flag param) flags := by
  cases param with
  | context => exact Request.lends_pure fun _ impossible => absurd impossible List.not_mem_nil
  | scope => exact Request.lends_pure fun _ isHandle => List.mem_singleton.mp isHandle
  | service key =>
      refine Request.lends_bind_sparing (lends scope reach context key active flags) ?_
      exact fun _ _ _ _ =>
        Request.lends_pure fun _ impossible => absurd impossible List.not_mem_nil

/-- To wrap errors of dependencies does not change what is lent. -/
theorem lends_wrapDependency {request : Request U α} {good : α → Flags → Prop} (param : Param)
    (lends : request.Lends demand (Sparing spent flags good) flags) :
    (wrapDependency service param request).Lends demand (Sparing spent flags good) flags := by
  cases param with
  | context => exact lends
  | scope => exact lends
  | service key =>
      refine Program.Lends.andThen lends fun outcome later reached => ?_
      cases outcome with
      | ok value => exact reached
      | error error => exact ⟨reached.1, nofun⟩

/-- Resolving arguments lends handles as it should, all with the flag for their function. -/
theorem Resolver.Lends.arguments (lends : resolver.Lends demand) (reach : demand.Reaches scope)
    (params : List Param) :
    Request.Lends demand (Sparing [] flags fun arguments _ => Handed scope flag arguments)
      (resolver.arguments scope context service active flag params) flags := by
  induction params generalizing flags with
  | nil => exact Request.lends_pure fun _ impossible => absurd impossible List.not_mem_nil
  | cons param params ih =>
      refine Request.lends_bind_sparing (lends_wrapDependency param (lends.argument reach param)) ?_
      intro argument later _ handed
      refine Request.lends_bind_sparing ih fun rest last _ handed' => Request.lends_pure ?_
      intro handle member
      rw [handlesOf, ← List.singleton_append, List.filterMap_append, List.mem_append] at member
      exact member.elim (handed handle) (handed' handle)

/-- Resolving what decorators need lends handles as it should, with a flag for each. -/
theorem Resolver.Lends.stages (lends : resolver.Lends demand) (reach : demand.Reaches scope)
    (decorators : List (Decorator U)) :
    Request.Lends demand
      (Sparing [] flags fun stages later => Packed scope flags later (stages.map Stage.parcel))
      (resolver.stages scope context service active decorators) flags := by
  induction decorators generalizing flags with
  | nil => exact Request.lends_pure (.nil ..)
  | cons decorator decorators ih =>
      refine Request.lends_bind_act trivial fun flag new => ?_
      refine Request.Lends.after ?_ (.number flags new)
      refine Request.lends_bind_sparing (lends.arguments reach decorator.params) ?_
      intro arguments middle spares handed
      refine Request.lends_bind_sparing ih fun rest later after packed => Request.lends_pure ?_
      exact packed.cons new spares handed after

/-- Looking whether an instance is made has nothing to do with flags. -/
theorem unflagged_isMade (scope : ScopeId) (recipe : Recipe U) :
    Request.Unflagged (isMade scope recipe) := by
  unfold isMade
  by_cases kept : recipe.lifetime.isKept = true
  · simp only [kept, if_true]
    exact Request.only_bind_act fun _ => ⟨trivial, trivial⟩
  · simp only [kept]
    exact trivial

/-- Resolving what a service needs packs its handles. -/
theorem Resolver.Lends.inputs (lends : resolver.Lends demand) (reach : demand.Reaches scope) :
    Request.Lends demand
      (Sparing [] flags fun inputs later => Packed scope flags later inputs.parcels)
      (resolver.inputs scope context key binding active) flags := by
  refine Request.lends_bind_act trivial fun flag new => ?_
  refine Request.Lends.after ?_ (.number flags new)
  have rest : ∀ arguments middle,
      Flags.Spares [] (Function.update flags flag (some false)) middle →
        Handed scope flag arguments → Request.Lends demand
          (Sparing [] middle fun (inputs : Inputs U) later =>
            Packed scope flags later inputs.parcels)
          (do
            let stages ← resolver.stages scope context key active
              (scope.registry.decoratorsOf binding.registered)
            pure { arguments, flag, stages }) middle := by
    intro arguments middle spares handed
    refine Request.lends_bind_sparing (lends.stages reach _) fun stages later after packed => ?_
    exact Request.lends_pure (packed.cons new spares handed after)
  refine Request.lends_bind_only (unflagged_isMade scope.id binding.recipe) (fun _ own => own)
    (fun _ _ => ⟨.refl _ _, nofun⟩) fun made _ => ?_
  cases made with
  | true => exact rest [] _ (.refl _ _) fun _ impossible => absurd impossible List.not_mem_nil
  | false =>
      exact Request.lends_bind_sparing (lends.arguments reach binding.recipe.params) rest

end Resolving

/-! ## Making something -/

section Making

variable {demand : Demand U} {home : Scope U} {flag : FlagId} {flags : Flags}
  {spent : List FlagId}

/-- A program may be lifted to go before a request. -/
theorem run_bind_lift (program : Program U α) (next : α → Request U β) :
    (ExceptT.lift program >>= next).run = program.andThen fun result => (next result).run :=
  Program.andThen_assoc ..

/-- After taking arguments a function is called, which may be passed them, and when it has returned
the flag is raised at once. -/
theorem lends_called {taken : Request U Unit} (unflagged : taken.Unflagged) {call : Call U}
    {answered : call.Answer → Request U α}
    (known : ∀ answer, ∃ outcome, (answered answer).run = .done outcome)
    (passes : ∀ handle ∈ call.handles, handle.MayPass demand flags call.site? ∧ handle.flag = flag)
    (lowered : flags flag = some false) {next : Except Error α → Request U β}
    {post : Except Error β → Flags → Prop} (rest : ∀ outcome,
      (next outcome).Lends demand post (Function.update flags flag (some true))) :
    Request.Lends demand post
      (ExceptT.lift (do
          taken
          let answer ← Request.callClient call
          answered answer : Request U α).run >>= fun outcome => do
        Request.act (.raise flag)
        next outcome) flags := by
  have raises : ∀ outcome : Except Error α, Program.Lends demand post
      (.perform (.raise flag) fun _ => (next outcome).run) flags :=
    fun outcome => ⟨lowered, fun _ _ => rest outcome⟩
  rw [Request.Lends, run_bind_lift, ExceptT.run_bind, Program.bind_eq_andThen,
    Program.andThen_assoc]
  refine Program.Only.lends_andThen unflagged (fun _ own => own) fun outcome _ => ?_
  cases outcome with
  | error error => exact raises (.error error)
  | ok _ =>
      refine ⟨fun handle passed => (passes handle passed).1, fun answer => ?_⟩
      obtain ⟨outcome, isDone⟩ := known answer
      have unfolds : (((answered answer).run).andThen fun outcome =>
          (do
            Request.act (.raise flag)
            next outcome : Request U β).run) =
          .perform (.raise flag) fun _ => (next outcome).run := by
        rw [isDone]
        rfl
      have goesOn := raises outcome
      rw [← unfolds] at goesOn
      refine ⟨fun _ handle passed => ?_, goesOn⟩
      rw [(passes handle passed).2]
      exact ⟨_, unfolds⟩

/-- The handles that a function is passed for a scope, all with one flag. -/
theorem Handed.mayPass {arguments : List (Argument U)} {recipe : Recipe U}
    (handed : Handed home flag arguments) (reach : demand.Reaches home)
    (lowered : flags flag = some false) : ∀ handle ∈ handlesOf arguments,
      handle.MayPass demand flags (some ⟨home.id, recipe⟩) ∧ handle.flag = flag := by
  intro handle member
  obtain rfl := handed handle member
  exact ⟨⟨rfl, reach, lowered⟩, rfl⟩

/-- The flag is raised once there is an instance, or none could be made. -/
theorem lends_construct {context : ContextId} {recipe : Recipe U} {arguments : List (Argument U)}
    {closeMade : Bool} (reach : demand.Reaches home) (handed : Handed home flag arguments)
    (lowered : flags flag = some false) :
    Request.Lends demand (Sparing [flag] flags fun _ _ => True)
      (construct home.id context recipe arguments flag closeMade) flags := by
  have finishes : ∀ outcome : Outcome U,
      Request.Lends demand (Sparing [flag] flags fun _ _ => True)
        (do
          let made ← Request.ofExcept outcome
          ensureUsable context
          if closeMade then
            attachCloser home.id context recipe made
          pure made) (Function.update flags flag (some true)) := by
    intro outcome
    refine Request.Lends.after (Request.Unflagged.lends ?_) (.spend flags flag)
    refine (unflagged_ofExcept outcome).bind fun made => ?_
    refine (unflagged_ensureUsable context).bind fun _ => ?_
    cases closeMade with
    | false => exact trivial
    | true => exact (unflagged_attachCloser _ _ _ _).bind fun _ => trivial
  refine Request.lends_bind_only (unflagged_ensureUsable context) (fun _ own => own)
    (fun _ _ => ⟨.refl _ _, nofun⟩) fun _ _ => ?_
  refine Request.lends_bind_only (unflagged_report _) (fun _ own => own)
    (fun _ _ => ⟨.refl _ _, nofun⟩) fun _ _ => ?_
  unfold Recipe.produce
  cases recipe.source with
  | value content => exact ⟨lowered, fun _ _ => finishes (.ok _)⟩
  | list item => exact ⟨lowered, fun _ _ => finishes (.ok _)⟩
  | factory make =>
      refine lends_called (unflagged_takeAll _ _) ?_ (handed.mayPass reach lowered) lowered finishes
      intro answer
      cases answer <;> exact ⟨_, rfl⟩

/-- The flag of each decorator is raised when the decorator has returned. -/
theorem lends_decorateAll {start : Flags} {recipe : Recipe U} {stages : List (Stage U)}
    {value : Value U} (reach : demand.Reaches home)
    (packed : Packed home start flags (stages.map Stage.parcel)) :
    Request.Lends demand (Sparing (stages.map Stage.flag) flags fun _ _ => True)
      (decorateAll ⟨home.id, recipe⟩ stages value) flags := by
  induction stages generalizing flags value with
  | nil => exact Request.lends_pure trivial
  | cons stage stages ih =>
      have spent := Flags.Spares.spend flags stage.flag
      have lowered : flags stage.flag = some false := packed.lowered _ List.mem_cons_self
      have handed : Handed home stage.flag stage.arguments := packed.handed _ List.mem_cons_self
      have finishes : ∀ outcome : Outcome U,
          Request.Lends demand (Sparing ((stage :: stages).map Stage.flag) flags fun _ _ => True)
            (do
              let decorated ← Request.ofExcept outcome
              decorateAll ⟨home.id, recipe⟩ stages decorated)
            (Function.update flags stage.flag (some true)) := by
        intro outcome
        refine Request.Lends.after ?_ (spent.mono fun _ member => ?_)
        · refine Request.lends_bind_only (unflagged_ofExcept outcome) (fun _ own => own)
            (fun _ _ => ⟨.refl _ _, nofun⟩) fun decorated _ => ?_
          refine Program.Lends.mono (ih (packed.tail spent)) fun _ _ reached => ⟨?_, reached.2⟩
          exact reached.1.mono fun _ member => List.mem_cons_of_mem _ member
        · rw [List.mem_singleton.mp member]
          exact List.mem_cons_self
      unfold decorateAll Stage.apply
      by_cases typed : value.type = stage.decorator.target.type
      · simp only [typed, if_true]
        refine lends_called (unflagged_takeAll _ _) ?_ (handed.mayPass reach lowered) lowered
          finishes
        intro answer
        cases answer <;> exact ⟨_, rfl⟩
      · simp only [typed, if_false]
        exact ⟨lowered, fun _ _ => finishes (.error _)⟩

/-- Nothing but decorating has to do with flags when a service is finished. -/
theorem lends_finish {start : Flags} {context : ContextId} {key : Key} {binding : Binding U}
    {stages : List (Stage U)} {made : Value U} (reach : demand.Reaches home)
    (packed : Packed home start flags (stages.map Stage.parcel)) :
    Request.Lends demand (Sparing (stages.map Stage.flag) flags fun _ _ => True)
      (finish home.id context key binding stages made) flags := by
  refine Request.lends_bind_only (unflagged_convert _ _ _ _) (fun _ own => own)
    (fun _ _ => ⟨.refl _ _, nofun⟩) fun converted _ => ?_
  refine Request.lends_bind_sparing (lends_decorateAll reach packed) fun value later _ _ => ?_
  refine Request.Unflagged.lends ?_
  by_cases uncast : binding.cast.isNone = true
  · simp only [uncast, if_true]
    exact (unflagged_attachCloser _ _ _ _).bind fun _ => trivial
  · simp only [uncast]
    exact trivial

/-- A cell has nothing to do with flags. -/
theorem lends_keepIf {kept : Bool} {scope : ScopeId} {cell : CacheKey}
    {create : Request U (Value U)}
    (creates : create.Lends demand (Sparing spent flags fun _ _ => True) flags) :
    Request.Lends demand (Sparing spent flags fun _ _ => True) (keepIf kept scope cell create)
      flags := by
  cases kept with
  | false => exact creates
  | true =>
      refine Request.lends_bind_act trivial fun found _ => ?_
      cases found with
      | some outcome => exact Request.lends_ofExcept outcome
      | none =>
          rw [Request.Lends, run_bind_lift]
          refine Program.Lends.andThen creates fun outcome later reached => ?_
          refine Request.lends_bind_act trivial fun _ _ => ?_
          exact (Request.lends_ofExcept outcome).after reached.1

end Making

/-! ## Requests for keys -/

section Keys

variable {demand : Demand U} {resolver : Resolver U} {scope home : Scope U}
  {context : ContextId} {key : Key} {binding : Binding U} {active : List Key} {flags : Flags}

/-- A demand that reaches a scope reaches the homes of its services. -/
theorem Demand.Reaches.atHome (reach : demand.Reaches scope)
    (isHome : binding.home? scope = some home) : demand.Reaches home :=
  reach.imp fun _ above => ⟨above.1, (Binding.above_of_home isHome).trans above.2⟩

/-- All flags that were numbered for a service are new, so those that there were are spared. -/
theorem Resolver.Lends.create (lends : resolver.Lends demand) (reach : demand.Reaches home) :
    Request.Lends demand (Sparing [] flags fun _ _ => True)
      (resolver.create home context key binding active) flags := by
  rw [Resolver.create_eq]
  refine Request.lends_bind (lends.inputs reach) (fun _ _ reached => ⟨reached.1, nofun⟩) ?_
  rintro inputs ready ⟨before, packs⟩
  have packed := packs inputs rfl
  have makes : Request.Lends demand (Sparing [inputs.flag] ready fun _ _ => True)
      (keepIf binding.recipe.lifetime.isKept home.id (.made binding.recipe.id)
        (construct home.id context binding.recipe inputs.arguments inputs.flag
          binding.cast.isSome)) ready :=
    lends_keepIf (lends_construct reach (packed.handed _ List.mem_cons_self)
      (packed.lowered _ List.mem_cons_self))
  have first : ∀ flag ∈ [inputs.flag], flags flag = none := by
    intro flag member
    rw [List.mem_singleton.mp member]
    exact packed.new _ List.mem_cons_self
  refine Request.lends_bind makes (fun _ _ reached => ⟨.ofNew before reached.1 first, nofun⟩) ?_
  rintro made after ⟨spares, _⟩
  refine Program.Lends.mono (lends_keepIf (lends_finish reach (packed.tail spares))) ?_
  intro outcome last reached
  refine ⟨.ofNew (.ofNew before spares first) reached.1 fun flag member => ?_, fun _ _ => trivial⟩
  obtain ⟨stage, isStage, rfl⟩ := List.mem_map.mp member
  exact packed.new _ (List.mem_cons_of_mem _ (List.mem_map_of_mem isStage))

/-- Resolving a value in its home lends handles as it should. -/
theorem Resolver.Lends.resolveIn (lends : resolver.Lends demand) (reach : demand.Reaches home) :
    Request.Lends demand (Sparing [] flags fun _ _ => True)
      (resolver.resolveIn home context key binding active) flags := by
  have recalls : Request.Unflagged (recallShown home.id binding) := by
    unfold recallShown
    cases binding.recipe.lifetime.isKept with
    | false => exact trivial
    | true => exact fun _ => ⟨trivial, trivial⟩
  refine Request.lends_bind_only recalls (fun _ own => own) (fun _ _ => ⟨.refl _ _, nofun⟩) ?_
  intro found _
  cases found with
  | some outcome =>
      exact Request.Unflagged.lends ((unflagged_report _).bind fun _ => unflagged_ofExcept outcome)
  | none =>
      by_cases again : key ∈ active
      · simp only [again, if_true]
        exact Request.lends_fail _
      · simp only [again, if_false]
        exact lends.create reach

/-- One level of resolution lends handles as it should if the level below does. -/
theorem Resolver.Lends.resolve (lends : resolver.Lends demand) : resolver.resolve.Lends demand := by
  intro scope reach context key active flags
  have goesOn : ∀ binding : Binding U,
      Request.Lends demand (Sparing [] flags fun _ _ => True)
        (do
          let effective ← effectiveScope scope key binding
          resolver.resolveIn effective context key binding active) flags := by
    intro binding
    refine Request.lends_bind_only
      ((only_effectiveScope scope key binding).and (unflagged_effectiveScope scope key binding))
      (fun _ own => own.2) (fun _ _ => ⟨.refl _ _, nofun⟩) fun home reached => ?_
    exact lends.resolveIn (reach.atHome (reached.1.1 home rfl))
  refine Request.lends_bind_only (unflagged_ensureUsable context) (fun _ own => own)
    (fun _ _ => ⟨.refl _ _, nofun⟩) fun _ _ => ?_
  refine Request.lends_bind_only (unflagged_ensureOpen scope.id) (fun _ own => own)
    (fun _ _ => ⟨.refl _ _, nofun⟩) fun _ _ => ?_
  cases scope.registry.find? key with
  | none => exact Request.lends_fail _
  | some binding =>
      cases source : binding.recipe.source with
      | value content =>
          simp only [source]
          exact Request.Unflagged.lends (unflagged_convert _ _ _ _)
      | factory make =>
          simp only [source]
          exact goesOn binding
      | list item =>
          simp only [source]
          exact goesOn binding

/-- Resolution lends handles as it should at every depth. -/
theorem lends_resolveWithin (demand : Demand U) (depth : Nat) :
    (resolveWithin depth : Resolver U).Lends demand := by
  induction depth with
  | zero => exact fun _ _ _ _ _ _ => trivial
  | succ depth ih => exact ih.resolve

/-- A request for a key lends handles as it should. -/
theorem lends_resolve (reach : demand.Reaches scope) (context : ContextId) (key : Key) :
    Request.Lends demand (Sparing [] flags fun _ _ => True)
      (Provision.resolve scope context key) flags :=
  lends_resolveWithin demand _ scope reach context key [] flags

end Keys

/-! ## Demands -/

section Demands

variable {demand : Demand U} {scope : Scope U} {context : ContextId} {key : Key}
  {flags : Flags}

/-- A typed request for a key lends handles as it should. -/
theorem lends_resolveTyped (reach : demand.Reaches scope) :
    Request.Lends demand (Sparing [] flags fun _ _ => True) (scope.resolveTyped context key)
      flags := by
  refine Request.lends_bind_sparing (lends_resolve reach context key) fun value _ _ _ => ?_
  by_cases typed : value.type = key.type
  · simp only [typed, if_true]
    exact Request.lends_pure trivial
  · simp only [typed, if_false]
    exact Request.lends_fail _

/-- The handles for a routine are handles to the scope that was demand, and their flag is raised. -/
theorem lends_inject (reach : demand.Reaches scope) {flag : FlagId} (params : List Param)
    (raised : flags flag = some true) :
    Request.Lends demand (Sparing [] flags fun arguments later => Handed scope flag arguments ∧
      later flag = some true) (scope.inject context flag params) flags := by
  have resolves : Resolver.Lends (fun scope context key _ => Provision.resolve scope context key)
      demand := fun scope reach context key _ flags => lends_resolve reach context key
  induction params generalizing flags with
  | nil =>
      exact Request.lends_pure ⟨fun _ impossible => absurd impossible List.not_mem_nil, raised⟩
  | cons param params ih =>
      refine Request.lends_bind_sparing (resolves.argument reach param) ?_
      intro argument later spares handed
      refine Request.lends_bind_sparing (ih (spares.keeps raised)) fun rest last _ handed' => ?_
      refine Request.lends_pure ⟨fun handle member => ?_, handed'.2⟩
      rw [handlesOf, ← List.singleton_append, List.filterMap_append, List.mem_append] at member
      exact member.elim (handed handle) (handed'.1 handle)

/-- The arguments of a routine are handles that it may be passed. -/
theorem lends_invocation {params : List Param} {routine : U.Routine} :
    Request.Lends (.invoke scope context params routine)
      (Sparing [] flags fun arguments later => ∀ handle ∈ handlesOf arguments,
        handle.MayPass (.invoke scope context params routine) later none)
      (scope.invocation context params) flags := by
  unfold Scope.invocation
  refine Request.lends_bind_only (unflagged_ensureUsable context) (fun _ own => own)
    (fun _ _ => ⟨.refl _ _, nofun⟩) fun _ _ => ?_
  refine Request.lends_bind_only (unflagged_ensureOpen scope.id) (fun _ own => own)
    (fun _ _ => ⟨.refl _ _, nofun⟩) fun _ _ => ?_
  refine Request.lends_bind_act trivial fun flag new => ?_
  refine Request.lends_bind_act (Function.update_self ..) fun _ _ => ?_
  have numbered := Flags.Spares.number flags new
  have raises := Flags.Spares.spend (Function.update flags flag (some false)) flag
  refine Request.Lends.after ?_ (.ofNew numbered raises fun other member => ?_)
  · refine Request.lends_bind_sparing
      (lends_inject ⟨scope, List.mem_cons_self, .refl scope⟩ params (Function.update_self ..)) ?_
    rintro arguments later _ ⟨handed, raised⟩
    refine Request.lends_bind_only (unflagged_takeAll params arguments) (fun _ own => own)
      (fun _ _ => ⟨.refl _ _, nofun⟩) fun _ _ => Request.lends_pure fun handle member => ?_
    obtain rfl := handed handle member
    exact ⟨⟨context, params, routine, rfl⟩, raised⟩
  · rw [List.mem_singleton.mp member]
    exact new

/-- Invoking a routine lends handles as it should. -/
theorem lends_invoke (params : List Param) (routine : U.Routine) :
    Request.Lends (.invoke scope context params routine) (Sparing [] flags fun _ _ => True)
      (scope.invoke context params fun arguments =>
        Program.callClient (.enact routine arguments)) flags := by
  refine Request.lends_bind_sparing lends_invocation fun arguments later _ passes => ?_
  exact ⟨passes, fun answer => ⟨nofun, .refl _ _, fun _ _ => trivial⟩⟩

/-- Attaching closers has nothing to do with flags. -/
theorem unflagged_attachAll (scope : ScopeId) (closers : List (PendingCloser U)) :
    (Builder.attachAll scope closers).Unflagged := by
  induction closers with
  | nil => exact trivial
  | cons closer rest ih =>
      refine Request.only_bind_act fun _ => ⟨trivial, ?_⟩
      exact (unflagged_report _).bind fun _ => ih

/-- Completing a builder has nothing to do with flags. -/
theorem unflagged_complete (builder : Builder U) : builder.complete.Unflagged := by
  by_cases sound : builder.issues = []
  · rw [Builder.complete_of_sound sound]
    exact (unflagged_attachAll builder.id builder.closers).bind fun _ =>
      (unflagged_report _).bind fun _ => trivial
  · rw [Builder.complete_of_wrong sound]
    exact trivial

/-- Building has nothing to do with flags. -/
theorem unflagged_build (builder : Builder U) : builder.build.Unflagged := by
  cases above : builder.parent with
  | none =>
      rw [Builder.build_of_root above]
      exact unflagged_complete builder
  | some parent =>
      rw [Builder.build_of_child above]
      exact (unflagged_ensureOpen parent.id).bind fun _ => unflagged_complete builder

/-- Building a scope has nothing to do with flags. -/
theorem unflagged_buildScope (parent : Option (Scope U)) (registrations : List (Registration U)) :
    (buildScope parent registrations).Unflagged := by
  have numbers : (newBuilder parent : Program U (Builder U)).Only Event.Unflagged
      fun _ => True := by
    rw [newBuilder_eq]
    exact fun _ => ⟨trivial, trivial⟩
  have registers : ∀ builder : Builder U,
      (Builder.register registrations builder).Only Event.Unflagged fun _ => True := by
    intro builder
    induction registrations generalizing builder with
    | nil => exact trivial
    | cons registration rest ih =>
        unfold Builder.register
        cases builder.notice? registration with
        | none => exact ih (builder.add registration)
        | some notice => exact ⟨rfl, fun _ => ⟨trivial, ih (builder.add registration)⟩⟩
  refine Request.only_bind_lift numbers fun builder _ => ?_
  exact Request.only_bind_lift (registers builder) fun builder _ => unflagged_build builder

/-- Closing a scope has nothing to do with flags. -/
theorem unflagged_close (scope : Scope U) (context : ContextId) :
    (scope.close context).Unflagged := by
  have runs : ∀ closers : List (PendingCloser U),
      (Scope.runClosers scope.id context closers).Only Event.Unflagged fun _ => True := by
    intro closers
    induction closers with
    | nil => exact trivial
    | cons closer rest ih =>
        refine ⟨rfl, fun failure => ⟨trivial, ?_⟩⟩
        cases failure with
        | none => exact ih
        | some failure => exact ⟨rfl, fun _ => ⟨trivial, ih.andThen fun _ _ => trivial⟩⟩
  refine Request.only_bind_act fun answer => ⟨trivial, ?_⟩
  cases answer with
  | none => exact trivial
  | some closers =>
      refine (unflagged_report _).bind fun _ => ?_
      refine Request.only_bind_lift (runs closers.reverse) fun failures _ => ?_
      cases failures <;> exact trivial

/-- Letting go of a scope has nothing to do with flags. -/
theorem unflagged_discard (scope : Scope U) :
    scope.discard.Only Event.Unflagged fun _ => True := by
  intro pending
  refine ⟨trivial, ?_⟩
  cases pending with
  | zero => exact trivial
  | succ pending => exact ⟨rfl, fun _ => ⟨trivial, trivial⟩⟩

/-- A request that is answered with what another yields. -/
theorem Request.Lends.answers {request : Request U α} {post : Except Error α → Flags → Prop}
    (lends : request.Lends demand post flags) (reply : α → Reply U) :
    Request.Lends demand (fun _ _ => True)
      (do
        let value ← request
        pure (reply value)) flags :=
  Request.lends_bind lends (fun _ _ _ => trivial) fun _ _ _ => trivial

/-- Whatever a client demands, handles are passed as they may be. -/
theorem Demand.lends (demand : Demand U) (flags : Flags) :
    demand.request.Lends demand (fun _ _ => True) flags := by
  have through : ∀ {handle : Handle U} {key : Key} {request : Request U (Value U)},
      request.Lends demand (Sparing [] flags fun _ _ => True) flags →
        Request.Lends demand (Sparing [] flags fun _ _ => True)
          (do
            handle.ensureReady key
            request) flags := by
    intro handle key request lends
    exact Request.lends_bind_only (unflagged_ensureReady handle key) (fun _ own => own)
      (fun _ _ => ⟨.refl _ _, nofun⟩) fun _ _ => lends
  have unflagged : ∀ {request : Request U (Reply U)}, request.Unflagged →
      request.Lends demand (fun _ _ => True) flags := by
    intro request unflagged
    have lends : request.Lends demand (Sparing [] flags fun _ _ => True) flags := unflagged.lends
    exact Program.Lends.mono lends fun _ _ _ => trivial
  have reach : ∀ scope ∈ demand.scopes, demand.Reaches scope :=
    fun scope named => ⟨scope, named, .refl scope⟩
  cases demand with
  | resolve scope context key =>
      exact (lends_resolve (reach scope List.mem_cons_self) context key).answers .resolved
  | resolveTyped scope context key =>
      exact (lends_resolveTyped (reach scope List.mem_cons_self)).answers .resolved
  | resolveThrough handle context key =>
      exact (through (lends_resolve (reach handle.scope List.mem_cons_self) context key)).answers
        .resolved
  | resolveTypedThrough handle context key =>
      exact (through (lends_resolveTyped (reach handle.scope List.mem_cons_self))).answers .resolved
  | invoke scope context params routine => exact (lends_invoke params routine).answers .invoked
  | build parent registrations =>
      exact unflagged ((unflagged_buildScope parent registrations).bind fun _ => trivial)
  | close scope context => exact unflagged ((unflagged_close scope context).bind fun _ => trivial)
  | discard scope =>
      exact unflagged (Request.only_bind_lift (unflagged_discard scope) fun _ _ => trivial)

end Demands

end Provision
