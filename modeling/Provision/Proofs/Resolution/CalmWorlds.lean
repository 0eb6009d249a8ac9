import Provision.Proofs.Registries.BuiltRegistries
import Provision.Proofs.Instances.FailureReplay
import Provision.Proofs.Resolution.SuccessAlone

/-!
# Calm worlds

A world is calm for a scope if all scopes from it to the root are open and keep nothing but values
of the types they should have.  Alone, making and finishing a value succeeds there if its inputs
are there, and leaves the world calm with all that was kept still kept.

That a request returns, with a value or an error, is an existential statement: it says that nothing
on the way has to wait for a cell that nobody fills, or nests too deep.  The judgement has one rule
for each way of composing requests, and one for each kind of operation that looks at the world.

Main statements: `succeeds_produceFrom` and `Request.returns_bind`.
-/

namespace Provision

open Moment Request

variable {U : Client} {σ α : Type}

/-! ## Scopes above -/

namespace Scope.Above

variable {above other base : Scope U}

/-- A scope above another is found from there under its number. -/
theorem ancestor?_eq (isAbove : above.Above base) (distinct : base.lineage.Nodup) :
    base.ancestor? above.id = some above := by
  induction isAbove with
  | refl => exact ancestor?_self _
  | child node upper ih =>
      obtain ⟨fresh, distinct⟩ := List.nodup_cons.mp distinct
      have differs : node.id ≠ above.id := fun same => fresh (same ▸ upper.id_mem)
      rw [ancestor?_child_of_ne differs, ih distinct]

/-- Scopes above one scope have different numbers. -/
theorem eq_of_id (isAbove : above.Above base) (isAbove' : other.Above base)
    (distinct : base.lineage.Nodup) (same : above.id = other.id) : above = other := by
  have found := isAbove.ancestor?_eq distinct
  rw [same, isAbove'.ancestor?_eq distinct] at found
  exact (Option.some.inj found).symm

end Scope.Above

/-! ## Calm worlds -/

/-- What type a value in a cell of a scope has. -/
def Scope.Admits (scope : Scope U) (value : Value U) : CacheKey → Prop
  | .made id => ∀ key binding, scope.registry.find? key = some binding → binding.recipe.id = id →
      binding.recipe.lifetime.isKept = true → value.type = binding.recipe.produces
  | .shown _ key => value.type = key.type

/-- A context is usable, and the scopes from one to the root are open and keep only values. -/
structure World.Calm (world : World U σ) (base : Scope U) (context : ContextId) : Prop where
  usable : world.state.contexts.error? context = none
  opened : ∀ scope ∈ base.lineage, (world.state.scope scope).closed = false
  cells : ∀ {above : Scope U}, above.Above base → ∀ cell, world.state.cell? above.id cell = none ∨
    ∃ value, world.state.cell? above.id cell = some (.filled (.ok value)) ∧
      above.Admits value cell

/-- A context is usable, the scopes from one to the root are open, and whatever they keep is
admitted to its cell. -/
structure World.Stocked (world : World U σ) (base : Scope U) (context : ContextId)
    (admits : Scope U → CacheKey → Outcome U → Prop) : Prop where
  usable : world.state.contexts.error? context = none
  opened : ∀ scope ∈ base.lineage, (world.state.scope scope).closed = false
  cells : ∀ {above : Scope U}, above.Above base → ∀ cell, world.state.cell? above.id cell = none ∨
    ∃ outcome, world.state.cell? above.id cell = some (.filled outcome) ∧
      admits above cell outcome

/-- All that was kept is still kept. -/
def World.Retains (world last : World U σ) : Prop :=
  ∀ {scope cell outcome}, world.state.cell? scope cell = some (.filled outcome) →
    last.state.cell? scope cell = some (.filled outcome)

/-- A calm world in which all that was kept is still kept. -/
structure World.Onward (world : World U σ) (base : Scope U) (context : ContextId)
    (last : World U σ) : Prop where
  calm : last.Calm base context
  retains : ∀ {scope cell outcome}, world.state.cell? scope cell = some (.filled outcome) →
    last.state.cell? scope cell = some (.filled outcome)

/-- The world with some content in a cell. -/
def World.fill (world : World U σ) (scope : ScopeId) (cell : CacheKey) (content : Cell U) :
    World U σ :=
  { world with
    state := world.state.setScope scope
      (Operation.fillCell (world.state.scope scope) cell content) }

namespace World

variable {world middle last : World U σ} {base : Scope U} {context : ContextId}

/-- Filling a cell closes nothing. -/
theorem closed_fill (scope other : ScopeId) (cell : CacheKey) (content : Cell U) :
    ((world.fill scope cell content).state.scope other).closed =
      (world.state.scope other).closed := by
  unfold fill
  rw [State.scope_setScope]
  split
  · next same => subst same; rfl
  · rfl

/-- Filling a cell fills this one only. -/
theorem cell?_fill (scope other : ScopeId) (cell wanted : CacheKey) (content : Cell U) :
    (world.fill scope cell content).state.cell? other wanted =
      if scope = other ∧ cell = wanted then some content else world.state.cell? other wanted :=
  State.cell?_setScope_fillCell ..

/-- A calm world is onward from itself. -/
theorem Calm.onward (calm : world.Calm base context) : world.Onward base context world :=
  ⟨calm, fun kept => kept⟩

theorem Onward.trans (first : world.Onward base context middle)
    (second : middle.Onward base context last) : world.Onward base context last :=
  ⟨second.calm, fun kept => second.retains (first.retains kept)⟩

/-- Worlds that are alike retain what is kept. -/
theorem Alike.retains (alike : world.Alike last) : world.Retains last :=
  fun kept => (alike.cells _ _).trans kept

/-- What is stocked in a world is stocked in those that are like it. -/
theorem Stocked.alike {admits : Scope U → CacheKey → Outcome U → Prop}
    (stocked : world.Stocked base context admits) (alike : world.Alike last) :
    last.Stocked base context admits where
  usable := alike.usable stocked.usable
  opened := fun scope member => alike.opened (stocked.opened scope member)
  cells := fun isAbove cell => by
    rw [alike.cells]
    exact stocked.cells isAbove cell

/-- Numbering scopes leaves a world like it was. -/
theorem alike_numbering (world : World U σ) (count : Nat) : world.Alike (world.numbering count) :=
  ⟨id, fun _ => rfl, fun _ _ => rfl⟩

/-- All scopes above are open in a calm world. -/
theorem Calm.open_of_above (calm : world.Calm base context) {above : Scope U}
    (isAbove : above.Above base) : (world.state.scope above.id).closed = false :=
  calm.opened _ isAbove.id_mem

/-- A cell that is entered, and filled with what belongs there. -/
theorem Stocked.fill {admits : Scope U → CacheKey → Outcome U → Prop}
    (stocked : world.Stocked base context admits) (distinct : base.lineage.Nodup)
    {above : Scope U} (isAbove : above.Above base) {cell : CacheKey} {outcome : Outcome U}
    (isAdmitted : admits above cell outcome) (empty : world.state.cell? above.id cell = none)
    (alike : (world.fill above.id cell .filling).Alike last) :
    (last.fill above.id cell (.filled outcome)).Stocked base context admits ∧
      world.Retains (last.fill above.id cell (.filled outcome)) := by
  have same : ∀ scope wanted, ¬ (above.id = scope ∧ cell = wanted) →
      (last.fill above.id cell (.filled outcome)).state.cell? scope wanted =
        world.state.cell? scope wanted := by
    intro scope wanted differs
    rw [cell?_fill, if_neg differs, alike.cells, cell?_fill, if_neg differs]
  refine ⟨⟨alike.usable stocked.usable, fun scope member => ?_, fun {other} isAbove' wanted => ?_⟩,
    ?_⟩
  · rw [closed_fill]
    refine alike.opened ?_
    rw [closed_fill]
    exact stocked.opened scope member
  · by_cases here : above.id = other.id ∧ cell = wanted
    · obtain ⟨ids, rfl⟩ := here
      obtain rfl := isAbove.eq_of_id isAbove' distinct ids
      exact .inr ⟨outcome, (cell?_fill ..).trans (if_pos ⟨rfl, rfl⟩), isAdmitted⟩
    · rw [same other.id wanted here]
      exact stocked.cells isAbove' wanted
  · intro scope wanted kept filled
    by_cases here : above.id = scope ∧ cell = wanted
    · obtain ⟨rfl, rfl⟩ := here
      rw [empty] at filled
      cases filled
    · rw [same scope wanted here, filled]

/-- A calm world is stocked with nothing but values. -/
theorem calm_iff_stocked : world.Calm base context ↔
    world.Stocked base context fun above cell outcome =>
      ∃ value, outcome = .ok value ∧ above.Admits value cell := by
  constructor
  · intro calm
    refine ⟨calm.usable, calm.opened, fun isAbove cell => (calm.cells isAbove cell).imp_right ?_⟩
    exact fun ⟨value, filled, admits⟩ => ⟨_, filled, value, rfl, admits⟩
  · intro stocked
    refine ⟨stocked.usable, stocked.opened, fun isAbove cell =>
      (stocked.cells isAbove cell).imp_right ?_⟩
    rintro ⟨_, filled, value, rfl, admits⟩
    exact ⟨value, filled, admits⟩

/-- Worlds like a calm one are onward from it. -/
theorem Calm.alike (calm : world.Calm base context) (alike : world.Alike last) :
    world.Onward base context last :=
  ⟨calm_iff_stocked.mpr ((calm_iff_stocked.mp calm).alike alike), alike.retains⟩

/-- A cell that is entered, and filled with a value that belongs there. -/
theorem Calm.fill (calm : world.Calm base context) (distinct : base.lineage.Nodup)
    {above : Scope U} (isAbove : above.Above base) {cell : CacheKey} {value : Value U}
    (admits : above.Admits value cell) (empty : world.state.cell? above.id cell = none)
    (alike : (world.fill above.id cell .filling).Alike last) :
    world.Onward base context (last.fill above.id cell (.filled (.ok value))) := by
  obtain ⟨stocked, retains⟩ := (calm_iff_stocked.mp calm).fill distinct isAbove
    ⟨value, rfl, admits⟩ empty alike
  exact ⟨calm_iff_stocked.mpr stocked, retains⟩

end World

/-! ## Making what is kept -/

section Requests

variable {behaviour : Behaviour U σ} {base home lower : Scope U} {context : ContextId}
  {world : World U σ} {key : Key} {binding : Binding U} {resolver : Resolver U} {active : List Key}

/-- Looking for an instance finds it if it is kept. -/
theorem succeeds_isMade (recipe : Recipe U) (scope : ScopeId) :
    (isMade scope recipe).Succeeds behaviour world fun made last => last = world ∧
      (made = true → recipe.lifetime.isKept = true ∧
        ∃ outcome, world.state.cell? scope (.made recipe.id) = some (.filled outcome)) := by
  unfold isMade
  by_cases kept : recipe.lifetime.isKept = true
  · rw [if_pos kept]
    refine succeeds_bind_act rfl (succeeds_pure ⟨rfl, fun made => ⟨kept, ?_⟩⟩)
    obtain ⟨outcome, found⟩ := Option.isSome_iff_exists.mp made
    exact ⟨outcome, State.kept?_eq_some.mp found⟩
  · rw [if_neg kept]
    exact succeeds_pure ⟨rfl, nofun⟩

/-- Looking for the value of a key finds it if it is kept. -/
theorem succeeds_recallShown (binding : Binding U) (scope : ScopeId) :
    (recallShown scope binding).Succeeds behaviour world fun shown last => last = world ∧
      ∀ outcome, shown = some outcome → binding.recipe.lifetime.isKept = true ∧
        world.state.cell? scope (.shown binding.recipe.id binding.registered) =
          some (.filled outcome) := by
  by_cases kept : binding.recipe.lifetime.isKept = true
  · have looks : recallShown scope binding =
        Request.act (.peek scope (.shown binding.recipe.id binding.registered)) := if_pos kept
    rw [looks]
    exact ⟨_, world, rfl, rfl, fun outcome shown => ⟨kept, State.kept?_eq_some.mp shown⟩⟩
  · have skips : recallShown scope binding = pure none := if_neg kept
    rw [skips]
    exact succeeds_pure ⟨rfl, nofun⟩

variable (built : base.Built)

include built

/-- An instance may be kept if it has the type that its recipe makes. -/
theorem Scope.Above.admits_made (isAbove : home.Above base)
    (bound : home.registry.find? key = some binding)
    (kept : binding.recipe.lifetime.isKept = true) (value : Value U) :
    home.Admits value (.made binding.recipe.id) ↔ value.type = binding.recipe.produces := by
  constructor
  · exact fun admits => admits key binding bound rfl kept
  · intro typed other found bound' same _
    rw [typed, ((built.above isAbove).sound.agree bound bound' same.symm kept).1]

variable (grants : behaviour.Grants)

include grants

/-- A value is taken from its cell or made and put there. -/
theorem succeeds_keepIf {kept : Bool} {above : Scope U} {cell : CacheKey}
    {create : Request U (Value U)} {type : ServiceType} (isAbove : above.Above base)
    (calm : world.Calm base context)
    (admits : kept = true → ∀ value : Value U, above.Admits value cell ↔ value.type = type)
    (making : Request.Only Event.Making (Makes True type) create)
    (creates : (kept = true → world.state.cell? above.id cell = none) →
      ∀ entered : World U σ, entered.state.contexts.error? context = none →
        (entered.state.scope above.id).closed = false →
          create.Succeeds behaviour entered fun _ _ => True) :
    (keepIf kept above.id cell create).Succeeds behaviour world fun value last =>
      value.type = type ∧ world.Onward base context last := by
  cases kept with
  | false =>
      refine ((creates nofun world calm.usable (calm.open_of_above isAbove)).along making
        grants.but).mono ?_
      rintro value last ⟨_, makes, alike⟩
      exact ⟨makes.type trivial value rfl, calm.alike alike⟩
  | true =>
      rcases calm.cells isAbove cell with empty | ⟨value, filled, isAdmitted⟩
      · have performs : (Operation.enter above.id cell).perform world.state =
            some (none, (world.fill above.id cell .filling).state) := by
          have found : (world.state.scope above.id).cells.get? cell = none := empty
          rw [Operation.perform, found]
          rfl
        refine succeeds_bind_act performs ?_
        have enters := creates (fun _ => empty) (world.fill above.id cell .filling) calm.usable
          ((World.closed_fill ..).trans (calm.open_of_above isAbove))
        refine succeeds_bind_run (enters.along making grants.but) ?_
        rintro value last ⟨_, makes, alike⟩
        have typed := makes.type trivial value rfl
        refine succeeds_bind_act rfl (succeeds_pure ⟨typed, ?_⟩)
        exact calm.fill built.sound.distinct isAbove ((admits rfl value).mpr typed) empty alike
      · have performs : (Operation.enter above.id cell).perform world.state =
            some (some (.ok value), world.state) := by
          have found : (world.state.scope above.id).cells.get? cell =
              some (.filled (.ok value)) := filled
          rw [Operation.perform, found]
          rfl
        refine succeeds_bind_act performs (succeeds_pure ?_)
        exact ⟨(admits rfl value).mp isAdmitted, calm.onward⟩

/-- Making an instance and finishing it, for inputs that have the types of their parameters. -/
theorem succeeds_produceFrom (isAbove : home.Above base)
    (bound : home.registry.find? key = some binding) {inputs : Inputs U} {recalled : Prop}
    (suit : inputs.Suit Typed binding home recalled)
    (recalls : recalled → ∃ outcome,
      world.state.cell? home.id (.made binding.recipe.id) = some (.filled outcome))
    (calm : world.Calm base context) :
    (produceFrom home context key binding inputs).Succeeds behaviour world fun value last =>
      value.type = key.type ∧ world.Onward base context last := by
  have proper := (built.above isAbove).sound.proper bound
  have targets : ∀ stage ∈ inputs.stages, stage.decorator.target.type = binding.registered.type :=
    fun stage member => congrArg Key.type (suit.targets stage member)
  have makes := only_construct home.id context binding.recipe inputs.arguments inputs.flag
    binding.cast.isSome
  refine succeeds_bind (succeeds_keepIf built grants isAbove calm
    (fun kept => isAbove.admits_made built bound kept) makes ?_) ?_
  · intro unmade entered usable opened
    have fits : List.Forall₂ (Fits Typed) binding.recipe.params inputs.arguments := by
      rcases suit.arguments with ⟨kept, was⟩ | fits
      · obtain ⟨outcome, filled⟩ := recalls was
        rw [unmade kept] at filled
        cases filled
      · exact fits
    exact succeeds_construct grants.but inputs.flag binding.cast.isSome (fun _ _ => not_false)
      usable opened fits
  rintro made middle ⟨typed, onward⟩
  have finishes := only_finish home.id context key binding inputs.stages made
  have typedFinish : Request.Only Event.Making (Makes True binding.registered.type)
      (finish home.id context key binding inputs.stages made) :=
    finishes.mono (fun _ making => making) fun _ makes => ⟨makes.creates, fun _ =>
      makes.type ⟨targets, fun uncast => typed.trans (proper.produces uncast)⟩⟩
  refine (succeeds_keepIf built grants isAbove onward.calm (fun _ _ => Iff.rfl) typedFinish
    ?_).mono ?_
  · exact fun _ entered _ opened =>
      succeeds_finish grants.but key opened typed proper.produces targets suit.stages
  · rintro value last ⟨typed, onward'⟩
    exact ⟨typed.trans proper.type, onward.trans onward'⟩

omit grants in
/-- A key that is bound to a fixed value. -/
theorem succeeds_resolve_value {fails : U.Constructor → Prop} (grants : behaviour.GrantsBut fails)
    (isAbove : lower.Above base) (bound : lower.registry.find? key = some binding)
    (isValue : binding.IsValue) (usable : world.state.contexts.error? context = none)
    (opened : (world.state.scope lower.id).closed = false) :
    (resolver.resolve lower context key active).Succeeds behaviour world
      fun value last => world.Alike last ∧ value.type = key.type := by
  obtain ⟨content, source⟩ := isValue
  have proper := (built.above isAbove).sound.proper bound
  rw [Resolver.resolve]
  refine succeeds_bind (succeeds_ensureUsable usable) ?_
  rintro _ _ rfl
  refine succeeds_bind (succeeds_ensureOpen opened) ?_
  rintro _ _ rfl
  simp only [bound, source]
  have converting := (only_convert binding lower.id key
    ⟨binding.recipe.produces, content⟩).mono (fun _ => Event.Serving.making) fun _ makes => makes
  have typed : (⟨binding.recipe.produces, content⟩ : Value U).type = binding.recipe.produces := rfl
  refine ((succeeds_convert grants key typed).along converting grants).mono ?_
  rintro value last ⟨_, makes, alike⟩
  exact ⟨alike, (makes.type proper.produces value rfl).trans proper.type⟩

end Requests

/-! ## Requests that return alone -/

variable {β : Type} {behaviour : Behaviour U σ} {world : World U σ}

/-- Alone, a request returns, and something holds of its outcome and the world then. -/
def Request.Returns (request : Request U α) (behaviour : Behaviour U σ) (world : World U σ)
    (post : Except Error α → World U σ → Prop) : Prop :=
  ∃ outcome last, request.alone behaviour world = some (outcome, last) ∧ post outcome last

namespace Request

variable {post : Except Error α → World U σ → Prop} {post' : Except Error β → World U σ → Prop}

theorem Returns.mono {request : Request U α} {weaker : Except Error α → World U σ → Prop}
    (returns : request.Returns behaviour world post)
    (implies : ∀ outcome last, post outcome last → weaker outcome last) :
    request.Returns behaviour world weaker := by
  obtain ⟨outcome, last, runs, holds⟩ := returns
  exact ⟨outcome, last, runs, implies outcome last holds⟩

/-- What comes to the same, perhaps from a world some steps later. -/
theorem Returns.congr {request other : Request U α} {later : World U σ}
    (returns : other.Returns behaviour later post)
    (same : request.alone behaviour world = other.alone behaviour later) :
    request.Returns behaviour world post := by
  obtain ⟨outcome, last, runs, holds⟩ := returns
  exact ⟨outcome, last, same.trans runs, holds⟩

theorem returns_pure {value : α} (holds : post (.ok value) world) :
    (pure value : Request U α).Returns behaviour world post :=
  ⟨.ok value, world, rfl, holds⟩

theorem returns_fail {error : Error} (holds : post (.error error) world) :
    (fail error : Request U α).Returns behaviour world post :=
  ⟨.error error, world, rfl, holds⟩

theorem returns_ofExcept {outcome : Except Error α} (holds : post outcome world) :
    (ofExcept outcome : Request U α).Returns behaviour world post :=
  ⟨outcome, world, rfl, holds⟩

/-- One request after another; an error is passed on. -/
theorem returns_bind {request : Request U α} {next : α → Request U β}
    (first : request.Returns behaviour world post)
    (fails : ∀ error last, post (.error error) last → post' (.error error) last)
    (goesOn : ∀ value last, post (.ok value) last → (next value).Returns behaviour last post') :
    (request >>= next).Returns behaviour world post' := by
  obtain ⟨outcome, middle, runs, holds⟩ := first
  cases outcome with
  | error error => exact ⟨.error error, middle, alone_bind_error runs, fails error middle holds⟩
  | ok value =>
      obtain ⟨result, last, runs', holds'⟩ := goesOn value middle holds
      exact ⟨result, last, (alone_bind_ok runs).trans runs', holds'⟩

/-- A request that is known to succeed, and then another one. -/
theorem returns_bind_ok {request : Request U α} {next : α → Request U β} {value : α}
    {after : World U σ} (succeeds : request.alone behaviour world = some (.ok value, after))
    (rest : (next value).Returns behaviour after post') :
    (request >>= next).Returns behaviour world post' :=
  rest.congr (alone_bind_ok succeeds)

/-- An operation that can be performed goes before a request that returns. -/
theorem returns_bind_act {operation : Operation U} {next : operation.Answer → Request U α}
    {answer : operation.Answer} {state : State U}
    (performs : operation.perform world.state = some (answer, state))
    (rest : (next answer).Returns behaviour { world with state } post) :
    (act operation >>= next).Returns behaviour world post :=
  rest.congr (alone_bind_act performs)

/-- A function that answers goes before a request that returns. -/
theorem returns_bind_call {call : Call U} {next : call.Answer → Request U α}
    {answer : call.Answer} {after : World U σ} (answers : behaviour call world = some (answer, after))
    (rest : (next answer).Returns behaviour after post) :
    (callClient call >>= next).Returns behaviour world post := by
  apply rest.congr
  rw [alone_bind_call, answers]
  rfl

/-- A program that cannot fail, and then a request. -/
theorem returns_bind_lift {program : Program U α} {next : α → Request U β} {value : α}
    {after : World U σ} (runs : program.run behaviour world = some (value, after))
    (rest : (next value).Returns behaviour after post') :
    (ExceptT.lift program >>= next : Request U β).Returns behaviour world post' := by
  let lifted : Request U α := ExceptT.lift program
  have lifts : lifted.alone behaviour world = some (.ok value, after) :=
    (Program.run_andThen ..).trans (Option.bind_eq_some_iff.mpr ⟨_, runs, rfl⟩)
  exact returns_bind_ok lifts rest

/-- A request whose outcome is taken as it is, and then another one. -/
theorem returns_bind_run {request : Request U α} {next : Except Error α → Request U β}
    (first : request.Returns behaviour world post)
    (goesOn : ∀ outcome last, post outcome last → (next outcome).Returns behaviour last post') :
    (ExceptT.lift request.run >>= next : Request U β).Returns behaviour world post' := by
  obtain ⟨outcome, middle, runs, holds⟩ := first
  exact returns_bind_lift runs (goesOn outcome middle holds)

/-- A request whose errors are handled. -/
theorem returns_tryCatch {request : Request U α} {handle : Error → Request U α}
    {post' : Except Error α → World U σ → Prop} (first : request.Returns behaviour world post)
    (succeeds : ∀ value last, post (.ok value) last → post' (.ok value) last)
    (fails : ∀ error last, post (.error error) last →
      (handle error).Returns behaviour last post') :
    (tryCatch request handle).Returns behaviour world post' := by
  obtain ⟨outcome, middle, runs, holds⟩ := first
  cases outcome with
  | ok value =>
      have ends : (tryCatch request handle).alone behaviour world = some (.ok value, middle) :=
        (Program.run_andThen ..).trans (Option.bind_eq_some_iff.mpr ⟨_, runs, rfl⟩)
      exact ⟨.ok value, middle, ends, succeeds value middle holds⟩
  | error error =>
      obtain ⟨result, last, runs', holds'⟩ := fails error middle holds
      have ends : (tryCatch request handle).alone behaviour world = some (result, last) :=
        (Program.run_andThen ..).trans (Option.bind_eq_some_iff.mpr ⟨_, runs, runs'⟩)
      exact ⟨result, last, ends, holds'⟩

end Request

open Request

/-! ## Looking at scopes and cells -/

section Looking

variable {scope : ScopeId}

/-- Looking whether a scope is open returns, and says so. -/
theorem returns_ensureOpen (scope : ScopeId) :
    (ensureOpen scope).Returns behaviour world fun outcome last => last = world ∧
      ((world.state.scope scope).closed = false ∧ outcome = .ok () ∨
        (world.state.scope scope).closed = true ∧ outcome = .error .closed) := by
  cases closed : (world.state.scope scope).closed with
  | false => exact ⟨.ok (), world, alone_ensureOpen closed, rfl, .inl ⟨rfl, rfl⟩⟩
  | true =>
      have performs : (Operation.isClosed scope).perform world.state =
          some (true, world.state) := by
        rw [Operation.perform, closed]
        rfl
      exact returns_bind_act performs (returns_fail ⟨rfl, .inr ⟨rfl, rfl⟩⟩)

variable {cell : CacheKey} {create : Request U (Value U)} {post : Outcome U → World U σ → Prop}

/-- What a cell holds is taken from it. -/
theorem returns_keep_filled {outcome : Outcome U}
    (filled : world.state.cell? scope cell = some (.filled outcome)) (holds : post outcome world) :
    (keepIf true scope cell create).Returns behaviour world post := by
  have performs : (Operation.enter scope cell).perform world.state =
      some (some outcome, world.state) := by
    have found : (world.state.scope scope).cells.get? cell = some (.filled outcome) := filled
    rw [Operation.perform, found]
    rfl
  exact returns_bind_act performs (returns_ofExcept holds)

/-- An empty cell is entered and settled with the outcome of creating its value. -/
theorem returns_keep_empty (empty : world.state.cell? scope cell = none)
    (creates : create.Returns behaviour (world.fill scope cell .filling) fun outcome last =>
      post outcome (last.fill scope cell (.filled outcome))) :
    (keepIf true scope cell create).Returns behaviour world post := by
  have performs : (Operation.enter scope cell).perform world.state =
      some (none, (world.fill scope cell .filling).state) := by
    have found : (world.state.scope scope).cells.get? cell = none := empty
    rw [Operation.perform, found]
    rfl
  apply returns_bind_act performs
  apply returns_bind_run creates
  intro outcome last holds
  exact returns_bind_act rfl (returns_ofExcept holds)

end Looking

end Provision
