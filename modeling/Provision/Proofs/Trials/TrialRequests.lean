import Provision.Proofs.Resolution.CalmWorlds
import Provision.Proofs.Trials.TrialScopes
import Mathlib.Algebra.GroupWithZero.Nat

/-!
# Requests in the trial of scope trees

Between two operations of the trial, no cell is being filled, everything that is kept is a value of
the right type, and the instances made are those closed and those that open scopes have promised to
close.  A request for one of the three services, from any of the scopes, returns and keeps it so.

Main statements: `resolves_shared`, `resolves_perScope` and `resolves_fresh`.
-/

namespace Provision

theorem State.scope_congr {U : Client} {state other : State U} (same : state.scopes = other.scopes)
    (id : ScopeId) : state.scope id = other.scope id := by
  unfold State.scope
  rw [same]

namespace Trial.ScopeTree

open Request Moment

/-- The number of closers that scopes have promised and not run. -/
def pending (state : State client) (scopes : List (Scope client)) : Nat :=
  (scopes.map fun scope => (state.scope scope.id).closers.length).sum

/-- The scopes of the trial are a tree, with the services of the root everywhere. -/
structure Grove (root : ScopeId) (scopes : List (Scope client)) : Prop where
  built : ∀ scope ∈ scopes, scope.Built
  stocked : ∀ scope ∈ scopes, Stocked root scope
  above : ∀ scope ∈ scopes, ∀ above, above.Above scope → above ∈ scopes
  distinct : (scopes.map Scope.id).Nodup
  isRoot : ∀ scope ∈ scopes, scope.depth = 0 → scope.id = root

/-- The key under which what is kept of a recipe is shown in this trial. -/
def keyOf : RecipeId → Key
  | .registration _ 0 => .of shared
  | _ => .of perScope

/-- What holds of the world between two operations. -/
structure Steady (context : ContextId) (scopes : List (Scope client))
    (world : World client (Record client Counts)) : Prop where
  usable : world.state.contexts.error? context = none
  known : ∀ scope ∈ scopes, scope.id.number < world.state.nextScope
  unknown : ∀ id : ScopeId, world.state.nextScope ≤ id.number → world.state.scope id = {}
  cells : ∀ id cell, world.state.cell? id cell = none ∨ ∃ value,
    world.state.cell? id cell = some (.filled (.ok value)) ∧
      ∀ recipe key, cell = .shown recipe key → value.type = key.type
  paired : ∀ id recipe, world.state.cell? id (.made recipe) = none ↔
    world.state.cell? id (.shown recipe (keyOf recipe)) = none
  emptied : ∀ id, (world.state.scope id).closed = true → (world.state.scope id).closers = []
  balanced : world.memory.counts.made = world.memory.counts.closed + pending world.state scopes

/-- A world that comes after some requests: the same scopes are closed, all that was kept is still
kept, and no fewer instances were made. -/
structure Later (world last : World client (Record client Counts)) : Prop where
  closed : ∀ id, (last.state.scope id).closed = (world.state.scope id).closed
  retains : ∀ {id cell outcome}, world.state.cell? id cell = some (.filled outcome) →
    last.state.cell? id cell = some (.filled outcome)
  grows : world.memory.counts.made ≤ last.memory.counts.made

/-- A world in which at most flags and notices are new, and numbers are taken. -/
structure Still (world last : World client (Record client Counts)) : Prop where
  contexts : last.state.contexts = world.state.contexts
  nextScope : world.state.nextScope ≤ last.state.nextScope
  scopes : last.state.scopes = world.state.scopes
  counts : last.memory.counts = world.memory.counts

/-- A world in which one more instance was made. -/
structure Counted (world last : World client (Record client Counts)) : Prop where
  contexts : last.state.contexts = world.state.contexts
  nextScope : last.state.nextScope = world.state.nextScope
  scopes : last.state.scopes = world.state.scopes
  counts : last.memory.counts =
    { world.memory.counts with made := world.memory.counts.made + 1 }

/-- A world in which a scope promised to close one more instance. -/
structure Promised (scope : ScopeId) (world last : World client (Record client Counts)) :
    Prop where
  contexts : last.state.contexts = world.state.contexts
  nextScope : last.state.nextScope = world.state.nextScope
  scopes : ∃ closer, last.state.scopes = (world.state.setScope scope
    { world.state.scope scope with
      closers := (world.state.scope scope).closers ++ [closer] }).scopes
  counts : last.memory.counts = world.memory.counts

/-- A world in which no scope but one is different. -/
structure Touched (scope : ScopeId) (world last : World client (Record client Counts)) : Prop where
  contexts : last.state.contexts = world.state.contexts
  nextScope : last.state.nextScope = world.state.nextScope
  others : ∀ id, id ≠ scope → last.state.scope id = world.state.scope id

/-- A world in which a scope made an instance and promised to close it, and filled some cells with
it. -/
structure Gained (home : ScopeId) (filled : List CacheKey) (value : Value client)
    (world last : World client (Record client Counts)) : Prop extends Touched home world last where
  closed : (last.state.scope home).closed = (world.state.scope home).closed
  closers : (last.state.scope home).closers.length = (world.state.scope home).closers.length + 1
  cells : ∀ cell, last.state.cell? home cell =
    if cell ∈ filled then some (.filled (.ok value)) else world.state.cell? home cell
  counts : last.memory.counts =
    { world.memory.counts with made := world.memory.counts.made + 1 }

section Worlds

variable {context : ContextId} {scopes : List (Scope client)} {root home : ScopeId}
  {world middle last : World client (Record client Counts)}

theorem Later.refl (world : World client (Record client Counts)) : Later world world :=
  ⟨fun _ => rfl, fun kept => kept, Nat.le_refl _⟩

theorem Later.trans (first : Later world middle) (second : Later middle last) :
    Later world last where
  closed := fun id => (second.closed id).trans (first.closed id)
  retains := fun kept => second.retains (first.retains kept)
  grows := Nat.le_trans first.grows second.grows

theorem Still.trans (first : Still world middle) (second : Still middle last) :
    Still world last where
  contexts := second.contexts.trans first.contexts
  nextScope := Nat.le_trans first.nextScope second.nextScope
  scopes := second.scopes.trans first.scopes
  counts := second.counts.trans first.counts

/-- Cells are as they were in a world that stands still. -/
theorem Still.cell? (still : Still world last) (id : ScopeId) (cell : CacheKey) :
    last.state.cell? id cell = world.state.cell? id cell := by
  unfold State.cell?
  rw [State.scope_congr still.scopes]

/-- What is pending is as it was in a world that stands still. -/
theorem Still.pending (still : Still world last) (scopes : List (Scope client)) :
    pending last.state scopes = pending world.state scopes := by
  unfold ScopeTree.pending
  simp only [State.scope_congr still.scopes]

theorem Still.later (still : Still world last) : Later world last where
  closed := fun id => congrArg ScopeState.closed (State.scope_congr still.scopes id)
  retains := fun kept => (still.cell? _ _).trans kept
  grows := Nat.le_of_eq (congrArg Counts.made still.counts).symm

/-- A steady world that stands still stays steady. -/
theorem Steady.still (steady : Steady context scopes world) (still : Still world last) :
    Steady context scopes last where
  usable := by rw [still.contexts, steady.usable]
  known := by
    intro scope member
    exact Nat.lt_of_lt_of_le (steady.known scope member) still.nextScope
  unknown := by
    intro id fresh
    rw [State.scope_congr still.scopes, steady.unknown id (Nat.le_trans still.nextScope fresh)]
  cells := by
    intro id cell
    rw [still.cell?]
    exact steady.cells id cell
  paired := by
    intro id recipe
    rw [still.cell?, still.cell?]
    exact steady.paired id recipe
  emptied := by
    intro id
    rw [State.scope_congr still.scopes]
    exact steady.emptied id
  balanced := by rw [still.counts, still.pending, steady.balanced]

/-- Cells of other scopes are as they were when one was touched. -/
theorem Touched.cell? {scope id : ScopeId} (touched : Touched scope world last)
    (differs : id ≠ scope) (cell : CacheKey) :
    last.state.cell? id cell = world.state.cell? id cell := by
  unfold State.cell?
  rw [touched.others id differs]

/-- The promises of all scopes when those of one of them change. -/
theorem pending_of_others {state after : State client} {scope : Scope client}
    (distinct : (scopes.map Scope.id).Nodup) (member : scope ∈ scopes)
    (others : ∀ id, id ≠ scope.id → (after.scope id).closers = (state.scope id).closers) :
    pending after scopes + (state.scope scope.id).closers.length =
      pending state scopes + (after.scope scope.id).closers.length := by
  induction scopes with
  | nil => cases member
  | cons other rest ih =>
      rw [List.map_cons, List.nodup_cons] at distinct
      simp only [pending, List.map_cons, List.sum_cons] at ih ⊢
      cases List.mem_cons.mp member with
      | inl here =>
          subst here
          have same : rest.map (fun other => (after.scope other.id).closers.length) =
              rest.map fun other => (state.scope other.id).closers.length := by
            apply List.map_congr_left
            intro other isOther
            have differs : other.id ≠ scope.id := by
              intro same
              exact distinct.1 (same ▸ List.mem_map_of_mem isOther)
            rw [others other.id differs]
          rw [same]
          omega
      | inr later =>
          have differs : other.id ≠ scope.id := by
            intro same
            exact distinct.1 (same ▸ List.mem_map_of_mem later)
          have below := ih distinct.2 later
          rw [others other.id differs]
          omega

theorem Gained.later {filled : List CacheKey} {value : Value client}
    (gained : Gained home filled value world last)
    (empty : ∀ cell ∈ filled, world.state.cell? home cell = none) : Later world last where
  closed := by
    intro id
    by_cases isHome : id = home
    · rw [isHome, gained.closed]
    · rw [gained.others id isHome]
  retains := by
    intro id cell outcome kept
    by_cases isHome : id = home
    · subst isHome
      have unfilled : cell ∉ filled := by
        intro member
        rw [empty cell member] at kept
        cases kept
      rw [gained.cells, if_neg unfilled, kept]
    · rw [gained.cell? isHome, kept]
  grows := by
    rw [gained.counts]
    exact Nat.le_succ _

/-- A scope may do what leaves its cells proper and its books balanced. -/
theorem Steady.touched {scope : Scope client} (steady : Steady context scopes world)
    (distinct : (scopes.map Scope.id).Nodup) (member : scope ∈ scopes)
    (touched : Touched scope.id world last)
    (cells : ∀ cell, last.state.cell? scope.id cell = none ∨ ∃ value,
      last.state.cell? scope.id cell = some (.filled (.ok value)) ∧
        ∀ recipe key, cell = .shown recipe key → value.type = key.type)
    (paired : ∀ recipe, last.state.cell? scope.id (.made recipe) = none ↔
      last.state.cell? scope.id (.shown recipe (keyOf recipe)) = none)
    (emptied : (last.state.scope scope.id).closed = true →
      (last.state.scope scope.id).closers = [])
    (balanced : last.memory.counts.made + world.memory.counts.closed +
        (world.state.scope scope.id).closers.length =
      last.memory.counts.closed + (last.state.scope scope.id).closers.length +
        world.memory.counts.made) : Steady context scopes last where
  usable := by rw [touched.contexts, steady.usable]
  known := by
    rw [touched.nextScope]
    exact steady.known
  unknown := by
    intro id fresh
    rw [touched.nextScope] at fresh
    have differs : id ≠ scope.id := by
      rintro rfl
      exact Nat.not_lt.mpr fresh (steady.known scope member)
    rw [touched.others id differs, steady.unknown id fresh]
  cells := by
    intro id cell
    by_cases here : id = scope.id
    · exact here ▸ cells cell
    · rw [touched.cell? here]
      exact steady.cells id cell
  paired := by
    intro id recipe
    by_cases here : id = scope.id
    · exact here ▸ paired recipe
    · rw [touched.cell? here, touched.cell? here]
      exact steady.paired id recipe
  emptied := by
    intro id isClosed
    by_cases here : id = scope.id
    · rw [here] at isClosed ⊢
      exact emptied isClosed
    · rw [touched.others id here] at isClosed ⊢
      exact steady.emptied id isClosed
  balanced := by
    -- Only the promises of this scope count, as those of the others are what they were.
    have promised := pending_of_others distinct member fun id differs =>
      congrArg ScopeState.closers (touched.others id differs)
    have before := steady.balanced
    omega

/-- A steady world stays steady when an instance is gained and kept in cells that were empty. -/
theorem Steady.gained {scope : Scope client} {filled : List CacheKey} {value : Value client}
    (steady : Steady context scopes world) (distinct : (scopes.map Scope.id).Nodup)
    (member : scope ∈ scopes) (opened : (world.state.scope scope.id).closed = false)
    (gained : Gained scope.id filled value world last)
    (typed : ∀ recipe key, .shown recipe key ∈ filled → value.type = key.type)
    (pairs : ∀ recipe, .made recipe ∈ filled ↔ .shown recipe (keyOf recipe) ∈ filled) :
    Steady context scopes last := by
  apply steady.touched distinct member gained.toTouched
  · intro cell
    rw [gained.cells]
    by_cases isFilled : cell ∈ filled
    · rw [if_pos isFilled]
      refine .inr ⟨value, rfl, ?_⟩
      rintro recipe key rfl
      exact typed recipe key isFilled
    · rw [if_neg isFilled]
      exact steady.cells scope.id cell
  · intro recipe
    rw [gained.cells, gained.cells]
    by_cases isFilled : .made recipe ∈ filled
    · rw [if_pos isFilled, if_pos ((pairs recipe).mp isFilled)]
    · rw [if_neg isFilled, if_neg fun shown => isFilled ((pairs recipe).mpr shown)]
      exact steady.paired scope.id recipe
  · intro isClosed
    rw [gained.closed, opened] at isClosed
    cases isClosed
  · rw [gained.counts, gained.closers]
    simp only
    omega

end Worlds

/-! ## Making an instance -/

section Making

variable {context : ContextId} {scope : ScopeId} {recipe : Recipe client} {binding : Binding client}
  {arguments : List (Argument client)} {world last : World client (Record client Counts)}

/-- A notice leaves a world still. -/
theorem Still.report (notice : Notice) (world : World client (Record client Counts)) :
    Still world (listen notice world) := ⟨rfl, Nat.le_refl _, rfl, rfl⟩

/-- All arguments are taken. -/
theorem alone_takeAll {params : List Param} (fits : List.Forall₂ (Fits Typed) params arguments) :
    (takeAll params arguments).alone behaviour world = some (.ok (), world) := by
  induction fits with
  | nil => rfl
  | @cons param argument params arguments fit _ ih =>
      cases fit with
      | context context => exact ih
      | scope handle => exact ih
      | @service key value typed =>
          rw [takeAll, takes_typed typed]
          exact (Request.alone_bind_call (.accepts value) _).trans ih

/-- An instance is made, and it is numbered. -/
theorem returns_construct (flag : FlagId) (usable : world.state.contexts.error? context = none)
    (source : recipe.source = .factory ())
    (fits : List.Forall₂ (Fits Typed) recipe.params arguments) :
    (construct scope context recipe arguments flag false).Returns behaviour world
      fun outcome last =>
        outcome = .ok ⟨recipe.produces, .object world.memory.counts.made⟩ ∧
          Counted world last := by
  apply returns_bind_ok (alone_ensureUsable usable)
  apply returns_bind_call rfl
  have produces : (recipe.produce scope arguments).Returns behaviour
      (listen (.constructing (.of recipe.produces) recipe.lifetime scope) world)
      fun outcome last => outcome = .ok ⟨recipe.produces, .object world.memory.counts.made⟩ ∧
        last = { world with
          memory := countMade (listen (.constructing (.of recipe.produces) recipe.lifetime scope)
            world).memory } := by
    unfold Recipe.produce
    simp only [source]
    apply returns_bind_ok (alone_takeAll fits)
    exact returns_bind_call rfl (returns_pure ⟨rfl, rfl⟩)
  apply returns_bind_run produces
  rintro _ _ ⟨rfl, rfl⟩
  apply returns_bind_act rfl
  apply returns_bind_ok rfl
  refine returns_bind_ok (alone_ensureUsable ?_) ?_
  · exact usable
  · exact returns_pure ⟨rfl, rfl, rfl, rfl, rfl⟩

/-- An instance that is neither converted nor decorated is handed out as it was made, and its scope
promises to close it. -/
theorem returns_finish (key : Key) {value : Value client} (uncast : binding.cast = none)
    (closer : binding.recipe.closer = some ()) (typed : value.type = binding.recipe.produces)
    (opened : (world.state.scope scope).closed = false) :
    (finish scope context key binding [] value).Returns behaviour world fun outcome last =>
      outcome = .ok value ∧ Promised scope world last := by
  let pending : PendingCloser client := ⟨binding.recipe, (), value.content⟩
  have isPending : binding.recipe.closerFor? value = some pending := by
    simp [Recipe.closerFor?, closer, typed, pending]
  have subject : binding.recipe.closeSubject value value = value := by
    simp [Recipe.closeSubject]
  have performs : (Operation.attach scope pending).perform world.state =
      some (true, world.state.setScope scope
        { world.state.scope scope with
          closers := (world.state.scope scope).closers ++ [pending] }) := by
    simp only [Operation.perform, opened]
    rfl
  have attaches : (attachCloser scope context binding.recipe
      (binding.recipe.closeSubject value value)).Returns behaviour world fun outcome last =>
        outcome = .ok () ∧ Promised scope world last := by
    rw [subject]
    unfold attachCloser
    simp only [isPending]
    apply returns_bind_act performs
    exact returns_bind_call rfl (returns_pure ⟨rfl, rfl, rfl, ⟨pending, rfl⟩, rfl⟩)
  have finishes : finish scope context key binding [] value = (do
      attachCloser scope context binding.recipe (binding.recipe.closeSubject value value)
      pure value : Request client (Value client)) := by
    simp [finish, Binding.convert, uncast, decorateAll]
  rw [finishes]
  apply returns_bind attaches
  · rintro error last ⟨⟨⟩, _⟩
  rintro _ last ⟨_, promised⟩
  exact returns_pure ⟨rfl, promised⟩

end Making

/-! ## Through cells -/

/-- A service that its constructor makes, shown under one key and closed in the end. -/
structure Plain (binding : Binding client) (key : Key) : Prop where
  source : binding.recipe.source = .factory ()
  cast : binding.cast = none
  closer : binding.recipe.closer = some ()
  registered : binding.registered = key
  produces : binding.recipe.produces = key.type
  keyed : binding.recipe.lifetime.isKept = true → keyOf binding.recipe.id = key

/-- A value that a scope hands out for a key: the one that it keeps for the key, or an instance that
was made just now. -/
structure Handed (binding : Binding client) (home : Scope client)
    (world : World client (Record client Counts)) (value : Value client)
    (last : World client (Record client Counts)) : Prop where
  type : value.type = binding.registered.type
  kept : binding.recipe.lifetime.isKept = true →
    last.state.cell? home.id (.shown binding.recipe.id binding.registered) =
      some (.filled (.ok value))
  fresh : binding.recipe.lifetime.isKept = false → ∃ number, value.content = .object number ∧
    world.memory.counts.made ≤ number ∧ number < last.memory.counts.made

section Cells

variable {context : ContextId} {scopes : List (Scope client)} {home : Scope client} {key : Key}
  {binding : Binding client} {inputs : Inputs client}
  {world : World client (Record client Counts)}

/-- The scope of a cell that is filled has it filled. -/
theorem scope_fill_self (world : World client (Record client Counts)) (scope : ScopeId)
    (cell : CacheKey) (content : Cell client) :
    (world.fill scope cell content).state.scope scope =
      Operation.fillCell (world.state.scope scope) cell content :=
  State.scope_setScope_self ..

/-- Other scopes do not see a cell filled. -/
theorem scope_fill_of_ne (world : World client (Record client Counts)) {scope other : ScopeId}
    (differs : scope ≠ other) (cell : CacheKey) (content : Cell client) :
    (world.fill scope cell content).state.scope other = world.state.scope other :=
  (State.scope_setScope ..).trans (if_neg differs)

/-- An instance that was made and finished. -/
theorem Gained.ofNone {scope : ScopeId} {value : Value client}
    {made last : World client (Record client Counts)} (counted : Counted world made)
    (promised : Promised scope made last) : Gained scope [] value world last := by
  have before := State.scope_congr counted.scopes
  obtain ⟨closer, scopes⟩ := promised.scopes
  have after := State.scope_congr scopes
  refine ⟨⟨promised.contexts.trans counted.contexts, promised.nextScope.trans counted.nextScope,
    ?_⟩, ?_, ?_, ?_, promised.counts.trans counted.counts⟩
  · intro id isOther
    rw [after, State.scope_setScope, if_neg isOther.symm, before]
  · rw [after, State.scope_setScope_self, before]
  · rw [after, State.scope_setScope_self, before, List.length_append, List.length_singleton]
  · intro cell
    unfold State.cell?
    rw [if_neg List.not_mem_nil, after, State.scope_setScope_self, before]

/-- An instance that was made within one cell and finished within another. -/
theorem Gained.ofCells {scope : ScopeId} {first second : CacheKey} {value : Value client}
    {made last : World client (Record client Counts)}
    (counted : Counted (world.fill scope first .filling) made)
    (promised : Promised scope
      ((made.fill scope first (.filled (.ok value))).fill scope second .filling) last) :
    Gained scope [first, second] value world (last.fill scope second (.filled (.ok value))) := by
  have before := State.scope_congr counted.scopes
  obtain ⟨closer, scopes⟩ := promised.scopes
  have after := State.scope_congr scopes
  have here : last.state.scope scope =
      { Operation.fillCell (Operation.fillCell (Operation.fillCell (world.state.scope scope)
          first .filling) first (.filled (.ok value))) second .filling with
        closers := (world.state.scope scope).closers ++ [closer] } := by
    rw [after, State.scope_setScope_self, scope_fill_self, scope_fill_self, before,
      scope_fill_self]
    rfl
  refine ⟨⟨promised.contexts.trans counted.contexts, promised.nextScope.trans counted.nextScope,
    ?_⟩, ?_, ?_, ?_, promised.counts.trans counted.counts⟩
  · intro id isOther
    rw [scope_fill_of_ne _ isOther.symm, after, State.scope_setScope, if_neg isOther.symm,
      scope_fill_of_ne _ isOther.symm, scope_fill_of_ne _ isOther.symm, before,
      scope_fill_of_ne _ isOther.symm]
  · rw [scope_fill_self, here]
    rfl
  · rw [scope_fill_self, here]
    simp [Operation.fillCell]
  · intro cell
    unfold State.cell?
    rw [scope_fill_self, here]
    simp only [Operation.fillCell, Table.get?_put, List.mem_cons, List.not_mem_nil, or_false]
    by_cases isSecond : second = cell
    · simp [isSecond]
    · by_cases isFirst : first = cell
      · simp [isFirst, isSecond]
      · simp [isFirst, isSecond, Ne.symm isFirst, Ne.symm isSecond]

/-- What a scope makes and keeps under both cells of a recipe leaves the world steady. -/
theorem Steady.gained_kept {value : Value client} {recipe : RecipeId}
    {last : World client (Record client Counts)}
    (steady : Steady context scopes world) (distinct : (scopes.map Scope.id).Nodup)
    (member : home ∈ scopes) (opened : (world.state.scope home.id).closed = false)
    (unmade : world.state.cell? home.id (.made recipe) = none)
    (typed : value.type = (keyOf recipe).type)
    (gained : Gained home.id [.made recipe, .shown recipe (keyOf recipe)] value world last) :
    Steady context scopes last ∧ Later world last := by
  constructor
  · apply steady.gained distinct member opened gained
    · intro other key isFilled
      simp only [List.mem_cons, reduceCtorEq, CacheKey.shown.injEq, List.not_mem_nil, or_false,
        false_or] at isFilled
      rw [isFilled.2, typed]
    · intro other
      simp only [List.mem_cons, CacheKey.made.injEq, reduceCtorEq, CacheKey.shown.injEq,
        List.not_mem_nil, or_false, false_or]
      constructor
      · rintro rfl
        exact ⟨rfl, rfl⟩
      · exact fun same => same.1
  · apply gained.later
    intro cell isFilled
    simp only [List.mem_cons, List.not_mem_nil, or_false] at isFilled
    rcases isFilled with rfl | rfl
    · exact unmade
    · exact (steady.paired home.id recipe).mp unmade

variable (steady : Steady context scopes world) (distinct : (scopes.map Scope.id).Nodup)
  (member : home ∈ scopes) (opened : (world.state.scope home.id).closed = false)
  (plain : Plain binding key)
  (fits : List.Forall₂ (Fits Typed) binding.recipe.params inputs.arguments)
  (undecorated : inputs.stages = [])

include steady plain

/-- What is kept of an instance is recalled. -/
theorem returns_recalled (kept : binding.recipe.lifetime.isKept = true)
    (made : world.state.cell? home.id (.made binding.recipe.id) ≠ none) :
    (produceFrom home context key binding inputs).Returns behaviour world fun outcome last =>
      Steady context scopes last ∧ Later world last ∧
        ∃ value, outcome = .ok value ∧ Handed binding home world value last := by
  have keyed : keyOf binding.recipe.id = binding.registered :=
    (plain.keyed kept).trans plain.registered.symm
  have shown : world.state.cell? home.id (.shown binding.recipe.id binding.registered) ≠ none := by
    intro unshown
    rw [← keyed] at unshown
    exact made ((steady.paired home.id binding.recipe.id).mpr unshown)
  obtain ⟨first, isMade, _⟩ := (steady.cells home.id _).resolve_left made
  obtain ⟨value, isShown, typed⟩ := (steady.cells home.id _).resolve_left shown
  unfold produceFrom
  simp only [kept]
  have recalls : (keepIf true home.id (.made binding.recipe.id) (construct home.id context
      binding.recipe inputs.arguments inputs.flag binding.cast.isSome)).Returns behaviour world
        fun outcome last => outcome = .ok first ∧ last = world :=
    returns_keep_filled isMade ⟨rfl, rfl⟩
  apply returns_bind recalls nofun
  rintro _ _ ⟨_, rfl⟩
  apply returns_keep_filled isShown
  refine ⟨steady, .refl _, value, rfl, typed _ _ rfl, fun _ => isShown, ?_⟩
  intro unkept
  cases kept.symm.trans unkept

include distinct member opened fits undecorated

/-- An instance that is to be kept is made and finished. -/
theorem returns_unmade (kept : binding.recipe.lifetime.isKept = true)
    (unmade : world.state.cell? home.id (.made binding.recipe.id) = none) :
    (produceFrom home context key binding inputs).Returns behaviour world fun outcome last =>
      Steady context scopes last ∧ Later world last ∧
        ∃ value, outcome = .ok value ∧ Handed binding home world value last := by
  let value : Value client := ⟨binding.recipe.produces, .object world.memory.counts.made⟩
  let making := world.fill home.id (.made binding.recipe.id) .filling
  have keyed : keyOf binding.recipe.id = binding.registered :=
    (plain.keyed kept).trans plain.registered.symm
  have typed : value.type = binding.registered.type :=
    plain.produces.trans (congrArg Key.type plain.registered).symm
  have first : (keepIf true home.id (.made binding.recipe.id) (construct home.id context
      binding.recipe inputs.arguments inputs.flag false)).Returns behaviour world
        fun outcome last => outcome = .ok value ∧ ∃ made, Counted making made ∧
          last = made.fill home.id (.made binding.recipe.id) (.filled (.ok value)) := by
    apply returns_keep_empty unmade
    have constructs : (construct home.id context binding.recipe inputs.arguments inputs.flag
        false).Returns behaviour making fun outcome last =>
          outcome = .ok value ∧ Counted making last :=
      returns_construct inputs.flag steady.usable plain.source fits
    apply constructs.mono
    rintro _ made ⟨rfl, counted⟩
    exact ⟨rfl, made, counted, rfl⟩
  unfold produceFrom
  simp only [kept, plain.cast, undecorated, Option.isSome_none]
  apply returns_bind first nofun
  rintro _ _ ⟨isValue, made, counted, rfl⟩
  cases isValue
  -- Both cells of a recipe are empty or none is, so that the value is finished here as well.
  have unshown : (made.fill home.id (.made binding.recipe.id) (.filled (.ok value))).state.cell?
      home.id (.shown binding.recipe.id binding.registered) = none := by
    have before := (steady.paired home.id binding.recipe.id).mp unmade
    rw [keyed] at before
    rw [World.cell?_fill, if_neg (by simp)]
    unfold State.cell?
    rw [State.scope_congr counted.scopes]
    exact (World.cell?_fill ..).trans ((if_neg (by simp)).trans before)
  apply returns_keep_empty unshown
  have stillOpen : (((made.fill home.id (.made binding.recipe.id) (.filled (.ok value))).fill home.id
      (.shown binding.recipe.id binding.registered) .filling).state.scope home.id).closed =
        false := by
    rw [World.closed_fill, World.closed_fill, State.scope_congr counted.scopes,
      World.closed_fill, opened]
  apply (returns_finish key plain.cast plain.closer rfl stillOpen).mono
  rintro _ last ⟨rfl, promised⟩
  have gained : Gained home.id [.made binding.recipe.id, .shown binding.recipe.id
      binding.registered] value world (last.fill home.id
        (.shown binding.recipe.id binding.registered) (.filled (.ok value))) :=
    .ofCells counted promised
  have isShown := gained.cells (.shown binding.recipe.id binding.registered)
  rw [if_pos (List.mem_cons_of_mem _ List.mem_cons_self)] at isShown
  rw [← keyed] at gained typed
  obtain ⟨steady', later⟩ := steady.gained_kept distinct member opened unmade typed gained
  rw [keyed] at steady' later typed
  refine ⟨steady', later, value, rfl, typed, fun _ => isShown, ?_⟩
  intro unkept
  cases kept.symm.trans unkept

/-- An instance that is not kept is made and finished. -/
theorem returns_unkept (unkept : binding.recipe.lifetime.isKept = false) :
    (produceFrom home context key binding inputs).Returns behaviour world fun outcome last =>
      Steady context scopes last ∧ Later world last ∧
        ∃ value, outcome = .ok value ∧ Handed binding home world value last := by
  unfold produceFrom
  simp only [keepIf, unkept, plain.cast, undecorated, Option.isSome_none, Bool.false_eq_true,
    if_false]
  apply returns_bind (returns_construct inputs.flag steady.usable plain.source fits)
  · rintro error middle ⟨⟨⟩, _⟩
  rintro made middle ⟨isMade, counted⟩
  cases isMade
  have stillOpen : (middle.state.scope home.id).closed = false := by
    rw [State.scope_congr counted.scopes, opened]
  apply (returns_finish key plain.cast plain.closer rfl stillOpen).mono
  rintro _ last ⟨rfl, promised⟩
  have gained : Gained home.id [] ⟨binding.recipe.produces, .object world.memory.counts.made⟩ world
      last := .ofNone counted promised
  refine ⟨steady.gained distinct member opened gained (by simp) (by simp),
    gained.later (by simp), _, rfl, ?_⟩
  refine ⟨plain.produces.trans (congrArg Key.type plain.registered).symm, ?_, ?_⟩
  · intro kept
    cases unkept.symm.trans kept
  · intro _
    refine ⟨world.memory.counts.made, rfl, Nat.le_refl _, ?_⟩
    rw [gained.counts]
    exact Nat.lt_succ_self _

/-- With its arguments at hand, a service is always handed out. -/
theorem returns_produceFrom :
    (produceFrom home context key binding inputs).Returns behaviour world fun outcome last =>
      Steady context scopes last ∧ Later world last ∧
        ∃ value, outcome = .ok value ∧ Handed binding home world value last := by
  cases kept : binding.recipe.lifetime.isKept with
  | false => exact returns_unkept steady distinct member opened plain fits undecorated kept
  | true =>
      by_cases unmade : world.state.cell? home.id (.made binding.recipe.id) = none
      · exact returns_unmade steady distinct member opened plain fits undecorated kept unmade
      · exact returns_recalled steady plain kept unmade

end Cells

/-! ## Requests -/

section Requests

variable {context : ContextId} {scopes : List (Scope client)} {root : ScopeId}
  {scope home : Scope client} {key : Key} {binding : Binding client} {active : List Key}
  {resolver : Resolver client} {world middle last : World client (Record client Counts)}

/-- What was handed out since a later world was handed out since an earlier one. -/
theorem Handed.earlier {value : Value client} (later : Later world middle)
    (handed : Handed binding home middle value last) : Handed binding home world value last where
  type := handed.type
  kept := handed.kept
  fresh := by
    intro unkept
    obtain ⟨number, isNumber, least, most⟩ := handed.fresh unkept
    exact ⟨number, isNumber, Nat.le_trans later.grows least, most⟩

/-- What a request for a service comes to: it can only hand something out if the scope was open and
the service has a home. -/
structure Yields (context : ContextId) (scopes : List (Scope client)) (scope : Scope client)
    (binding : Binding client) (world : World client (Record client Counts))
    (outcome : Outcome client) (last : World client (Record client Counts)) : Prop where
  steady : Steady context scopes last
  later : Later world last
  hands : ∀ value, outcome = .ok value → (world.state.scope scope.id).closed = false ∧
    ∃ home, binding.home? scope = some home ∧ Handed binding home world value last

/-- Requests for a key of a scope return, with a service of its type if with one, and leave the
world steady. -/
def Serves (resolver : Resolver client) (scopes : List (Scope client)) (context : ContextId)
    (scope : Scope client) (active : List Key) (key : Key) : Prop :=
  ∀ world, Steady context scopes world →
    (resolver scope context key active).Returns behaviour world fun outcome last =>
      Steady context scopes last ∧ Later world last ∧
        ∀ value, outcome = .ok value → value.type = key.type

/-- Arguments are resolved, and the world stays steady. -/
theorem returns_arguments (service : Key) (flag : FlagId) {params : List Param}
    (serves : ∀ needed, .service needed ∈ params →
      Serves resolver scopes context home active needed)
    (steady : Steady context scopes world) :
    (resolver.arguments home context service active flag params).Returns behaviour world
      fun outcome last => Steady context scopes last ∧ Later world last ∧
        ∀ arguments, outcome = .ok arguments → List.Forall₂ (Fits Typed) params arguments := by
  induction params generalizing world with
  | nil =>
      refine returns_pure ⟨steady, .refl _, ?_⟩
      rintro _ ⟨⟩
      exact .nil
  | cons param params ih =>
      have first : (wrapDependency service param
          (resolver.argument home context active flag param)).Returns behaviour world
            fun outcome last => Steady context scopes last ∧ Later world last ∧
              ∀ argument, outcome = .ok argument → Fits Typed param argument := by
        cases param with
        | context =>
            refine returns_pure ⟨steady, .refl _, ?_⟩
            rintro _ ⟨⟩
            exact .context context
        | scope =>
            refine returns_pure ⟨steady, .refl _, ?_⟩
            rintro _ ⟨⟩
            exact .scope _
        | service needed =>
            have resolves := serves needed List.mem_cons_self world steady
            have wraps : (resolver.argument home context active flag (.service needed)).Returns
                behaviour world fun outcome last => Steady context scopes last ∧
                  Later world last ∧ ∀ argument, outcome = .ok argument →
                    Fits Typed (.service needed) argument := by
              apply returns_bind resolves
              · exact fun error last ⟨steady, later, _⟩ => ⟨steady, later, nofun⟩
              · rintro value last ⟨steady, later, typed⟩
                refine returns_pure ⟨steady, later, ?_⟩
                rintro _ ⟨⟩
                exact .service (typed value rfl)
            apply returns_tryCatch wraps
            · exact fun _ _ ends => ends
            · exact fun error last ⟨steady, later, _⟩ => returns_fail ⟨steady, later, nofun⟩
      apply returns_bind first
      · exact fun error last ⟨steady, later, _⟩ => ⟨steady, later, nofun⟩
      rintro argument middle ⟨steady, later, fit⟩
      apply returns_bind (ih (fun needed needs => serves needed (List.mem_cons_of_mem _ needs))
        steady)
      · exact fun error last ⟨steady, later', _⟩ => ⟨steady, later.trans later', nofun⟩
      rintro arguments last ⟨steady, later', fits⟩
      refine returns_pure ⟨steady, later.trans later', ?_⟩
      rintro _ ⟨⟩
      exact .cons (fit argument rfl) (fits arguments rfl)

/-- What a service needs that is not kept yet, where nothing is decorated. -/
theorem returns_inputs (undecorated : home.registry.decorators = [])
    (serves : ∀ needed, .service needed ∈ binding.recipe.params →
      Serves resolver scopes context home active needed)
    (steady : Steady context scopes world)
    (unmade : binding.recipe.lifetime.isKept = true →
      world.state.cell? home.id (.made binding.recipe.id) = none) :
    (resolver.inputs home context key binding active).Returns behaviour world
      fun outcome last => Steady context scopes last ∧ Later world last ∧
        ∀ inputs, outcome = .ok inputs → inputs.stages = [] ∧
          List.Forall₂ (Fits Typed) binding.recipe.params inputs.arguments := by
  have plain : home.registry.decoratorsOf binding.registered = [] := by
    simp [Registry.decoratorsOf, undecorated]
  let numbered : World client (Record client Counts) := world.numbering 1
  have still : Still world numbered := ⟨rfl, Nat.le_refl _, rfl, rfl⟩
  have looks : (isMade home.id binding.recipe).alone behaviour numbered =
      some (.ok false, numbered) := by
    unfold isMade
    cases kept : binding.recipe.lifetime.isKept with
    | false => rfl
    | true =>
        have empty : numbered.state.kept? home.id (.made binding.recipe.id) = none := by
          rw [State.kept?_eq, still.cell?, unmade kept]
          rfl
        have performs : (Operation.peek home.id (.made binding.recipe.id)).perform
            numbered.state = some (none, numbered.state) := by
          rw [Operation.perform, empty]
          rfl
        exact Request.alone_bind_act performs
  unfold Resolver.inputs
  apply returns_bind_act rfl
  apply returns_bind_ok looks
  apply returns_bind (returns_arguments key _ serves (steady.still still))
  · rintro error last ⟨steady, later, _⟩
    exact ⟨steady, still.later.trans later, by rintro _ ⟨⟩⟩
  rintro arguments last ⟨steady, later, fits⟩
  rw [plain]
  refine returns_pure ⟨steady, still.later.trans later, ?_⟩
  rintro _ ⟨⟩
  exact ⟨rfl, fits arguments rfl⟩

section Bound

variable (distinct : (scopes.map Scope.id).Nodup) (member : home ∈ scopes)
  (undecorated : home.registry.decorators = []) (plain : Plain binding key)
  (serves : ∀ needed, .service needed ∈ binding.recipe.params →
    Serves resolver scopes context home (active ++ [key]) needed)
  (steady : Steady context scopes world) (opened : (world.state.scope home.id).closed = false)

include distinct member undecorated plain serves steady opened

/-- What is not kept yet is made of its arguments, if they can be had. -/
theorem returns_create (unmade : binding.recipe.lifetime.isKept = true →
      world.state.cell? home.id (.made binding.recipe.id) = none) :
    (resolver.create home context key binding active).Returns behaviour world
      fun outcome last => Steady context scopes last ∧ Later world last ∧
        ∀ value, outcome = .ok value → Handed binding home world value last := by
  rw [Resolver.create_eq]
  apply returns_bind (returns_inputs undecorated serves steady unmade)
  · exact fun error last ⟨steady, later, _⟩ => ⟨steady, later, nofun⟩
  rintro inputs middle ⟨steady, later, ready⟩
  obtain ⟨unstaged, fits⟩ := ready inputs rfl
  have stillOpen : (middle.state.scope home.id).closed = false := by
    rw [later.closed, opened]
  apply (returns_produceFrom steady distinct member stillOpen plain fits unstaged).mono
  rintro outcome last ⟨steady, later', value, rfl, handed⟩
  refine ⟨steady, later.trans later', ?_⟩
  rintro _ ⟨⟩
  exact handed.earlier later

/-- A service is handed out, recalled or made, by the scope that its instances belong to. -/
theorem returns_resolveIn (inactive : key ∉ active) :
    (resolver.resolveIn home context key binding active).Returns behaviour world
      fun outcome last => Steady context scopes last ∧ Later world last ∧
        ∀ value, outcome = .ok value → Handed binding home world value last := by
  have creates := returns_create distinct member undecorated plain serves steady opened
  cases kept : binding.recipe.lifetime.isKept with
  | false =>
      have skips : resolver.resolveIn home context key binding active =
          resolver.create home context key binding active := by
        have unkept : recallShown home.id binding = pure none := if_neg (by simp [kept])
        rw [Resolver.resolveIn, unkept]
        exact if_neg inactive
      rw [skips]
      apply creates
      intro isKept
      cases kept.symm.trans isKept
  | true =>
      have paired := steady.paired home.id binding.recipe.id
      rw [plain.keyed kept, ← plain.registered] at paired
      rcases steady.cells home.id (.shown binding.recipe.id binding.registered) with
        unshown | ⟨value, isShown, typed⟩
      · have empty : world.state.kept? home.id (.shown binding.recipe.id binding.registered) =
            none := by
          rw [State.kept?_eq, unshown]
          rfl
        exact (creates fun _ => paired.mpr unshown).congr
          (alone_resolveIn_unshown kept empty inactive)
      · have reports : (do
            Request.report (.resolvedFromCache key home.id)
            Request.ofExcept (.ok value) : Request client (Value client)).Returns behaviour world
              fun outcome last => Steady context scopes last ∧ Later world last ∧
                ∀ value, outcome = .ok value → Handed binding home world value last := by
          have still := Still.report (.resolvedFromCache key home.id) world
          apply returns_bind_call rfl
          refine returns_ofExcept ⟨steady.still still, still.later, ?_⟩
          rintro _ ⟨⟩
          refine ⟨typed _ _ rfl, fun _ => (still.cell? _ _).trans isShown, ?_⟩
          intro unkept
          cases kept.symm.trans unkept
        exact reports.congr (alone_resolveIn_shown kept (State.kept?_eq_some.mpr isShown))

end Bound

section Scopes

variable (grove : Grove root scopes) (member : scope ∈ scopes) (steady : Steady context scopes world)

include grove member

/-- Where the instances of a service belong, if they belong anywhere that is open. -/
theorem returns_effectiveScope (bound : scope.registry.find? key = some binding)
    (opened : (world.state.scope scope.id).closed = false) :
    (effectiveScope scope key binding).Returns behaviour world fun outcome last => last = world ∧
      ∀ home, outcome = .ok home → binding.home? scope = some home ∧ home ∈ scopes ∧
        (world.state.scope home.id).closed = false := by
  unfold effectiveScope Binding.home?
  cases lifetime : binding.recipe.lifetime with
  | singleton =>
      obtain ⟨owner, owns, _⟩ := (grove.built scope member).sound.owner bound
      have isAbove := grove.above scope member owner (.ofAncestor owns)
      simp only [owns]
      apply returns_bind (returns_ensureOpen owner.id)
      · exact fun error last ⟨same, _⟩ => ⟨same, nofun⟩
      · rintro _ _ ⟨rfl, ⟨isOpen, _⟩ | ⟨_, impossible⟩⟩
        · refine returns_pure ⟨rfl, ?_⟩
          rintro _ ⟨⟩
          exact ⟨rfl, isAbove, isOpen⟩
        · cases impossible
  | perScope =>
      by_cases owns : scope.id = binding.owner
      · simp only [owns, if_true]
        exact returns_fail ⟨rfl, nofun⟩
      · simp only [owns, if_false]
        refine returns_pure ⟨rfl, ?_⟩
        rintro _ ⟨⟩
        exact ⟨rfl, member, opened⟩
  | transient =>
      refine returns_pure ⟨rfl, ?_⟩
      rintro _ ⟨⟩
      exact ⟨rfl, member, opened⟩

include steady

/-- A request for a service that is bound in a scope. -/
theorem returns_resolve (bound : scope.registry.find? key = some binding)
    (plain : Plain binding key) (inactive : key ∉ active)
    (serves : ∀ home ∈ scopes, ∀ needed, .service needed ∈ binding.recipe.params →
      Serves resolver scopes context home (active ++ [key]) needed) :
    (resolver.resolve scope context key active).Returns behaviour world
      (Yields context scopes scope binding world) := by
  unfold Resolver.resolve
  apply returns_bind_ok (alone_ensureUsable steady.usable)
  apply returns_bind (returns_ensureOpen scope.id)
  · rintro error last ⟨rfl, _⟩
    exact ⟨steady, .refl _, nofun⟩
  rintro _ _ ⟨rfl, ⟨opened, _⟩ | ⟨_, impossible⟩⟩
  · simp only [bound, plain.source]
    apply returns_bind (returns_effectiveScope grove member bound opened)
    · rintro error last ⟨rfl, _⟩
      exact ⟨steady, .refl _, nofun⟩
    rintro home _ ⟨rfl, found⟩
    obtain ⟨isHome, among, openedHome⟩ := found home rfl
    apply (returns_resolveIn grove.distinct among (grove.stocked home among).undecorated plain
      (serves home among) steady openedHome inactive).mono
    rintro outcome last ⟨steady, later, hands⟩
    exact ⟨steady, later, fun value isValue => ⟨opened, home, isHome, hands value isValue⟩⟩
  · cases impossible

end Scopes

/-- A service that requests hand out can be an argument. -/
theorem Serves.of_yields (plain : Plain binding key)
    (yields : ∀ world, Steady context scopes world →
      (resolver scope context key active).Returns behaviour world
        (Yields context scopes scope binding world)) :
    Serves resolver scopes context scope active key := by
  intro world steady
  apply (yields world steady).mono
  intro outcome last ⟨steady, later, hands⟩
  refine ⟨steady, later, ?_⟩
  intro value isValue
  obtain ⟨_, home, _, handed⟩ := hands value isValue
  rw [handed.type, plain.registered]

/-- A service that requests hand out has the type that was asked for. -/
theorem returns_resolveTyped (plain : Plain binding key)
    (yields : (resolve scope context key).Returns behaviour world
      (Yields context scopes scope binding world)) :
    (scope.resolveTyped context key).Returns behaviour world
      (Yields context scopes scope binding world) := by
  apply returns_bind yields
  · intro error last ⟨steady, later, _⟩
    exact ⟨steady, later, nofun⟩
  intro value last yield
  obtain ⟨_, home, _, handed⟩ := yield.hands value rfl
  have typed : value.type = key.type := by rw [handed.type, plain.registered]
  rw [if_pos typed]
  exact returns_pure yield

end Requests

/-! ## The three services -/

section Services

variable {context : ContextId} {scopes : List (Scope client)} {root : ScopeId}
  {scope : Scope client} {active : List Key} {resolver : Resolver client}
  {world : World client (Record client Counts)}

/-- The shared service is bound without conversions and decorators. -/
theorem plain_shared (owner : ScopeId) : Plain (bindingOf sharedOffer owner 0) (.of shared) :=
  ⟨rfl, rfl, rfl, rfl, rfl, fun _ => rfl⟩

/-- The service for each scope is bound without conversions and decorators. -/
theorem plain_perScope (owner : ScopeId) :
    Plain (bindingOf perScopeOffer owner 1) (.of perScope) :=
  ⟨rfl, rfl, rfl, rfl, rfl, fun _ => rfl⟩

/-- The service that is made afresh is bound without conversions and decorators. -/
theorem plain_fresh (owner : ScopeId) : Plain (bindingOf freshOffer owner 2) (.of fresh) :=
  ⟨rfl, rfl, rfl, rfl, rfl, nofun⟩

/-- Requests are nested deep enough for the three services. -/
theorem Stocked.resolve_eq (stocked : Stocked root scope) : ∃ resolver : Resolver client,
    ∀ context key, resolve scope context key =
      resolver.resolve.resolve.resolve scope context key [] := by
  let keys : List Key := [.of ScopeTree.shared, .of ScopeTree.perScope, .of ScopeTree.fresh]
  have bound : ∀ key ∈ keys, (scope.registry.find? key).isSome = true := by
    obtain ⟨owner, finds⟩ := stocked.shared
    simp [keys, finds, stocked.perScope, stocked.fresh]
  have deep : 3 ≤ scope.registry.bound := scope.registry.length_le_bound (by decide) bound
  obtain ⟨depth, isDepth⟩ : ∃ depth, scope.registry.bound + 1 = depth + 3 :=
    ⟨scope.registry.bound - 2, by omega⟩
  refine ⟨resolveWithin depth, ?_⟩
  intro context key
  rw [resolve, isDepth]
  rfl

variable (grove : Grove root scopes)

include grove

/-- One level of resolution suffices for the shared service. -/
theorem yields_shared (member : scope ∈ scopes) (inactive : .of shared ∉ active) :
    ∃ owner, ∀ world, Steady context scopes world →
      (resolver.resolve scope context (.of shared) active).Returns behaviour world
        (Yields context scopes scope (bindingOf sharedOffer owner 0) world) := by
  obtain ⟨owner, bound⟩ := (grove.stocked scope member).shared
  refine ⟨owner, ?_⟩
  intro world steady
  apply returns_resolve grove member steady bound (plain_shared owner) inactive
  intro home among needed needs
  cases needs

/-- Two levels of resolution suffice for the service for each scope. -/
theorem yields_perScope (member : scope ∈ scopes) (inactive : .of perScope ∉ active)
    (below : .of shared ∉ active) (steady : Steady context scopes world) :
    (resolver.resolve.resolve scope context (.of perScope) active).Returns behaviour world
      (Yields context scopes scope (bindingOf perScopeOffer root 1) world) := by
  apply returns_resolve grove member steady (grove.stocked scope member).perScope
    (plain_perScope root) inactive
  intro home among needed needs
  have isShared : needed = .of shared := Param.service.inj (List.mem_singleton.mp needs)
  subst isShared
  have inactive : Key.of shared ∉ active ++ [.of perScope] := by
    simp only [List.mem_append, List.mem_singleton, not_or]
    exact ⟨below, by decide⟩
  obtain ⟨owner, yields⟩ := yields_shared grove among inactive
  exact .of_yields (plain_shared owner) yields

/-- Three levels of resolution suffice for the service that is made afresh. -/
theorem yields_fresh (member : scope ∈ scopes) (steady : Steady context scopes world) :
    (resolver.resolve.resolve.resolve scope context (.of fresh) []).Returns behaviour world
      (Yields context scopes scope (bindingOf freshOffer root 2) world) := by
  apply returns_resolve grove member steady (grove.stocked scope member).fresh (plain_fresh root)
    List.not_mem_nil
  intro home among needed needs
  have isPerScope : needed = .of perScope := Param.service.inj (List.mem_singleton.mp needs)
  subst isPerScope
  apply Serves.of_yields (plain_perScope root)
  intro world steady
  exact yields_perScope grove among (by decide) (by decide) steady

/-- A request for the shared service can only succeed if the scope is open. -/
theorem resolves_shared (member : scope ∈ scopes) (steady : Steady context scopes world) :
    ∃ owner, (scope.resolveTyped context (.of shared)).Returns behaviour world
      (Yields context scopes scope (bindingOf sharedOffer owner 0) world) := by
  obtain ⟨resolver, unfolds⟩ := (grove.stocked scope member).resolve_eq
  obtain ⟨owner, yields⟩ := yields_shared grove member List.not_mem_nil
  refine ⟨owner, returns_resolveTyped (plain_shared owner) ?_⟩
  rw [unfolds]
  exact yields world steady

/-- A request for the service for each scope returns an instance of the scope. -/
theorem resolves_perScope (member : scope ∈ scopes) (steady : Steady context scopes world) :
    (scope.resolveTyped context (.of perScope)).Returns behaviour world
      (Yields context scopes scope (bindingOf perScopeOffer root 1) world) := by
  obtain ⟨resolver, unfolds⟩ := (grove.stocked scope member).resolve_eq
  apply returns_resolveTyped (plain_perScope root)
  rw [unfolds]
  exact yields_perScope grove member List.not_mem_nil List.not_mem_nil steady

/-- A request for the service that is made afresh returns a new instance. -/
theorem resolves_fresh (member : scope ∈ scopes) (steady : Steady context scopes world) :
    (scope.resolveTyped context (.of fresh)).Returns behaviour world
      (Yields context scopes scope (bindingOf freshOffer root 2) world) := by
  obtain ⟨resolver, unfolds⟩ := (grove.stocked scope member).resolve_eq
  apply returns_resolveTyped (plain_fresh root)
  rw [unfolds]
  exact yields_fresh grove member steady

end Services

end Trial.ScopeTree

end Provision
