import Provision.Proofs.Trials.TrialRequests
import Provision.Proofs.Trials.TrialRuns

/-!
# The trial of scope trees

What an operation of the trial finds is as it should be, and it leaves the world steady: a child is
built of an open scope and of no other, an instance is shared as far as its lifetime says, and a
scope is closed once.  In the end all scopes are closed, so that no promise is left and as many
instances were closed as were made.

Main statement: `scope_trial_passes`.
-/

namespace Provision.Trial.ScopeTree

open Request Check

/-- A world in which a scope was shut and all that it had promised to close was closed. -/
structure Shut (scope : ScopeId) (world last : World client (Record client Counts)) : Prop
    extends Touched scope world last where
  closed : (last.state.scope scope).closed = true
  closers : (last.state.scope scope).closers = []
  cells : (last.state.scope scope).cells = (world.state.scope scope).cells
  counts : last.memory.counts = { world.memory.counts with
    closed := world.memory.counts.closed + (world.state.scope scope).closers.length }

variable {context : ContextId} {scopes : List (Scope client)} {root : ScopeId}
  {scope parent : Scope client} {world middle last : World client (Record client Counts)}

/-! ## Closing -/

/-- The world stays steady when a scope is shut. -/
theorem Steady.shut (steady : Steady context scopes world) (distinct : (scopes.map Scope.id).Nodup)
    (member : scope ∈ scopes) (shut : Shut scope.id world last) :
    Steady context scopes last := by
  have same : ∀ cell, last.state.cell? scope.id cell = world.state.cell? scope.id cell := by
    intro cell
    unfold State.cell?
    rw [shut.cells]
  apply steady.touched distinct member shut.toTouched
  · intro cell
    rw [same]
    exact steady.cells scope.id cell
  · intro recipe
    rw [same, same]
    exact steady.paired scope.id recipe
  · exact fun _ => shut.closers
  · rw [shut.counts, shut.closers, List.length_nil]
    simp only
    omega

/-- Closers are counted and do not fail. -/
theorem closers_run (id : ScopeId) (context : ContextId) (closers : List (PendingCloser client))
    (world : World client (Record client Counts)) : ∃ last,
      (Scope.runClosers id context closers).run behaviour world = some ([], last) ∧
        last.state = world.state ∧ last.memory.counts =
          { world.memory.counts with
            closed := world.memory.counts.closed + closers.length } := by
  induction closers generalizing world with
  | nil => exact ⟨world, rfl, rfl, rfl⟩
  | cons closer rest ih =>
      obtain ⟨last, runs, state, counts⟩ := ih { world with memory := countClosed world.memory }
      refine ⟨last, runs, state, ?_⟩
      rw [counts, List.length_cons, Nat.add_comm rest.length, ← Nat.add_assoc]
      rfl

/-- Closing fails if the scope was closed before, and then it is closed. -/
theorem returns_close (distinct : (scopes.map Scope.id).Nodup) (member : scope ∈ scopes)
    (steady : Steady context scopes world) :
    (scope.close context).Returns behaviour world fun outcome last =>
      Steady context scopes last ∧ (last.state.scope scope.id).closed = true ∧
        (∀ id, (world.state.scope id).closed = true → (last.state.scope id).closed = true) ∧
          isClosedError outcome = (world.state.scope scope.id).closed := by
  cases before : (world.state.scope scope.id).closed with
  | true =>
      have performs : (Operation.shut scope.id).perform world.state = some (none, world.state) := by
        simp only [Operation.perform, before]
        rfl
      exact returns_bind_act performs (returns_fail ⟨steady, before, fun _ => id, rfl⟩)
  | false =>
      let closers := (world.state.scope scope.id).closers
      let state := world.state.setScope scope.id
        { world.state.scope scope.id with closed := true, closers := [] }
      have performs : (Operation.shut scope.id).perform world.state =
          some (some closers, state) := by
        simp only [Operation.perform, before]
        rfl
      let notice : Notice := .closingScope scope.id scope.depth closers.length
      obtain ⟨last, runs, same, counts⟩ := closers_run scope.id context closers.reverse
        (listen notice { world with state })
      have here : last.state.scope scope.id =
          { world.state.scope scope.id with closed := true, closers := [] } := by
        rw [same]
        exact State.scope_setScope_self ..
      have others : ∀ id, id ≠ scope.id → last.state.scope id = world.state.scope id := by
        intro id differs
        rw [same]
        exact (State.scope_setScope ..).trans (if_neg differs.symm)
      have shut : Shut scope.id world last := by
        refine ⟨⟨?_, ?_, others⟩, ?_, ?_, ?_, ?_⟩
        · rw [same]
          rfl
        · rw [same]
          rfl
        · rw [here]
        · rw [here]
        · rw [here]
        · rw [counts, List.length_reverse]
          rfl
      have stays : ∀ id, (world.state.scope id).closed = true →
          (last.state.scope id).closed = true := by
        intro id closed
        by_cases isScope : id = scope.id
        · rw [isScope, shut.closed]
        · rw [others id isScope, closed]
      apply returns_bind_act performs
      apply returns_bind_call rfl
      apply returns_bind_lift runs
      exact returns_pure ⟨steady.shut distinct member shut, shut.closed, stays, rfl⟩

/-! ## Building -/

/-- A world in which only scopes were numbered is still. -/
theorem Still.numbered (numbered : Numbered world last) : Still world last where
  contexts := by rw [numbered.state]
  nextScope := by
    rw [numbered.state]
    exact Nat.le_succ _
  scopes := by rw [numbered.state]
  counts := numbered.counts

/-- A scope that was built has promised nothing. -/
theorem Steady.built (steady : Steady context scopes world) (numbered : Numbered world last)
    (isNew : scope.id = ⟨world.state.nextScope⟩) : Steady context (scopes ++ [scope]) last := by
  have still := Still.numbered numbered
  have after := steady.still still
  refine { after with known := ?_, balanced := ?_ }
  · intro other member
    cases List.mem_append.mp member with
    | inl old => exact after.known other old
    | inr new =>
        rw [List.mem_singleton.mp new, isNew, numbered.state]
        exact Nat.lt_succ_self _
  · have nothing : world.state.scope scope.id = {} := by
      rw [isNew]
      exact steady.unknown _ (Nat.le_refl _)
    have same : pending last.state (scopes ++ [scope]) = pending last.state scopes := by
      simp [pending, State.scope_congr still.scopes, nothing]
    rw [same, after.balanced]

/-! ## The tree grows -/

/-- A root alone is a grove. -/
theorem grove_root (id : ScopeId) :
    Grove id [((Builder.root id).addAll registrations).scope] := by
  let builder : Builder client := (Builder.root id).addAll registrations
  obtain ⟨node, isRoot, _⟩ := Builder.scope_of_none
    (show builder.parent = none from Builder.addAll_parent ..)
  refine ⟨?_, ?_, ?_, List.nodup_singleton _, ?_⟩
  · intro scope member
    rw [List.mem_singleton.mp member]
    exact .root id registrations
  · intro scope member
    rw [List.mem_singleton.mp member]
    exact stocked_root id
  · intro scope member above isAbove
    rw [List.mem_singleton.mp member, isRoot] at isAbove
    cases isAbove
    rw [← isRoot]
    exact List.mem_singleton_self _
  · intro scope member _
    rw [List.mem_singleton.mp member, Builder.scope_id, Builder.addAll_id]
    rfl

/-- A child of a scope of the tree, under an identity that no scope has yet. -/
theorem Grove.child (grove : Grove root scopes) (member : parent ∈ scopes) {id : ScopeId}
    (fresh : ∀ scope ∈ scopes, scope.id ≠ id) (overrides : Bool) :
    Grove root
      (scopes ++ [((Builder.child id parent).addAll (additions overrides)).scope]) := by
  let builder := (Builder.child id parent).addAll (additions overrides)
  obtain ⟨node, isChild, _⟩ := Builder.scope_of_parent
    (show builder.parent = some parent from Builder.addAll_parent ..)
  have isId : builder.scope.id = id := (Builder.scope_id _).trans (Builder.addAll_id ..)
  -- The ancestors of a scope of the tree are in the tree, where nothing has this identity.
  have isNew : id ∉ parent.lineage := by
    intro old
    obtain ⟨above, found⟩ := Scope.ancestor?_isSome_of_mem old
    exact fresh above (grove.above parent member above (.ofAncestor found))
      (Scope.ancestor?_some found).1
  refine ⟨?_, ?_, ?_, ?_, ?_⟩
  · intro scope among
    cases List.mem_append.mp among with
    | inl old => exact grove.built scope old
    | inr new =>
        rw [List.mem_singleton.mp new]
        exact .child id _ (grove.built parent member) isNew
  · intro scope among
    cases List.mem_append.mp among with
    | inl old => exact grove.stocked scope old
    | inr new =>
        rw [List.mem_singleton.mp new]
        exact ((grove.stocked parent member).child id overrides).2.2
  · intro scope among above isAbove
    cases List.mem_append.mp among with
    | inl old => exact List.mem_append_left _ (grove.above scope old above isAbove)
    | inr new =>
        rw [List.mem_singleton.mp new, isChild] at isAbove
        cases isAbove with
        | refl =>
            rw [← isChild]
            exact List.mem_append_right _ (List.mem_singleton_self _)
        | child _ upper => exact List.mem_append_left _ (grove.above parent member above upper)
  · rw [List.map_append, List.nodup_append]
    refine ⟨grove.distinct, List.nodup_singleton _, ?_⟩
    intro old isOld new isNew same
    obtain ⟨scope, among, isScope⟩ := List.mem_map.mp isOld
    rw [List.mem_singleton.mp isNew, isId] at same
    exact fresh scope among (isScope.trans same)
  · intro scope among shallow
    cases List.mem_append.mp among with
    | inl old => exact grove.isRoot scope old shallow
    | inr new =>
        rw [List.mem_singleton.mp new, isChild] at shallow
        cases shallow

/-! ## Operations -/

/-- An operation on a scope of the tree finds what it should, and what holds between operations
holds again. -/
def Upholds (context : ContextId) (root : ScopeId)
    (check : Check client Counts (List (Scope client)))
    (world : World client (Record client Counts)) : Prop :=
  check.Passes world fun scopes last => Grove root scopes ∧ Steady context scopes last

/-- Only two values can be the same instance or two instances. -/
theorem sameInstance?_eq {first second : Outcome client} {same : Bool}
    (found : sameInstance? first second = some same) : ∃ one two : Value client,
      first = .ok one ∧ second = .ok two ∧ ∃ number number',
        one.content = .object number ∧ two.content = .object number' ∧
          same = decide (number = number') := by
  unfold sameInstance? at found
  split at found
  · cases found
    exact ⟨_, _, rfl, rfl, _, _, rfl, rfl, rfl⟩
  · cases found

/-- What two requests to a scope for its own instance yield is one instance. -/
theorem sameInstance_of_yields {first second : Outcome client}
    (yields : Yields context scopes scope (bindingOf perScopeOffer root 1) world first middle)
    (again : Yields context scopes scope (bindingOf perScopeOffer root 1) middle second last) :
    (sameInstance? first second).getD true = true := by
  cases found : sameInstance? first second with
  | none => rfl
  | some same =>
      obtain ⟨one, two, rfl, rfl, number, number', isNumber, isNumber', rfl⟩ :=
        sameInstance?_eq found
      obtain ⟨_, home, isHome, handed⟩ := yields.hands one rfl
      obtain ⟨_, _, isHome', handed'⟩ := again.hands two rfl
      cases isHome.symm.trans isHome'
      -- What the first request left in the cell is what the second one finds there.
      have kept := again.later.retains (handed.kept rfl)
      cases kept.symm.trans (handed'.kept rfl)
      cases isNumber.symm.trans isNumber'
      exact decide_eq_true rfl

/-- What two requests for a service that is not kept yield is two instances. -/
theorem differentInstances_of_yields {first second : Outcome client}
    (yields : Yields context scopes scope (bindingOf freshOffer root 2) world first middle)
    (again : Yields context scopes scope (bindingOf freshOffer root 2) middle second last) :
    (sameInstance? first second).getD false = false := by
  cases found : sameInstance? first second with
  | none => rfl
  | some same =>
      obtain ⟨one, two, rfl, rfl, number, number', isNumber, isNumber', rfl⟩ :=
        sameInstance?_eq found
      obtain ⟨_, _, _, handed⟩ := yields.hands one rfl
      obtain ⟨_, _, _, handed'⟩ := again.hands two rfl
      obtain ⟨_, isOld, _, below⟩ := handed.fresh rfl
      obtain ⟨_, isNew, above, _⟩ := handed'.fresh rfl
      -- The first number was taken before the second request, which took a later one.
      cases isNumber.symm.trans isOld
      cases isNumber'.symm.trans isNew
      exact decide_eq_false (Nat.ne_of_lt (Nat.lt_of_lt_of_le below above))

section Operations

variable (grove : Grove root scopes) (member : scope ∈ scopes)
  (steady : Steady context scopes world)

include grove member steady

/-- Building a child upholds the trial. -/
theorem upholds_spawn (number : Nat) (overrides : Bool) :
    Upholds context root (applyTo context scopes scope (.spawn number overrides)) world := by
  let id : ScopeId := ⟨world.state.nextScope⟩
  let builder := (Builder.child id scope).addAll (additions overrides)
  have fresh : ∀ other ∈ scopes, other.id ≠ id := by
    intro other among same
    have known := steady.known other among
    rw [same] at known
    exact Nat.lt_irrefl _ known
  obtain ⟨sound, unpromising, _⟩ := (grove.stocked scope member).child id overrides
  have isId : builder.scope.id = id := (Builder.scope_id _).trans (Builder.addAll_id ..)
  have builds : (Check.build behaviour (some scope) (additions overrides)).Passes world
      fun outcome last =>
        outcome = .ok builder.scope ∧ Steady context (scopes ++ [builder.scope]) last ∨
          outcome = .error .closed ∧ (world.state.scope scope.id).closed = true ∧
            Steady context scopes last := by
    apply passes_build (returns_buildScope (fun _ _ => rfl) rfl sound unpromising)
    rintro outcome last memory counts ⟨numbered, built⟩
    have remembered : Still last { last with memory } := ⟨rfl, Nat.le_refl _, rfl, counts⟩
    rcases built with isChild | ⟨isClosed, _, ⟨⟩, closed⟩
    · exact .inl ⟨isChild, (steady.built numbered isId).still remembered⟩
    · exact .inr ⟨isClosed, closed, (steady.still (Still.numbered numbered)).still remembered⟩
  unfold Upholds applyTo
  apply passes_bind (passes_isClosed scope)
  rintro closed _ ⟨isClosed, rfl⟩
  apply passes_bind builds
  rintro _ last (⟨rfl, steady⟩ | ⟨rfl, wasClosed, steady⟩)
  · exact passes_pure ⟨grove.child member fresh overrides, steady⟩
  · apply passes_bind (passes_ensure (isClosed.trans wasClosed))
    rintro _ _ rfl
    apply passes_bind (passes_ensure rfl)
    rintro _ _ rfl
    exact passes_pure ⟨grove, steady⟩

/-- Resolving the shared service upholds the trial. -/
theorem upholds_resolveShared (number : Nat) :
    Upholds context root (applyTo context scopes scope (.resolveShared number)) world := by
  obtain ⟨owner, returns⟩ := resolves_shared grove member steady
  unfold Upholds applyTo
  apply passes_bind (passes_isClosed scope)
  rintro closed _ ⟨isClosed, rfl⟩
  apply passes_bind (passes_request returns)
  intro outcome last yields
  apply passes_bind (passes_ensure ?_)
  · rintro _ _ rfl
    exact passes_pure ⟨grove, yields.steady⟩
  · cases outcome with
    | error error => simp [Except.isOk, Except.toBool]
    | ok value =>
        rw [isClosed, (yields.hands value rfl).1]
        rfl

/-- Resolving the service for each scope upholds the trial. -/
theorem upholds_resolvePerScope (number : Nat) :
    Upholds context root (applyTo context scopes scope (.resolvePerScope number)) world := by
  unfold Upholds applyTo
  apply passes_bind (passes_request (resolves_perScope grove member steady))
  intro first middle yields
  apply passes_bind (passes_request (resolves_perScope grove member yields.steady))
  intro second last again
  apply passes_bind (passes_ensure (sameInstance_of_yields yields again))
  rintro _ _ rfl
  apply passes_bind (passes_ensure ?_)
  · rintro _ _ rfl
    exact passes_pure ⟨grove, again.steady⟩
  · cases first with
    | error error => simp [Except.isOk, Except.toBool]
    | ok value =>
        obtain ⟨_, home, isHome, _⟩ := yields.hands value rfl
        -- The root registered the service, which then has no home there.
        have lower : scope.depth ≠ 0 := by
          intro shallow
          have isRoot := grove.isRoot scope member shallow
          cases isHome.symm.trans (if_pos isRoot)
        simp [lower]

/-- Resolving the service that is made afresh upholds the trial. -/
theorem upholds_resolveFresh (number : Nat) :
    Upholds context root (applyTo context scopes scope (.resolveFresh number)) world := by
  unfold Upholds applyTo
  apply passes_bind (passes_request (resolves_fresh grove member steady))
  intro first middle yields
  apply passes_bind (passes_request (resolves_fresh grove member yields.steady))
  intro second last again
  apply passes_bind (passes_ensure ?_)
  · rintro _ _ rfl
    exact passes_pure ⟨grove, again.steady⟩
  · rw [differentInstances_of_yields yields again]
    rfl

/-- Closing a scope upholds the trial. -/
theorem upholds_close (number : Nat) :
    Upholds context root (applyTo context scopes scope (.close number)) world := by
  unfold Upholds applyTo
  apply passes_bind (passes_isClosed scope)
  rintro closed _ ⟨isClosed, rfl⟩
  apply passes_bind (passes_request (returns_close grove.distinct member steady))
  intro outcome last ⟨steady, _, _, fails⟩
  apply passes_bind (passes_ensure ?_)
  · rintro _ _ rfl
    exact passes_pure ⟨grove, steady⟩
  · rw [isClosed, fails]
    exact beq_self_eq_true _

/-- Every operation upholds the trial. -/
theorem upholds_applyTo (op : ScopeOp) :
    Upholds context root (applyTo context scopes scope op) world := by
  cases op with
  | spawn number overrides => exact upholds_spawn grove member steady number overrides
  | resolveShared number => exact upholds_resolveShared grove member steady number
  | resolvePerScope number => exact upholds_resolvePerScope grove member steady number
  | resolveFresh number => exact upholds_resolveFresh grove member steady number
  | close number => exact upholds_close grove member steady number

end Operations

/-- Operations find what they should, one after another. -/
theorem upholds_applyAll (grove : Grove root scopes) (steady : Steady context scopes world)
    (ops : List ScopeOp) : Upholds context root (applyAll context scopes ops) world := by
  induction ops generalizing scopes world with
  | nil => exact passes_pure ⟨grove, steady⟩
  | cons op rest ih =>
      unfold Upholds applyAll
      cases picks : pick scopes op.picked with
      | none => exact ih grove steady
      | some scope =>
          have member : scope ∈ scopes := List.mem_of_getElem? picks
          apply passes_bind (upholds_applyTo grove member steady op)
          intro after last ⟨grove, steady⟩
          exact ih grove steady

/-! ## The end -/

/-- While the scopes are being closed, some are left and all others are closed. -/
structure Swept (context : ContextId) (scopes rest : List (Scope client))
    (world : World client (Record client Counts)) : Prop where
  steady : Steady context scopes world
  left : ∀ scope ∈ rest, scope ∈ scopes
  done : ∀ scope ∈ scopes, scope ∈ rest ∨ (world.state.scope scope.id).closed = true

/-- Closed scopes have no promises left, so that what was made is closed. -/
theorem Swept.even (swept : Swept context scopes [] world) :
    world.memory.counts.made = world.memory.counts.closed := by
  have kept : pending world.state scopes = 0 := by
    apply List.sum_eq_zero_iff_forall_eq_nat.mpr
    intro promised member
    obtain ⟨scope, among, isPromised⟩ := List.mem_map.mp member
    have closed := (swept.done scope among).resolve_left List.not_mem_nil
    rw [← isPromised, swept.steady.emptied scope.id closed]
    rfl
  rw [swept.steady.balanced, kept, Nat.add_zero]

/-- All scopes are closed, those that were closed before included. -/
theorem passes_sweep (distinct : (scopes.map Scope.id).Nodup)
    (steady : Steady context scopes world) :
    (scopes.reverse.forM fun scope => do
      let _ ← Check.request behaviour (scope.close context)).Passes world fun _ last =>
        Swept context scopes [] last := by
  have closes : ∀ scope rest world, Swept context scopes (scope :: rest) world →
      (do let _ ← Check.request behaviour (scope.close context)).Passes world fun _ last =>
        Swept context scopes rest last := by
    intro scope rest world ⟨steady, left, done⟩
    have member := left scope List.mem_cons_self
    apply passes_bind (passes_request (returns_close distinct member steady))
    intro _ last ⟨steady, closed, stays, _⟩
    refine passes_pure ⟨steady, fun other among => left other (List.mem_cons_of_mem _ among), ?_⟩
    intro other among
    rcases done other among with awaits | wasClosed
    · rcases List.mem_cons.mp awaits with rfl | later
      · exact .inr closed
      · exact .inl later
    · exact .inr (stays other.id wasClosed)
  apply passes_forM closes
  refine ⟨steady, fun scope member => List.mem_reverse.mp member, ?_⟩
  exact fun scope among => .inl (List.mem_reverse.mpr among)

/-- Before anything is built, all is steady. -/
theorem steady_start {contexts : Contexts} (usable : contexts.error? context = none)
    {memory : Record client Counts} (even : memory.counts.made = memory.counts.closed) :
    Steady context [] { state := { contexts }, memory } where
  usable := usable
  known := nofun
  unknown := fun _ _ => rfl
  cells := fun _ _ => .inl rfl
  paired := fun _ _ => Iff.rfl
  emptied := nofun
  balanced := even

/-- There always is a root. -/
theorem passes_root (steady : Steady context [] world) :
    (Check.build behaviour none registrations).Passes world fun outcome last =>
      ∃ root, outcome = .ok root ∧ Grove root.id [root] ∧ Steady context [root] last := by
  let id : ScopeId := ⟨world.state.nextScope⟩
  let root : Scope client := ((Builder.root id).addAll registrations).scope
  have grove : Grove id [root] := grove_root id
  apply passes_build (returns_buildScope (fun _ _ => rfl) rfl rfl rfl)
  rintro outcome last memory counts ⟨numbered, built⟩
  have remembered : Still last { last with memory } := ⟨rfl, Nat.le_refl _, rfl, counts⟩
  rcases built with isRoot | ⟨_, _, ⟨⟩, _⟩
  exact ⟨root, isRoot, grove, (steady.built numbered rfl).still remembered⟩

/-- The trial passes for every list of operations. -/
theorem trial_passes (ops : List ScopeOp) :
    (trial ops).Passes { state := {}, memory := { counts := {} } } fun verdict _ =>
      verdict = .passed := by
  let started := ({} : Contexts).background
  have usable : started.2.error? started.1 = none := rfl
  unfold trial
  apply passes_bind passes_get
  rintro _ _ ⟨rfl, rfl⟩
  apply passes_bind passes_set
  rintro _ _ rfl
  apply passes_bind (passes_root (steady_start usable rfl))
  rintro _ last ⟨root, rfl, grove, steady⟩
  apply passes_bind (upholds_applyAll grove steady (ops.take 128))
  intro scopes last ⟨grove, steady⟩
  apply passes_bind (passes_sweep grove.distinct steady)
  intro _ last swept
  apply passes_bind passes_get
  rintro _ _ ⟨rfl, rfl⟩
  apply passes_bind (passes_ensure (beq_iff_eq.mpr swept.even))
  rintro _ _ rfl
  exact passes_pure rfl

/-- Whatever the operations are, the trial comes to an end, and nothing that it looks at fails. -/
theorem scope_trial_passes (ops : List ScopeOp) :
    ∃ report, run ops = some report ∧ report.verdict = .passed :=
  report_passed (fun notice world => ⟨listen notice world, rfl⟩) (trial_passes ops)

end Provision.Trial.ScopeTree
