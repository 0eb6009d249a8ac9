import Provision.Proofs.Trials.AcceptedRegistrations
import Provision.Proofs.Trials.DecidedRequests
import Provision.Proofs.Trials.TrialRuns
import Provision.Trial.Registrations

/-!
# The trial of registrations

Whatever is registered, a container can be built of it, and a child of that.  Requests to either are
decided by the registrations, as the only constructor that fails always does, so that a request that
failed fails again.  The list of all nodes has an item for each registration, of which there is one
as soon as there is a list.

Main statement: `registration_trial_passes`.
-/

namespace Provision.Trial.Registrations

open Request Check

variable {context : ContextId} {root base : Scope client}
  {world : World client (Record client Unit)}

/-! ## What is registered -/

/-- The registrations of a trial. -/
def Input.registrations (input : Input) : List (Registration client) :=
  (input.entries.take 32).map Entry.registration

/-- An acceptable offer is so with a tag. -/
theorem acceptable_tagged {offer : Offer client}
    (acceptable : (Registration.service offer).Acceptable) (tag : Option String) :
    (Registration.service (tagged offer tag)).Acceptable := by
  cases tag <;> exact acceptable

/-- An offer without issues that is visible under a single type. -/
theorem acceptable_of_view {offer : Offer client} {type : ServiceType} {cast : Option Unit}
    (sound : offer.issues = []) (views : offer.views = [(type, cast)])
    (unlisted : ∀ item, type ≠ .list item) : (Registration.service offer).Acceptable := by
  refine ⟨sound, ?_⟩
  rw [views]
  intro view member
  rw [List.mem_singleton.mp member]
  exact unlisted

/-- Nothing is wrong with any entry. -/
theorem Entry.acceptable (entry : Entry) : entry.registration.Acceptable := by
  cases entry with
  | leftValue weight tag =>
      apply acceptable_tagged
      exact acceptable_of_view rfl rfl nofun
  | rightValue weight tag =>
      apply acceptable_tagged
      exact acceptable_of_view rfl rfl nofun
  | leftFromRight lifetime tag =>
      apply acceptable_tagged
      exact acceptable_of_view rfl rfl nofun
  | rightFromLeft lifetime => exact acceptable_of_view rfl rfl nofun
  | leftAsNode lifetime => exact acceptable_of_view rfl rfl nofun
  | rightAsNode lifetime tag =>
      apply acceptable_tagged
      exact acceptable_of_view rfl rfl nofun
  | decorateLeft => rfl
  | failingRight => exact acceptable_of_view rfl rfl nofun

/-- Only the first service is ever decorated. -/
theorem Entry.target {entry : Entry} {decorator : Decorator client}
    (registers : entry.registration = .decorator decorator) : decorator.target = .of left := by
  cases entry <;> cases registers
  rfl

/-! ## What is built -/

/-- The builder of the root of a trial when everything is registered. -/
def Input.builder (input : Input) (id : ScopeId) : Builder client :=
  (Builder.root id).addAll input.registrations

/-- The registrations of an input are accepted without a conflict. -/
theorem Input.smooth (input : Input) (id : ScopeId) :
    ∃ bound, (input.builder id).Smooth bound := by
  apply (Builder.smooth_root id).addAll
  intro registration member
  obtain ⟨entry, _, rfl⟩ := List.mem_map.mp member
  exact entry.acceptable

/-- The client has nothing that could be closed. -/
theorem closers_eq_nil (closers : List (PendingCloser client)) : closers = [] :=
  List.eq_nil_iff_forall_not_mem.mpr fun closer => closer.close.elim

/-- What is known of a scope that is queried: all scopes up to the root see the same, where the list
of all nodes is as it was collected, and not empty. -/
structure Queried (base : Scope client) : Prop where
  built : base.Built
  uniform : base.Uniform
  list : ∀ binding, base.registry.find? (.of (.list node)) = some binding →
    binding.recipe.source = .list node ∧ binding.registered = .of (.list node) ∧
      binding.cast = none ∧ binding.recipe.params ≠ []
  undecorated : base.registry.decoratorsOf (.of (.list node)) = []

/-- The scope of an input is a root. -/
theorem Input.lineage (input : Input) (id : ScopeId) : (input.builder id).scope.lineage = [id] := by
  obtain ⟨root, isRoot, isId⟩ := Builder.scope_of_none
    (show (input.builder id).parent = none from Builder.addAll_parent ..)
  rw [isRoot]
  exact congrArg (fun id => [id]) (isId.trans (Builder.addAll_id ..))

/-- The scope of an input answers queries. -/
theorem Input.queried (input : Input) (id : ScopeId) : Queried (input.builder id).scope := by
  obtain ⟨bound, smooth⟩ := input.smooth id
  obtain ⟨root, isRoot, _⟩ := Builder.scope_of_none
    (show (input.builder id).parent = none from Builder.addAll_parent ..)
  refine ⟨.root id input.registrations, ?_, ?_, ?_⟩
  · intro above isAbove
    rw [isRoot] at isAbove ⊢
    cases isAbove
    rfl
  · rw [Builder.scope_registry]
    exact fun binding finds => smooth.list finds
  · rw [Builder.scope_registry]
    apply List.filter_eq_nil_iff.mpr
    intro decorator member
    rcases Builder.mem_decorators_addAll member with before | registered
    · cases before
    · obtain ⟨entry, _, registers⟩ := List.mem_map.mp registered
      rw [Entry.target registers]
      decide

/-- A child answers queries as its parent does. -/
theorem Queried.child (queried : Queried root) {id : ScopeId} (fresh : id ∉ root.lineage) :
    Queried (Builder.child id root).scope := by
  have built : (Builder.child id root).scope.Built := .child id [] queried.built fresh
  refine ⟨built, ?_, queried.list, queried.undecorated⟩
  intro above isAbove
  cases isAbove with
  | refl => rfl
  | child _ upper => exact queried.uniform above upper

/-! ## Queries -/

/-- All functions of the trial succeed, but for the one constructor that always fails. -/
theorem behaviour_grants : behaviour.GrantsBut (· = Maker.unavailable) := by
  intro call world
  cases call with
  | construct site maker arguments =>
      refine ⟨_, _, _, rfl, ?_, fun _ usable => usable⟩
      cases maker with
      | unavailable => exact .inr ⟨⟨_, rfl⟩, rfl⟩
      | leftFromRight => exact .inl ⟨⟨_, rfl⟩, nofun⟩
      | rightFromLeft => exact .inl ⟨⟨_, rfl⟩, nofun⟩
      | leftSeven => exact .inl ⟨⟨_, rfl⟩, nofun⟩
      | rightNine => exact .inl ⟨⟨_, rfl⟩, nofun⟩
  | decorate site key transform target arguments =>
      exact ⟨_, _, _, rfl, ⟨_, rfl⟩, fun _ usable => usable⟩
  | convert site key cast content => exact ⟨_, _, _, rfl, trivial, fun _ usable => usable⟩
  | close site closer => exact closer.elim
  | enact routine => exact routine.elim
  | accepts value => exact ⟨_, _, _, rfl, rfl, fun _ usable => usable⟩
  | report notice => exact ⟨_, _, _, rfl, trivial, fun _ usable => usable⟩

/-- A scope is queried with a context. -/
def Queried.scene (queried : Queried base) (context : ContextId) : Scene behaviour where
  base := base
  context := context
  fails := (· = Maker.unavailable)
  built := queried.built
  uniform := queried.uniform
  grants := behaviour_grants

section Queries

variable (queried : Queried base) (good : (queried.scene context).Good world)

include good

/-- A key can be resolved if it works, and not otherwise, whatever was queried before. -/
theorem passes_resolveKey (key : Key) :
    (resolveKey base context key).Passes world fun outcome last =>
      (queried.scene context).Good last ∧
        (outcome.isOk = true ↔ base.Works (· = Maker.unavailable) key) := by
  apply passes_request
  apply Request.Returns.mono ((queried.scene context).resolveTyped good key)
  rintro (error | value) last ⟨onward, reached⟩
  · exact ⟨onward.1, nofun, fun works => absurd works reached⟩
  · exact ⟨onward.1, fun _ => reached.works, fun _ => rfl⟩

/-- A request that failed fails again. -/
theorem passes_checkTwice (key : Key) :
    (checkTwice base context key).Passes world fun _ last => (queried.scene context).Good last := by
  unfold checkTwice
  apply passes_bind (passes_resolveKey queried good key)
  rintro first middle ⟨good, decided⟩
  apply passes_bind (passes_resolveKey queried good key)
  rintro second last ⟨good, decided'⟩
  have agree : second.isOk = first.isOk := Bool.eq_iff_iff.mpr (decided'.trans decided.symm)
  apply (passes_ensure _).mono
  · rintro _ _ rfl
    exact good
  · rw [agree]
    cases first.isOk <;> rfl

/-- The list of all nodes is never found empty. -/
theorem passes_allNodes :
    (checkQuery base context .allNodes).Passes world fun _ last =>
      (queried.scene context).Good last := by
  apply passes_bind (passes_request
    ((queried.scene context).resolveTyped good (.of (.list node))))
  rintro (error | ⟨type, content⟩) last ⟨onward, reached⟩
  · exact passes_pure onward.1
  · obtain ⟨binding, bound, _⟩ := reached.works.offers
    obtain ⟨source, registered, uncast, filled⟩ := queried.list binding bound
    have undecorated : base.registry.decoratorsOf binding.registered = [] :=
      registered ▸ queried.undecorated
    obtain ⟨items, rfl, counted⟩ :=
      reached.collects binding node bound source uncast undecorated
    apply (passes_ensure _).mono
    · rintro _ _ rfl
      exact onward.1
    · rw [Bool.not_eq_true', List.isEmpty_eq_false_iff, ← List.length_pos_iff, counted]
      exact List.length_pos_iff.mpr filled

/-- A query that is checked passes, and what is kept stays good. -/
theorem passes_checkQuery (query : Query) :
    (checkQuery base context query).Passes world fun _ last =>
      (queried.scene context).Good last := by
  cases query with
  | left tag => exact passes_checkTwice queried good _
  | right tag => exact passes_checkTwice queried good _
  | node tag =>
      apply passes_bind (passes_resolveKey queried good _)
      exact fun _ _ reached => passes_pure reached.1
  | allNodes => exact passes_allNodes queried good

end Queries

/-! ## Closing -/

/-- A scope that is open is closed without a failure, and no other scope is touched. -/
theorem returns_close {scope : Scope client} (context : ContextId)
    (opened : (world.state.scope scope.id).closed = false) :
    (scope.close context).Returns behaviour world fun outcome last => outcome = .ok () ∧
      (last.state.scope scope.id).closed = true ∧
        ∀ other, other ≠ scope.id → last.state.scope other = world.state.scope other := by
  let state := world.state.setScope scope.id
    { world.state.scope scope.id with closed := true, closers := [] }
  have performs : (Operation.shut scope.id).perform world.state = some (some [], state) := by
    rw [Operation.perform, opened, closers_eq_nil (world.state.scope scope.id).closers]
    rfl
  apply returns_bind_act performs
  apply returns_bind_call rfl
  apply returns_bind_lift rfl
  refine returns_pure ⟨rfl, ?_, fun other differs => ?_⟩
  · exact congrArg ScopeState.closed (State.scope_setScope_self ..)
  · exact (State.scope_setScope ..).trans (if_neg differs.symm)

/-- Closing a closed scope returns that it is closed. -/
theorem returns_close_again {scope : Scope client} (context : ContextId)
    (closed : (world.state.scope scope.id).closed = true) :
    (scope.close context).Returns behaviour world fun outcome _ => outcome = .error .closed := by
  have performs : (Operation.shut scope.id).perform world.state = some (none, world.state) := by
    rw [Operation.perform, closed]
    rfl
  exact returns_bind_act performs (returns_fail rfl)

/-- A root that is open is closed, and then cannot be closed again. -/
theorem passes_closing (opened : (world.state.scope root.id).closed = false) :
    (do
      let first ← Check.request behaviour (root.close context)
      Check.ensure first.isOk
      let second ← Check.request behaviour (root.close context)
      Check.ensure (isClosedError second)
      return Verdict.passed : Check client Unit Verdict).Passes world fun verdict _ =>
        verdict = .passed := by
  apply passes_bind (passes_request (returns_close context opened))
  rintro _ middle ⟨rfl, closed, _⟩
  apply passes_bind (passes_ensure rfl)
  rintro _ _ rfl
  apply passes_bind (passes_request (returns_close_again context closed))
  rintro _ last rfl
  apply passes_bind (passes_ensure rfl)
  rintro _ _ rfl
  exact passes_pure rfl

/-! ## The trial -/

/-- Nothing was done to scopes in a state without any. -/
theorem scope_of_untouched (untouched : world.state.scopes = {}) (id : ScopeId) :
    world.state.scope id = {} := by
  rw [State.scope, untouched]
  rfl

/-- As long as nothing is known of any scope, all are open and keep nothing. -/
theorem good_of_untouched (queried : Queried base)
    (usable : world.state.contexts.error? context = none) (untouched : world.state.scopes = {}) :
    (queried.scene context).Good world := by
  have blank := scope_of_untouched untouched
  refine ⟨usable, fun scope _ => by rw [blank], fun _ cell => .inl ?_⟩
  rw [State.cell?, blank]
  rfl

/-- All queries pass, and what is kept stays good. -/
theorem passes_queries (queried : Queried base) (good : (queried.scene context).Good world)
    (queries : List Query) :
    (queries.forM (checkQuery base context)).Passes world fun _ last =>
      (queried.scene context).Good last := by
  let holds : List Query → World client (Record client Unit) → Prop :=
    fun _ world => (queried.scene context).Good world
  have steps : ∀ query rest world, holds (query :: rest) world →
      (checkQuery base context query).Passes world fun _ last => holds rest last :=
    fun query _ _ good => passes_checkQuery queried good query
  have initially : holds queries world := good
  exact passes_forM steps initially

/-- Queries of a scope, and the closing of the scope and its root. -/
theorem passes_checkScope (input : Input) (queried : Queried base)
    (good : (queried.scene context).Good world) (isRoot : root.id ∈ base.lineage)
    (apart : input.child = true → root.id ≠ base.id) :
    (checkScope input context root base).Passes world fun verdict _ => verdict = .passed := by
  unfold checkScope
  apply passes_bind (passes_queries queried good _)
  intro _ middle good
  have opened := good.opened root.id isRoot
  cases child : input.child with
  | false => exact passes_closing opened
  | true =>
      have openedChild := good.opened base.id base.id_mem_lineage
      apply passes_bind (passes_request (returns_close context openedChild))
      rintro _ last ⟨_, _, others⟩
      apply passes_closing
      rw [others root.id (apart child)]
      exact opened

/-- The root of a trial, and a child of it, can be built in any world where the root is open. -/
def Input.Builds (input : Input) : Prop :=
  ∀ world, ∃ root last,
    (buildScope none input.registrations).alone behaviour world = some (.ok root, last) ∧
      ∀ later, (later.state.scope root.id).closed = false → ∃ child done,
        (buildScope (some root) []).alone behaviour later = some (.ok child, done)

/-- Building the root returns it. -/
theorem returns_root (input : Input) (world : World client (Record client Unit)) :
    (buildScope none input.registrations).Returns behaviour world fun outcome last =>
      Numbered world last ∧ outcome = .ok (input.builder ⟨world.state.nextScope⟩).scope := by
  obtain ⟨_, smooth⟩ := input.smooth ⟨world.state.nextScope⟩
  have isBuilder : (Builder.start ⟨world.state.nextScope⟩ none).addAll input.registrations =
      input.builder ⟨world.state.nextScope⟩ := rfl
  apply (returns_buildScope (fun _ _ => rfl) isBuilder smooth.issues (closers_eq_nil _)).mono
  rintro outcome last ⟨numbered, isRoot | ⟨_, _, ⟨⟩, _⟩⟩
  exact ⟨numbered, isRoot⟩

/-- Building a child of an open root returns it. -/
theorem returns_child (world : World client (Record client Unit))
    (opened : (world.state.scope root.id).closed = false) :
    (buildScope (some root) []).Returns behaviour world fun outcome last =>
      Numbered world last ∧ outcome = .ok (Builder.child ⟨world.state.nextScope⟩ root).scope := by
  apply (returns_buildScope (fun _ _ => rfl) rfl rfl rfl).mono
  rintro outcome last ⟨numbered, isChild | ⟨_, _, ⟨⟩, closed⟩⟩
  · exact ⟨numbered, isChild⟩
  · rw [opened] at closed
    cases closed

/-- Every input builds. -/
theorem Input.builds (input : Input) : input.Builds := by
  intro world
  obtain ⟨_, last, runs, _, rfl⟩ := returns_root input world
  refine ⟨_, last, runs, fun later opened => ?_⟩
  obtain ⟨_, done, runs', _, rfl⟩ := returns_child later opened
  exact ⟨_, done, runs'⟩

/-- The trial passes for every input. -/
theorem trial_passes (input : Input) :
    (trial input).Passes { state := {}, memory := { counts := () } } fun verdict _ =>
      verdict = .passed := by
  let started := ({} : Contexts).background
  have usable : started.2.error? started.1 = none := rfl
  unfold trial
  apply passes_bind passes_get
  rintro _ _ ⟨rfl, rfl⟩
  apply passes_bind passes_set
  rintro _ _ rfl
  let begun : World client (Record client Unit) :=
    { state := { contexts := started.2 }, memory := { counts := () } }
  let root := (input.builder ⟨1⟩).scope
  have queried : Queried root := input.queried ⟨1⟩
  have builds : (Check.build behaviour none input.registrations).Passes begun fun outcome last =>
      outcome = .ok root ∧ last.state = { contexts := started.2, nextScope := 2 } := by
    apply passes_build (returns_root input begun)
    rintro outcome last memory _ ⟨numbered, isRoot⟩
    exact ⟨isRoot, numbered.state⟩
  apply passes_bind builds
  rintro _ middle ⟨rfl, state⟩
  cases child : input.child with
  | false =>
      have good : (queried.scene started.1).Good middle :=
        good_of_untouched queried (by rw [state]; exact usable) (by rw [state])
      apply passes_checkScope input queried good root.id_mem_lineage
      rw [child]
      nofun
  | true =>
      have opened : (middle.state.scope root.id).closed = false := by
        rw [scope_of_untouched (by rw [state])]
      have lineage : root.lineage = [⟨1⟩] := input.lineage ⟨1⟩
      have fresh : (⟨2⟩ : ScopeId) ∉ root.lineage := by
        rw [lineage]
        decide
      have apart : root.id ≠ ⟨2⟩ := fun same => fresh (same ▸ root.id_mem_lineage)
      have buildsChild : (Check.build behaviour (some root) []).Passes middle fun outcome last =>
          outcome = .ok (Builder.child ⟨2⟩ root).scope ∧
            last.state = { contexts := started.2, nextScope := 3 } := by
        apply passes_build (returns_child middle opened)
        rintro outcome last memory _ ⟨numbered, isChild⟩
        rw [state] at isChild
        refine ⟨isChild, ?_⟩
        change last.state = _
        rw [numbered.state, state]
      apply passes_bind buildsChild
      rintro _ last ⟨rfl, state⟩
      have good : ((queried.child fresh).scene started.1).Good last :=
        good_of_untouched _ (by rw [state]; exact usable) (by rw [state])
      exact passes_checkScope input (queried.child fresh) good
        (List.mem_cons_of_mem _ root.id_mem_lineage) fun _ => apart

/-- Whatever is registered and queried, the containers of the trial are built, and the trial comes
to an end where nothing that it looks at fails. -/
theorem registration_trial_passes (input : Input) :
    input.Builds ∧ ∃ report, run input = some report ∧ report.verdict = .passed :=
  ⟨input.builds, report_passed (fun notice world => ⟨listen notice world, rfl⟩)
    (trial_passes input)⟩

end Provision.Trial.Registrations
