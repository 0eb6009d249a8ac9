import Provision.Proofs.Resolution.CalmWorlds
import Provision.Trial.Listener

/-!
# Trials that pass

A check passes if it comes to an end and nothing that it looks at fails.  A trial that passes from
the start has a report, and the report says so.

Main statements: `returns_buildScope` and `report_passed`.
-/

namespace Provision.Trial

variable {U : Client} {κ α β : Type} {behaviour : Behaviour U (Record U κ)}
  {world : World U (Record U κ)} {post : α → World U (Record U κ) → Prop}
  {post' : β → World U (Record U κ) → Prop}

namespace Check

/-- A check comes to an end without failing, and something holds of its result and the world
then. -/
def Passes (check : Check U κ α) (world : World U (Record U κ))
    (post : α → World U (Record U κ) → Prop) : Prop :=
  ∃ result last, check.run world = some (.ok result, last) ∧ post result last

theorem Passes.mono {check : Check U κ α} {weaker : α → World U (Record U κ) → Prop}
    (passes : check.Passes world post)
    (implies : ∀ result last, post result last → weaker result last) :
    check.Passes world weaker := by
  obtain ⟨result, last, runs, holds⟩ := passes
  exact ⟨result, last, runs, implies result last holds⟩

/-- A result passes. -/
theorem passes_pure {result : α} (holds : post result world) :
    (pure result : Check U κ α).Passes world post :=
  ⟨result, world, rfl, holds⟩

/-- One check after another passes if both do. -/
theorem passes_bind {check : Check U κ α} {next : α → Check U κ β}
    (first : check.Passes world post)
    (goesOn : ∀ result last, post result last → (next result).Passes last post') :
    (check >>= next).Passes world post' := by
  obtain ⟨result, middle, runs, holds⟩ := first
  obtain ⟨result', last, runs', holds'⟩ := goesOn result middle holds
  refine ⟨result', last, ?_, holds'⟩
  exact Option.bind_eq_some_iff.mpr ⟨_, runs, runs'⟩

/-- Looking at the world passes. -/
theorem passes_get : (get : Check U κ (World U (Record U κ))).Passes world fun found last =>
    found = world ∧ last = world :=
  ⟨world, world, rfl, rfl, rfl⟩

/-- Setting the world passes. -/
theorem passes_set {after : World U (Record U κ)} :
    (set after : Check U κ PUnit).Passes world fun _ last => last = after :=
  ⟨⟨⟩, after, rfl, rfl⟩

/-- What is looked at is as it should be. -/
theorem passes_ensure {looked : Bool} (holds : looked = true) :
    (ensure looked : Check U κ Unit).Passes world fun _ last => last = world := by
  subst holds
  exact passes_pure rfl

/-- A request that returns passes. -/
theorem passes_request {request : Request U α}
    {post : Except Error α → World U (Record U κ) → Prop}
    (returns : request.Returns behaviour world post) :
    (Check.request behaviour request).Passes world post := by
  obtain ⟨outcome, last, runs, holds⟩ := returns
  refine ⟨outcome, last, ?_, holds⟩
  exact Option.bind_eq_some_iff.mpr ⟨_, runs, rfl⟩

/-- Looking whether a scope is closed passes. -/
theorem passes_isClosed (scope : Scope U) :
    (isClosed scope : Check U κ Bool).Passes world fun closed last =>
      closed = (world.state.scope scope.id).closed ∧ last = world :=
  ⟨_, world, rfl, rfl, rfl⟩

/-- A scope that is built is remembered. -/
theorem passes_build {parent : Option (Scope U)} {registrations : List (Registration U)}
    {post post' : Except Error (Scope U) → World U (Record U κ) → Prop}
    (returns : (buildScope parent registrations).Returns behaviour world post)
    (remembers : ∀ outcome last memory, memory.counts = last.memory.counts → post outcome last →
      post' outcome { last with memory }) :
    (Check.build behaviour parent registrations).Passes world post' := by
  apply passes_bind (passes_request returns)
  rintro (error | scope) last holds
  · exact passes_pure (remembers _ last last.memory rfl holds)
  · exact ⟨.ok scope, _, rfl, remembers _ last _ rfl holds⟩

/-- What every step of a loop preserves, the loop does. -/
theorem passes_forM {items : List α} {check : α → Check U κ PUnit}
    {holds : List α → World U (Record U κ) → Prop}
    (steps : ∀ item rest world, holds (item :: rest) world →
      (check item).Passes world fun _ last => holds rest last)
    (initially : holds items world) :
    (items.forM check).Passes world fun _ last => holds [] last := by
  induction items generalizing world with
  | nil => exact passes_pure initially
  | cons item rest ih =>
      exact passes_bind (steps item rest world initially) fun _ _ goesOn => ih goesOn

end Check

open Check

/-! ## Building -/

section Building

/-- All that changed is what was reported. -/
structure Heard (world last : World U (Record U κ)) : Prop where
  state : last.state = world.state
  counts : last.memory.counts = world.memory.counts

/-- A scope was numbered, and otherwise all that changed is what was reported. -/
structure Numbered (world last : World U (Record U κ)) : Prop where
  state : last.state = { world.state with nextScope := world.state.nextScope + 1 }
  counts : last.memory.counts = world.memory.counts

theorem Heard.trans {middle last : World U (Record U κ)} (first : Heard world middle)
    (second : Heard middle last) : Heard world last :=
  ⟨second.state.trans first.state, second.counts.trans first.counts⟩

/-- A listener hears each notice. -/
theorem heard_listen (notice : Notice) (world : World U (Record U κ)) :
    Heard world (listen notice world) := ⟨rfl, rfl⟩

variable (listens : ∀ notice world, behaviour (.report notice) world =
  some ((), listen notice world))

include listens

/-- Registering only reports. -/
theorem registers (registrations : List (Registration U)) (builder : Builder U)
    (world : World U (Record U κ)) : ∃ last,
      (builder.register registrations).run behaviour world =
        some (builder.addAll registrations, last) ∧ Heard world last := by
  induction registrations generalizing builder world with
  | nil => exact ⟨world, rfl, rfl, rfl⟩
  | cons registration rest ih =>
      unfold Builder.register
      cases builder.notice? registration with
      | none => exact ih (builder.add registration) world
      | some notice =>
          obtain ⟨last, runs, heard⟩ := ih (builder.add registration) (listen notice world)
          refine ⟨last, ?_, (heard_listen notice world).trans heard⟩
          have unfolds : (do
              Program.callClient (.report notice)
              Builder.register rest (builder.add registration) : Program U (Builder U)) =
                .ask (.report notice) fun _ =>
                  Builder.register rest (builder.add registration) := rfl
          simp only [unfolds, Program.run, listens]
          exact runs

/-- A builder that found nothing wrong and promises nothing puts a scope together, unless the parent
is closed. -/
theorem returns_build {builder : Builder U} (sound : builder.issues = [])
    (unpromising : builder.closers = []) :
    builder.build.Returns behaviour world fun outcome last => Heard world last ∧
      (outcome = .ok builder.scope ∨ outcome = .error .closed ∧
        ∃ parent, builder.parent = some parent ∧
          (world.state.scope parent.id).closed = true) := by
  have heard := heard_listen (.createdContainer builder.scope.id builder.scope.depth
    (builder.scope.parent?.map Scope.id) builder.accepted builder.scope.ownsRegistry) world
  cases isParent : builder.parent with
  | none =>
      rw [Builder.build_of_root isParent, Builder.complete_of_sound sound, unpromising]
      exact Request.returns_bind_call (listens ..) (Request.returns_pure ⟨heard, .inl rfl⟩)
  | some parent =>
      rw [Builder.build_of_child isParent, Builder.complete_of_sound sound, unpromising]
      apply Request.returns_bind (returns_ensureOpen parent.id)
      · rintro error last ⟨rfl, ⟨_, impossible⟩ | ⟨closed, isClosed⟩⟩
        · cases impossible
        · cases isClosed
          exact ⟨⟨rfl, rfl⟩, .inr ⟨rfl, parent, rfl, closed⟩⟩
      · rintro _ last ⟨rfl, _⟩
        exact Request.returns_bind_call (listens ..) (Request.returns_pure ⟨heard, .inl rfl⟩)

/-- A scope is built unless its parent is closed, if nothing is wrong with what it is built of. -/
theorem returns_buildScope {parent : Option (Scope U)} {registrations : List (Registration U)}
    {builder : Builder U}
    (isBuilder : (Builder.start ⟨world.state.nextScope⟩ parent).addAll registrations = builder)
    (sound : builder.issues = []) (unpromising : builder.closers = []) :
    (buildScope parent registrations).Returns behaviour world fun outcome last =>
      Numbered world last ∧ (outcome = .ok builder.scope ∨ outcome = .error .closed ∧
        ∃ above, parent = some above ∧ (world.state.scope above.id).closed = true) := by
  let numbered : World U (Record U κ) :=
    { world with state := { world.state with nextScope := world.state.nextScope + 1 } }
  have starts : (newBuilder parent).run behaviour world =
      some (Builder.start ⟨world.state.nextScope⟩ parent, numbered) := by
    cases parent <;> rfl
  have isParent : builder.parent = parent := by
    rw [← isBuilder, Builder.addAll_parent, Builder.start_parent]
  obtain ⟨ready, registering, heard⟩ := registers listens registrations
    (Builder.start ⟨world.state.nextScope⟩ parent) numbered
  rw [isBuilder] at registering
  apply Request.returns_bind_lift starts
  apply Request.returns_bind_lift registering
  apply (returns_build listens sound unpromising).mono
  rw [isParent, heard.state]
  intro outcome last ⟨heard', built⟩
  have further := heard.trans heard'
  exact ⟨⟨further.state, further.counts⟩, built⟩

end Building

section Reports

variable (answers : ∀ notice world, ∃ after, behaviour (.report notice) world = some ((), after))

include answers

/-- A scope can always be let go of. -/
theorem discard_returns (scope : Scope U) (world : World U (Record U κ)) :
    ∃ last, scope.discard.run behaviour world = some ((), last) := by
  let pending : Nat :=
    if (world.state.scope scope.id).closed then 0 else (world.state.scope scope.id).closers.length
  let state := world.state.setScope scope.id { world.state.scope scope.id with dropped := true }
  have performs : (Operation.discard scope.id).perform world.state = some (pending, state) := rfl
  have unfolds : (scope.discard : Program U Unit) = .perform (.discard scope.id) fun pending : Nat =>
      if pending = 0 then .done () else .ask (.report (.droppedOpen scope.id pending)) .done := rfl
  have goesOn : scope.discard.run behaviour world =
      (if pending = 0 then .done () else
        .ask (.report (.droppedOpen scope.id pending)) .done : Program U Unit).run behaviour
          { world with state } := by
    rw [unfolds, Program.run.eq_def]
    simp only [performs]
  by_cases none : pending = 0
  · rw [goesOn, if_pos none]
    exact ⟨_, rfl⟩
  · obtain ⟨last, reported⟩ := answers (.droppedOpen scope.id pending) { world with state }
    rw [goesOn, if_neg none, Program.run.eq_def]
    exact ⟨last, by simp only [reported]; rfl⟩

/-- Letting go of all scopes returns. -/
theorem discards_return (scopes : List (Scope U)) (world : World U (Record U κ)) :
    ∃ last, (scopes.forM Scope.discard).run behaviour world = some ((), last) := by
  induction scopes generalizing world with
  | nil => exact ⟨world, rfl⟩
  | cons scope rest ih =>
      obtain ⟨middle, runs⟩ := discard_returns answers scope world
      obtain ⟨last, runs'⟩ := ih middle
      refine ⟨last, (Program.run_andThen ..).trans ?_⟩
      rw [runs]
      exact runs'

/-- All scopes can be let go of in the end. -/
theorem passes_release (world : World U (Record U κ)) :
    (release behaviour ([] : List (Scope U))).Passes world fun _ _ => True := by
  have releases : (releaseUnheld world.memory.live [] : Program U (List (Scope U))) =
      (world.memory.live.forM Scope.discard).andThen fun _ => .done [] := by
    simp [releaseUnheld, List.partition_eq_filter_filter, Function.comp_def]
  obtain ⟨last, discards⟩ := discards_return answers world.memory.live world
  have lets : (releaseUnheld world.memory.live []).run behaviour world = some ([], last) := by
    rw [releases, Program.run_andThen, discards]
    rfl
  apply passes_bind passes_get
  rintro found after ⟨isFound, isAfter⟩
  rw [isFound, isAfter]
  have runs : (Check.program behaviour (releaseUnheld world.memory.live [])).Passes world
      fun _ _ => True := ⟨[], last, Option.bind_eq_some_iff.mpr ⟨_, lets, rfl⟩, trivial⟩
  exact passes_bind runs fun _ _ _ => ⟨(), _, rfl, trivial⟩

/-- A trial that passes from the start is reported to have passed. -/
theorem report_passed {trial : Check U κ Verdict} {counts : κ}
    (passes : trial.Passes { state := {}, memory := { counts } } fun verdict _ =>
      verdict = .passed) :
    ∃ report, Check.report behaviour counts trial = some report ∧ report.verdict = .passed := by
  obtain ⟨verdict, last, runs, rfl⟩ := passes
  obtain ⟨_, released, lets, _⟩ := passes_release answers last
  refine ⟨{ verdict := .passed, notices := released.memory.notices.reverse }, ?_, rfl⟩
  exact Option.bind_eq_some_iff.mpr ⟨_, runs, Option.bind_eq_some_iff.mpr ⟨_, lets, rfl⟩⟩

end Reports

end Provision.Trial
