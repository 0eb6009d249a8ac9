import Provision.Proofs.Execution.RequestTraces
import Provision.Proofs.Instances.MadeOnce
import Provision.Proofs.Handles.PassedHandles

/-!
# When flags are raised

The flag of a handle is not raised as long as the function that the handle was passed to goes on,
and is raised by the next thing that its request does.  The invariant of an activity says that what
each request knows of its flags agrees with the state, and that no two requests know of the same
flag.

Main statement: `Activity.Reachable.flagged`.
-/

namespace Provision

open Moment

variable {U : Client}

/-! ## What operations do to flags -/

/-- Only flags that were numbered are raised. -/
def State.Numbered (state : State U) : Prop :=
  ∀ flag, state.isRaised flag = true → flag.index < state.nextFlag

/-- What is known of flags is so: each has a number, and is raised or not. -/
def Flags.Agree (flags : Flags) (state : State U) : Prop :=
  ∀ flag raised, flags flag = some raised →
    flag.index < state.nextFlag ∧ state.isRaised flag = raised

/-- Two requests know of different flags. -/
def Flags.Apart (first second : Flags) : Prop :=
  ∀ flag, first flag ≠ none → second flag = none

/-- All that an operation can do to flags. -/
inductive Operation.Flagging (before after : State U) :
    (operation : Operation U) → operation.Answer → Prop where
  | number : after.isRaised = before.isRaised → after.nextFlag = before.nextFlag + 1 →
      Flagging before after .newFlag (⟨before.nextFlag⟩ : FlagId)
  | raise (flag : FlagId) : after.isRaised = Function.update before.isRaised flag true →
      after.nextFlag = before.nextFlag → Flagging before after (.raise flag) ()
  | other {operation : Operation U} {answer : operation.Answer} :
      (∀ flag, operation ≠ .raise flag) →
        (∀ flags, operation.New flags answer ∧ operation.marking flags answer = flags) →
          after.isRaised = before.isRaised → after.nextFlag = before.nextFlag →
            Flagging before after operation answer

/-- An operation does to flags what is listed. -/
theorem Operation.flagging {operation : Operation U} {answer : operation.Answer}
    {before after : State U} (performs : operation.perform before = some (answer, after)) :
    operation.Flagging before after answer := by
  cases effect_of_perform performs with
  | newFlag => exact .number rfl rfl
  | raised flag =>
      refine .raise flag (funext fun other => ?_) rfl
      by_cases same : other = flag <;> simp [State.isRaised, same]
  | _ => exact .other (by rintro _ ⟨⟩) (fun _ => ⟨trivial, rfl⟩) rfl rfl

section Operations

variable {operation : Operation U} {answer : operation.Answer} {before after : State U}
  {flags others : Flags}

/-- A flag that is raised stays raised. -/
theorem Operation.Flagging.isRaised (flagging : operation.Flagging before after answer)
    {flag : FlagId} (raised : before.isRaised flag = true) : after.isRaised flag = true := by
  cases flagging with
  | number same _ => rwa [same]
  | raise other same _ =>
      rw [same, Function.update_apply, raised, ite_self]
  | other _ _ same _ => rwa [same]

/-- A flag is raised after it was raised. -/
theorem Operation.Flagging.raised {flag : FlagId}
    (flagging : (Operation.raise flag).Flagging before after ()) : after.isRaised flag = true := by
  cases flagging with
  | raise _ same _ => rw [same, Function.update_self]
  | other differs _ _ _ => exact absurd rfl (differs flag)

/-- Only flags that were numbered are raised after an operation that is due. -/
theorem Operation.Flagging.numbered (flagging : operation.Flagging before after answer)
    (numbered : before.Numbered) (agree : flags.Agree before) (due : operation.Due flags) :
    after.Numbered := by
  intro flag raised
  cases flagging with
  | number same next =>
      rw [next]
      exact Nat.lt_succ_of_lt (numbered flag (same ▸ raised))
  | raise other same next =>
      rw [next]
      by_cases isOther : flag = other
      · exact isOther ▸ (agree other false due).1
      · rw [same, Function.update_of_ne isOther] at raised
        exact numbered flag raised
  | other _ _ same next =>
      rw [next]
      exact numbered flag (same ▸ raised)

/-- What is known stays so if the flags that it is about stay as they are. -/
theorem Flags.Agree.keeps (agree : flags.Agree before)
    (same : ∀ flag, flags flag ≠ none → after.isRaised flag = before.isRaised flag)
    (grows : before.nextFlag ≤ after.nextFlag) : flags.Agree after := by
  intro flag raised known
  obtain ⟨inside, isRaised⟩ := agree flag raised known
  refine ⟨Nat.lt_of_lt_of_le inside grows, (same flag ?_).trans isRaised⟩
  rw [known]
  exact Option.some_ne_none raised

/-- One flag more is known, or known to be raised. -/
theorem Flags.Agree.mark (agree : flags.Agree before) {flag : FlagId} {raised : Bool}
    (inside : flag.index < after.nextFlag) (isRaised : after.isRaised flag = raised)
    (same : ∀ other, other ≠ flag → after.isRaised other = before.isRaised other)
    (grows : before.nextFlag ≤ after.nextFlag) :
    Flags.Agree (Function.update flags flag (some raised)) after := by
  intro other was known
  by_cases isFlag : other = flag
  · subst isFlag
    rw [Function.update_self, Option.some.injEq] at known
    exact ⟨inside, known ▸ isRaised⟩
  · rw [Function.update_of_ne isFlag] at known
    obtain ⟨inside, isRaised⟩ := agree other was known
    exact ⟨Nat.lt_of_lt_of_le inside grows, (same other isFlag).trans isRaised⟩

/-- A flag that a request numbers is new to everybody. -/
theorem Flags.Agree.new (agree : flags.Agree before) : flags ⟨before.nextFlag⟩ = none := by
  cases known : flags ⟨before.nextFlag⟩ with
  | none => rfl
  | some raised => exact absurd (agree _ raised known).1 (Nat.lt_irrefl _)

/-- What a request knows of flags is so after an operation of its own. -/
theorem Flags.Agree.own (agree : flags.Agree before) (numbered : before.Numbered)
    (due : operation.Due flags) (flagging : operation.Flagging before after answer) :
    operation.New flags answer ∧ (operation.marking flags answer).Agree after := by
  cases flagging with
  | number same next =>
      refine ⟨agree.new, agree.mark ?_ ?_ (fun _ _ => by rw [same]) (by omega)⟩
      · rw [next]
        exact Nat.lt_succ_self _
      · rw [same, Bool.eq_false_iff]
        exact fun raised => absurd (numbered _ raised) (Nat.lt_irrefl _)
  | raise flag same next =>
      refine ⟨trivial, agree.mark ?_ ?_ (fun other differs => ?_) (Nat.le_of_eq next.symm)⟩
      · rw [next]
        exact (agree flag false due).1
      · rw [same, Function.update_self]
      · rw [same, Function.update_of_ne differs]
  | other _ none same next =>
      rw [(none flags).2]
      exact ⟨(none flags).1, agree.keeps (fun _ _ => by rw [same]) (Nat.le_of_eq next.symm)⟩

/-- What other requests know of flags is so as well, and they still know of none of those that the
request knows of. -/
theorem Flags.Agree.elsewhere (agree : others.Agree before) (apart : flags.Apart others)
    (due : operation.Due flags) (flagging : operation.Flagging before after answer) :
    others.Agree after ∧ (operation.marking flags answer).Apart others := by
  cases flagging with
  | number same next =>
      refine ⟨agree.keeps (fun _ _ => by rw [same]) (by omega), fun flag known => ?_⟩
      by_cases isNew : flag = ⟨before.nextFlag⟩
      · exact isNew ▸ agree.new
      · exact apart flag fun none => known ((Function.update_of_ne isNew ..).trans none)
  | raise flag same next =>
      have mine : flags flag ≠ none := by
        rw [show flags flag = some false from due]
        exact Option.some_ne_none false
      refine ⟨agree.keeps (fun other known => ?_) (Nat.le_of_eq next.symm), fun other known => ?_⟩
      · rw [same, Function.update_of_ne]
        rintro rfl
        exact known (apart other mine)
      · by_cases isFlag : other = flag
        · exact isFlag ▸ apart flag mine
        · exact apart other fun none => known ((Function.update_of_ne isFlag ..).trans none)
  | other _ none same next =>
      rw [(none flags).2]
      exact ⟨agree.keeps (fun _ _ => by rw [same]) (Nat.le_of_eq next.symm), apart⟩

/-- What all requests know of flags is so, and no two know of the same flag. -/
structure Known (flags : RequestId → Flags) (state : State U) : Prop where
  numbered : state.Numbered
  agree : ∀ id, (flags id).Agree state
  apart : ∀ id other, other ≠ id → (flags id).Apart (flags other)

theorem Flags.Apart.symm (apart : flags.Apart others) : others.Apart flags := by
  intro flag theirs
  by_contra mine
  exact theirs (apart flag mine)

/-- What one request knows may change, if it is so and is nothing that others know. -/
theorem Known.put {flags : RequestId → Flags} {id : RequestId} {own : Flags}
    (numbered : after.Numbered) (agree : own.Agree after)
    (elsewhere : ∀ other, other ≠ id → (flags other).Agree after ∧ own.Apart (flags other))
    (apart : ∀ one other, other ≠ one → (flags one).Apart (flags other)) :
    Known (Function.update flags id own) after where
  numbered := numbered
  agree := by
    intro other
    by_cases same : other = id
    · rw [same, Function.update_self]
      exact agree
    · rw [Function.update_of_ne same]
      exact (elsewhere other same).1
  apart := by
    intro one other differs
    by_cases same : one = id
    · subst same
      rw [Function.update_self, Function.update_of_ne differs]
      exact (elsewhere other differs).2
    · rw [Function.update_of_ne same]
      by_cases same' : other = id
      · subst same'
        rw [Function.update_self]
        exact (elsewhere one same).2.symm
      · rw [Function.update_of_ne same']
        exact apart one other differs

/-- What is known of flags is so after an operation, for all requests. -/
theorem Known.perform {flags : RequestId → Flags} (known : Known flags before) {id : RequestId}
    (due : operation.Due (flags id)) (flagging : operation.Flagging before after answer) :
    operation.New (flags id) answer ∧
      Known (Function.update flags id (operation.marking (flags id) answer)) after := by
  obtain ⟨new, own⟩ := (known.agree id).own known.numbered due flagging
  have numbered := flagging.numbered known.numbered (known.agree id) due
  refine ⟨new, .put numbered own (fun other differs => ?_) known.apart⟩
  exact (known.agree other).elsewhere (known.apart id other differs) due flagging

end Operations

/-! ## What requests know of flags -/

/-- What is left to do of a request passes handles as it may. -/
def Task.Lends (task : Task U) (demand : Demand U) (flags : Flags) : Prop :=
  match task with
  | .running program => program.Lends demand (fun _ _ => True) flags
  | .waiting call next => (Program.ask call next).Lends demand (fun _ _ => True) flags

/-- The next thing that is left to do is to raise a flag. -/
def Task.Raises (task : Task U) (flag : FlagId) : Prop :=
  match task with
  | .running program => program.Raises flag
  | .waiting _ _ => False

/-- A handle was passed as it may be, by a request that was started with a demand. -/
def Handle.Passed (handle : Handle U) (moment : Moment U) (id : RequestId) :
    Option (Site U) → Prop
  | some site => handle.scope.id = site.scope ∧ ∃ demand, moment.Did id (.started demand) ∧
      demand.Reaches handle.scope
  | none => (∃ context params routine,
      moment.Did id (.started (.invoke handle.scope context params routine))) ∧
        moment.state.isRaised handle.flag = true

/-- What all requests know of flags is so, and what they did so far and are yet to do agrees with
it. -/
structure Activity.Flagged (activity : Activity U) (flags : RequestId → Flags) : Prop where
  known : Known flags activity.moment.state
  tasks : ∀ id task, activity.tasks id = some task →
    ∃ demand, activity.moment.Did id (.started demand) ∧ task.Lends demand (flags id)
  passed : ∀ id call, activity.moment.Did id (.called call) → ∀ handle ∈ call.handles,
    handle.Passed activity.moment id call.site?
  called : ∀ id call, activity.moment.Did id (.called call) →
    (∃ next, activity.tasks id = some (.waiting call next)) ∨
      ∃ answer, activity.moment.Did id (.returned call answer)
  returned : ∀ id call answer, activity.moment.Did id (.returned call answer) →
    call.site?.isSome = true → ∀ handle ∈ call.handles,
      activity.moment.state.isRaised handle.flag = true ∨
        ∃ task, activity.tasks id = some task ∧ task.Raises handle.flag

/-- A handle that may be passed was passed as it may be. -/
theorem Handle.MayPass.passed {handle : Handle U} {moment : Moment U} {id : RequestId}
    {demand : Demand U} {flags : Flags} {site : Option (Site U)}
    (may : handle.MayPass demand flags site) (began : moment.Did id (.started demand))
    (agree : flags.Agree moment.state) : handle.Passed moment id site := by
  cases site with
  | some site => exact ⟨may.1, demand, began, may.2.1⟩
  | none =>
      obtain ⟨⟨context, params, routine, rfl⟩, raised⟩ := may
      exact ⟨⟨context, params, routine, began⟩, (agree _ _ raised).2⟩

theorem Handle.Passed.mono {handle : Handle U} {moment next : Moment U} {id : RequestId}
    {site : Option (Site U)} (passed : handle.Passed moment id site)
    (grows : moment.history <:+ next.history) (stays : ∀ flag,
      moment.state.isRaised flag = true → next.state.isRaised flag = true) :
    handle.Passed next id site := by
  cases site with
  | some site =>
      obtain ⟨denotes, demand, began, reaches⟩ := passed
      exact ⟨denotes, demand, grows.mem began, reaches⟩
  | none =>
      obtain ⟨⟨context, params, routine, began⟩, raised⟩ := passed
      exact ⟨⟨context, params, routine, grows.mem began⟩, stays _ raised⟩

namespace Activity.Flagged

variable {activity : Activity U} {flags : RequestId → Flags} {id : RequestId} {event : Event U}
  {after : Moment U} {task : Option (Task U)}

/-- Nothing is known of flags to begin with. -/
theorem initial : ({} : Activity U).Flagged fun _ _ => none where
  known := ⟨nofun, nofun, fun _ _ _ _ _ => rfl⟩
  tasks := by rintro id task ⟨⟩
  passed := by rintro id call ⟨⟩
  called := by rintro id call ⟨⟩
  returned := by rintro id call answer ⟨⟩

/-- One request goes on; what there is to say of all others stays as it is. -/
theorem advance (flagged : activity.Flagged flags)
    (recorded : activity.moment.Records ⟨id, event⟩ after) {own : Flags}
    (known : Known (Function.update flags id own) after.state)
    (stays : ∀ flag, activity.moment.state.isRaised flag = true → after.state.isRaised flag = true)
    (tasks : ∀ left, task = some left →
      ∃ demand, after.Did id (.started demand) ∧ left.Lends demand own)
    (passed : ∀ call, event = .called call → ∀ handle ∈ call.handles,
      handle.Passed after id call.site?)
    (called : ∀ call, after.Did id (.called call) → (∃ next, task = some (.waiting call next)) ∨
      ∃ answer, after.Did id (.returned call answer))
    (returned : ∀ call answer, after.Did id (.returned call answer) → call.site?.isSome = true →
      ∀ handle ∈ call.handles, after.state.isRaised handle.flag = true ∨
        ∃ left, task = some left ∧ left.Raises handle.flag) :
    (activity.withTask after id task).Flagged (Function.update flags id own) where
  known := known
  tasks := by
    intro other left found
    by_cases same : other = id
    · subst same
      rw [withTask_tasks_self] at found
      rw [Function.update_self]
      exact tasks left found
    · rw [withTask_tasks_of_ne _ _ _ same] at found
      rw [Function.update_of_ne same]
      obtain ⟨demand, began, lends⟩ := flagged.tasks other left found
      exact ⟨demand, recorded.suffix.mem began, lends⟩
  passed := by
    intro other call did handle member
    rcases recorded.did_iff.mp did with ⟨rfl, now⟩ | before
    · exact passed call now.symm handle member
    · exact (flagged.passed other call before handle member).mono recorded.suffix stays
  called := by
    intro other call did
    by_cases same : other = id
    · subst same
      rw [withTask_tasks_self]
      exact called call did
    · rw [withTask_tasks_of_ne _ _ _ same]
      rcases recorded.did_iff.mp did with ⟨isId, _⟩ | before
      · exact absurd isId same
      · exact (flagged.called other call before).imp_right fun returned =>
          returned.imp fun _ did => recorded.suffix.mem did
  returned := by
    intro other call answer did makes handle member
    by_cases same : other = id
    · subst same
      rw [withTask_tasks_self]
      exact returned call answer did makes handle member
    · rw [withTask_tasks_of_ne _ _ _ same]
      rcases recorded.did_iff.mp did with ⟨isId, _⟩ | before
      · exact absurd isId same
      · exact (flagged.returned other call answer before makes handle member).imp_left
          (stays handle.flag)

/-- One request goes on without changing the state. -/
theorem advance_still (flagged : activity.Flagged flags)
    (recorded : activity.moment.Records ⟨id, event⟩ after)
    (still : after.state = activity.moment.state)
    (tasks : ∀ left, task = some left →
      ∃ demand, after.Did id (.started demand) ∧ left.Lends demand (flags id))
    (passed : ∀ call, event = .called call → ∀ handle ∈ call.handles,
      handle.Passed after id call.site?)
    (called : ∀ call, after.Did id (.called call) → (∃ next, task = some (.waiting call next)) ∨
      ∃ answer, after.Did id (.returned call answer))
    (returned : ∀ call answer, after.Did id (.returned call answer) → call.site?.isSome = true →
      ∀ handle ∈ call.handles, after.state.isRaised handle.flag = true ∨
        ∃ left, task = some left ∧ left.Raises handle.flag) :
    (activity.withTask after id task).Flagged flags := by
  have known : Known (Function.update flags id (flags id)) after.state := by
    rw [Function.update_eq_self, still]
    exact flagged.known
  have next := flagged.advance recorded known (fun flag raised => by rwa [still]) tasks passed
    called returned
  rwa [Function.update_eq_self] at next

/-- The flags of all functions that returned to a request are raised, unless it raises one next. -/
theorem raised_of_returned (flagged : activity.Flagged flags) {left : Task U}
    (task : activity.tasks id = some left) (raisesNone : ∀ flag, ¬ left.Raises flag) {call : Call U}
    {answer : call.Answer} (did : activity.moment.Did id (.returned call answer))
    (makes : call.site?.isSome = true) {handle : Handle U} (member : handle ∈ call.handles) :
    activity.moment.state.isRaised handle.flag = true := by
  have raises := flagged.returned id call answer did makes handle member
  rcases raises with raised | ⟨other, found, raises⟩
  · exact raised
  · obtain rfl := Option.some.inj (task.symm.trans found)
    exact absurd raises (raisesNone handle.flag)

/-- All functions that a request called returned to it, unless it waits for one. -/
theorem returned_of_called (flagged : activity.Flagged flags)
    {program : Program U (Except Error (Reply U))}
    (task : activity.tasks id = some (.running program))
    (grows : activity.moment.history <:+ after.history) {call : Call U}
    (did : activity.moment.Did id (.called call)) :
    ∃ answer, after.Did id (.returned call answer) := by
  rcases flagged.called id call did with ⟨next, waits⟩ | ⟨answer, returned⟩
  · cases task.symm.trans waits
  · exact ⟨answer, grows.mem returned⟩

/-- A request that starts knows of no flags. -/
theorem start (flagged : activity.Flagged flags) {demand : Demand U}
    (fresh : ¬ activity.moment.Knows id)
    (recorded : activity.moment.Records ⟨id, .started demand⟩ after) :
    ∃ flags, (activity.withTask after id (some (.running demand.request.run))).Flagged flags := by
  have nothing : ∀ {event}, event ≠ .started demand → ¬ after.Did id event :=
    fun differs did => fresh ⟨_, recorded.before did differs, rfl⟩
  have still : after.state = activity.moment.state := recorded.state
  have known : Known (Function.update flags id fun _ => none) after.state := by
    rw [still]
    exact .put flagged.known.numbered nofun (fun other _ =>
      ⟨flagged.known.agree other, fun _ impossible => absurd rfl impossible⟩) flagged.known.apart
  refine ⟨_, flagged.advance recorded known ?_ ?_ (by rintro _ ⟨⟩) ?_ ?_⟩
  · exact fun flag raised => by rwa [still]
  · intro left same
    obtain rfl := Option.some.inj same
    exact ⟨demand, recorded.did, demand.lends _⟩
  · exact fun call did => absurd did (nothing nofun)
  · exact fun call answer did => absurd did (nothing nofun)

/-- An operation that raises a flag raises the one of the function that returned before it. -/
theorem perform (flagged : activity.Flagged flags) {operation : Operation U}
    {next : operation.Answer → Program U (Except Error (Reply U))} {answer : operation.Answer}
    (task : activity.tasks id = some (.running (.perform operation next)))
    (recorded : activity.moment.Records ⟨id, .performed operation answer⟩ after) :
    ∃ flags, (activity.withTask after id (some (.running (next answer)))).Flagged flags := by
  obtain ⟨demand, began, due, lends⟩ := flagged.tasks id _ task
  have flagging := Operation.flagging recorded.state
  obtain ⟨new, known⟩ := flagged.known.perform due flagging
  have stays : ∀ flag, activity.moment.state.isRaised flag = true →
      after.state.isRaised flag = true := fun _ => flagging.isRaised
  refine ⟨_, flagged.advance recorded known stays ?_ (by rintro _ ⟨⟩) ?_ ?_⟩
  · intro left same
    obtain rfl := Option.some.inj same
    exact ⟨demand, recorded.suffix.mem began, lends answer new⟩
  · intro call did
    have before := recorded.before did (by rintro ⟨⟩)
    exact .inr (flagged.returned_of_called task recorded.suffix before)
  · intro call answer' did makes handle member
    have before := recorded.before did (by rintro ⟨⟩)
    rcases flagged.returned id call answer' before makes handle member with
      raised | ⟨left, found, raises⟩
    · exact .inl (stays _ raised)
    · obtain rfl := Option.some.inj (task.symm.trans found)
      obtain ⟨rest, same⟩ := raises
      cases same
      exact .inl flagging.raised

/-- A function is passed handles as it may be. -/
theorem call (flagged : activity.Flagged flags) {call : Call U}
    {next : call.Answer → Program U (Except Error (Reply U))}
    (task : activity.tasks id = some (.running (.ask call next)))
    (recorded : activity.moment.Records ⟨id, .called call⟩ after) :
    (activity.withTask after id (some (.waiting call next))).Flagged flags := by
  obtain ⟨demand, began, passes, lends⟩ := flagged.tasks id _ task
  have still : after.state = activity.moment.state := recorded.state
  have raisesNone : ∀ flag, ¬ Task.Raises (.running (.ask call next)) flag := by
    rintro flag ⟨rest, impossible⟩
    cases impossible
  refine flagged.advance_still recorded still ?_ ?_ ?_ ?_
  · intro left same
    obtain rfl := Option.some.inj same
    exact ⟨demand, recorded.suffix.mem began, passes, lends⟩
  · rintro _ ⟨⟩ handle member
    exact (passes handle member).passed (recorded.suffix.mem began)
      (still ▸ flagged.known.agree id)
  · intro other did
    rcases recorded.did_iff.mp did with ⟨_, now⟩ | before
    · cases now
      exact .inl ⟨next, rfl⟩
    · exact .inr (flagged.returned_of_called task recorded.suffix before)
  · intro other answer did makes handle member
    have before := recorded.before did (by rintro ⟨⟩)
    rw [still]
    exact .inl (flagged.raised_of_returned task raisesNone before makes member)

/-- When a function has returned, the next thing is to raise its flag. -/
theorem resume (flagged : activity.Flagged flags) {call : Call U}
    {next : call.Answer → Program U (Except Error (Reply U))} {answer : call.Answer}
    (task : activity.tasks id = some (.waiting call next))
    (recorded : activity.moment.Records ⟨id, .returned call answer⟩ after) :
    (activity.withTask after id (some (.running (next answer)))).Flagged flags := by
  obtain ⟨demand, began, passes, lends⟩ := flagged.tasks id _ task
  have still : after.state = activity.moment.state := recorded.state
  refine flagged.advance_still recorded still ?_ (by rintro _ ⟨⟩) ?_ ?_
  · intro left same
    obtain rfl := Option.some.inj same
    exact ⟨demand, recorded.suffix.mem began, (lends answer).2⟩
  · intro other did
    have before := recorded.before did (by rintro ⟨⟩)
    rcases flagged.called id other before with ⟨_, waits⟩ | ⟨answer', returned⟩
    · cases task.symm.trans waits
      exact .inr ⟨answer, recorded.did⟩
    · exact .inr ⟨answer', recorded.suffix.mem returned⟩
  · intro other answer' did makes handle member
    rcases recorded.did_iff.mp did with ⟨_, now⟩ | before
    · cases now
      exact .inr ⟨_, rfl, (lends answer).1 makes handle member⟩
    · rw [still]
      exact .inl (flagged.raised_of_returned task (fun _ => not_false) before makes member)

/-- When a request finishes, what is known of flags stays so. -/
theorem finish (flagged : activity.Flagged flags) {reply : Except Error (Reply U)}
    (task : activity.tasks id = some (.running (.done reply)))
    (recorded : activity.moment.Records ⟨id, .finished reply⟩ after) :
    (activity.withTask after id none).Flagged flags := by
  have still : after.state = activity.moment.state := recorded.state
  have raisesNone : ∀ flag, ¬ Task.Raises (.running (.done reply)) flag := by
    rintro flag ⟨rest, impossible⟩
    cases impossible
  refine flagged.advance_still recorded still (by rintro _ ⟨⟩) (by rintro _ ⟨⟩) ?_ ?_
  · intro other did
    have before := recorded.before did (by rintro ⟨⟩)
    exact .inr (flagged.returned_of_called task recorded.suffix before)
  · intro other answer did makes handle member
    have before := recorded.before did (by rintro ⟨⟩)
    rw [still]
    exact .inl (flagged.raised_of_returned task raisesNone before makes member)

/-- Every step keeps what is known of flags. -/
theorem step {next : Activity U} (flagged : activity.Flagged flags) (step : Step activity next) :
    ∃ flags, next.Flagged flags := by
  cases step with
  | start fresh _ recorded => exact flagged.start fresh recorded
  | perform task recorded => exact flagged.perform task recorded
  | call task recorded => exact ⟨flags, flagged.call task recorded⟩
  | resume task recorded => exact ⟨flags, flagged.resume task recorded⟩
  | finish task recorded => exact ⟨flags, flagged.finish task recorded⟩
  | contexts contexts =>
      exact ⟨flags, ⟨flagged.known.numbered, flagged.known.agree, flagged.known.apart⟩,
        flagged.tasks, flagged.passed, flagged.called, flagged.returned⟩

end Activity.Flagged

/-- In every reachable activity what requests know of flags is so. -/
theorem Activity.Reachable.flagged {activity : Activity U} (reachable : activity.Reachable) :
    ∃ flags, activity.Flagged flags := by
  induction reachable with
  | initial => exact ⟨_, .initial⟩
  | step _ step ih =>
      obtain ⟨flags, flagged⟩ := ih
      exact flagged.step step

end Provision
