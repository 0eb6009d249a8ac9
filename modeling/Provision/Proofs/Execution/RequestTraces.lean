import Provision.Proofs.Registries.TreeGrowth

/-!
# What requests did

A program that goes from start to end does a list of things and comes to a result.  `Program.Does`
is one such way, with all answers left open, so it covers whatever other requests and the
functions of the client do in between.  `Program.Goes` is the beginning of one, up to any point.

Main statements: `Program.does_andThen` and `Request.does_bind` say how composed programs go, and
`Program.goes_andThen` how they begin; `Reachable.told` that what a request of an activity did until
it ended is a way in which the program of its demand goes, and `Reachable.obeys` that what it did
so far is the beginning of one.
-/

namespace Provision

variable {U : Client} {α β : Type}

/-- One way in which a program may go from start to end: what it does, in order, and what it comes
to. -/
inductive Program.Does : Program U α → List (Event U) → α → Prop where
  | done (result : α) : Does (.done result) [] result
  | performed {operation : Operation U} {next : operation.Answer → Program U α}
      (answer : operation.Answer) {events : List (Event U)} {result : α} :
      Does (next answer) events result →
        Does (.perform operation next) (.performed operation answer :: events) result
  | called {call : Call U} {next : call.Answer → Program U α} (answer : call.Answer)
      {events : List (Event U)} {result : α} :
      Does (next answer) events result →
        Does (.ask call next) (.called call :: .returned call answer :: events) result

namespace Program

variable {program : Program U α} {events : List (Event U)}

@[simp] theorem does_done {first result : α} :
    (done first : Program U α).Does events result ↔ events = [] ∧ result = first := by
  constructor
  · intro does
    cases does
    exact ⟨rfl, rfl⟩
  · intro same
    obtain ⟨rfl, rfl⟩ := same
    exact .done _

/-- A program performs its operation and goes on with what is answered. -/
theorem does_perform {operation : Operation U} {next : operation.Answer → Program U α}
    {result : α} :
    (perform operation next).Does events result ↔
      ∃ answer rest, events = .performed operation answer :: rest ∧
        (next answer).Does rest result := by
  constructor
  · intro does
    cases does with
    | performed answer rest => exact ⟨answer, _, rfl, rest⟩
  · intro does
    obtain ⟨answer, rest, rfl, goes⟩ := does
    exact .performed answer goes

/-- A program calls its function and goes on with what is returned. -/
theorem does_ask {call : Call U} {next : call.Answer → Program U α} {result : α} :
    (ask call next).Does events result ↔
      ∃ answer rest, events = .called call :: .returned call answer :: rest ∧
        (next answer).Does rest result := by
  constructor
  · intro does
    cases does with
    | called answer rest => exact ⟨answer, _, rfl, rest⟩
  · intro does
    obtain ⟨answer, rest, rfl, goes⟩ := does
    exact .called answer goes

/-- A program that never goes on comes to nothing. -/
theorem not_does_never {result : α} : ¬ (never : Program U α).Does events result := nofun

/-- One program after another. -/
theorem does_andThen {next : α → Program U β} {result : β} :
    (program.andThen next).Does events result ↔
      ∃ first middle rest, events = first ++ rest ∧ program.Does first middle ∧
        (next middle).Does rest result := by
  induction program generalizing events with
  | done middle => simp [andThen]
  | never => simp [andThen, not_does_never]
  | perform operation after ih =>
      simp only [andThen, does_perform, ih]
      constructor
      · rintro ⟨answer, _, rfl, first, middle, rest, rfl, goes, ends⟩
        exact ⟨.performed operation answer :: first, middle, rest, rfl,
          ⟨answer, first, rfl, goes⟩, ends⟩
      · rintro ⟨_, middle, rest, rfl, ⟨answer, first, rfl, goes⟩, ends⟩
        exact ⟨answer, first ++ rest, rfl, first, middle, rest, rfl, goes, ends⟩
  | ask call after ih =>
      simp only [andThen, does_ask, ih]
      constructor
      · rintro ⟨answer, _, rfl, first, middle, rest, rfl, goes, ends⟩
        exact ⟨.called call :: .returned call answer :: first, middle, rest, rfl,
          ⟨answer, first, rfl, goes⟩, ends⟩
      · rintro ⟨_, middle, rest, rfl, ⟨answer, first, rfl, goes⟩, ends⟩
        exact ⟨answer, first ++ rest, rfl, first, middle, rest, rfl, goes, ends⟩

/-- What is known of all events and results of a program holds of each way in which it goes. -/
theorem Only.does {own : Event U → Prop} {yields : α → Prop} {result : α}
    (only : program.Only own yields) (does : program.Does events result) :
    (∀ event ∈ events, own event) ∧ yields result := by
  induction does with
  | done result => exact ⟨by simp, only⟩
  | performed answer _ ih =>
      have rest := ih (only answer).2
      simpa [(only answer).1] using rest
  | called answer _ ih =>
      have rest := ih (only.2 answer).2
      simpa [only.1, (only.2 answer).1] using rest

end Program

/-- One way in which a program may go so far: what it did, in order, and what it came to if it is
done.  A function of the client that was called may not have returned. -/
inductive Program.Goes : Program U α → List (Event U) → Option α → Prop where
  | begun (program : Program U α) : Goes program [] none
  | done (result : α) : Goes (.done result) [] (some result)
  | performed {operation : Operation U} {next : operation.Answer → Program U α}
      (answer : operation.Answer) {events : List (Event U)} {outcome : Option α} :
      Goes (next answer) events outcome →
        Goes (.perform operation next) (.performed operation answer :: events) outcome
  | calling (call : Call U) (next : call.Answer → Program U α) :
      Goes (.ask call next) [.called call] none
  | called {call : Call U} {next : call.Answer → Program U α} (answer : call.Answer)
      {events : List (Event U)} {outcome : Option α} :
      Goes (next answer) events outcome →
        Goes (.ask call next) (.called call :: .returned call answer :: events) outcome

namespace Program

variable {program : Program U α} {events : List (Event U)}

/-- Once it is done, a program went from start to end. -/
theorem goes_some {result : α} :
    program.Goes events (some result) ↔ program.Does events result := by
  constructor
  · intro goes
    generalize isDone : some result = outcome at goes
    induction goes with
    | begun _ => cases isDone
    | done _ => exact Option.some.inj isDone ▸ .done _
    | performed answer _ ih => exact .performed answer (ih isDone)
    | calling _ _ => cases isDone
    | called answer _ ih => exact .called answer (ih isDone)
  · intro does
    induction does with
    | done result => exact .done result
    | performed answer _ ih => exact .performed answer ih
    | called answer _ ih => exact .called answer ih

/-- A program that is done does nothing more. -/
theorem goes_done {result : α} {outcome : Option α}
    (goes : (Program.done result : Program U α).Goes events outcome) :
    events = [] ∧ ∀ last, outcome = some last → last = result := by
  cases goes with
  | begun => exact ⟨rfl, nofun⟩
  | done => exact ⟨rfl, fun last isLast => (Option.some.inj isLast).symm⟩

/-- What is known of all events of a program holds of what it did so far. -/
theorem Only.goes {own : Event U → Prop} {yields : α → Prop} {outcome : Option α}
    (only : program.Only own yields) (goes : program.Goes events outcome) :
    ∀ event ∈ events, own event := by
  induction goes with
  | begun _ => exact List.forall_mem_nil _
  | done _ => exact List.forall_mem_nil _
  | performed answer _ ih =>
      exact List.forall_mem_cons.mpr ⟨(only answer).1, ih (only answer).2⟩
  | calling call next => exact List.forall_mem_singleton.mpr only.1
  | called answer _ ih =>
      exact List.forall_mem_cons.mpr ⟨only.1,
        List.forall_mem_cons.mpr ⟨(only.2 answer).1, ih (only.2 answer).2⟩⟩

/-- One program after another, so far. -/
theorem goes_andThen {next : α → Program U β} {outcome : Option β} :
    (program.andThen next).Goes events outcome ↔
      (outcome = none ∧ program.Goes events none) ∨
        ∃ first middle rest, events = first ++ rest ∧ program.Goes first (some middle) ∧
          (next middle).Goes rest outcome := by
  constructor
  · intro goes
    induction program generalizing events with
    | done middle => exact .inr ⟨[], middle, events, rfl, .done middle, goes⟩
    | never =>
        cases goes
        exact .inl ⟨rfl, .begun _⟩
    | perform operation after ih =>
        cases goes with
        | begun => exact .inl ⟨rfl, .begun _⟩
        | performed answer goes =>
            rcases ih answer goes with ⟨rfl, begins⟩ | ⟨first, middle, rest, rfl, begins, ends⟩
            · exact .inl ⟨rfl, .performed answer begins⟩
            · exact .inr ⟨_, middle, rest, rfl, .performed answer begins, ends⟩
    | ask call after ih =>
        cases goes with
        | begun => exact .inl ⟨rfl, .begun _⟩
        | calling => exact .inl ⟨rfl, .calling call after⟩
        | called answer goes =>
            rcases ih answer goes with ⟨rfl, begins⟩ | ⟨first, middle, rest, rfl, begins, ends⟩
            · exact .inl ⟨rfl, .called answer begins⟩
            · exact .inr ⟨_, middle, rest, rfl, .called answer begins, ends⟩
  · rintro (⟨rfl, goes⟩ | ⟨first, middle, rest, rfl, goes, ends⟩)
    · generalize isNone : (none : Option α) = unfinished at goes
      induction goes with
      | begun _ => exact .begun _
      | done _ => cases isNone
      | performed answer _ ih => exact .performed answer (ih isNone)
      | calling call _ => exact .calling call _
      | called answer _ ih => exact .called answer (ih isNone)
    · generalize isSome : some middle = finished at goes
      induction goes with
      | begun _ => cases isSome
      | done _ => exact Option.some.inj isSome ▸ ends
      | performed answer _ ih => exact .performed answer (ih isSome)
      | calling _ _ => cases isSome
      | called answer _ ih => exact .called answer (ih isSome)

end Program

/-! ## Requests -/

namespace Request

variable {events : List (Event U)}

/-- One way in which a request may go. -/
abbrev Does (request : Request U α) (events : List (Event U)) (outcome : Except Error α) : Prop :=
  Program.Does request.run events outcome

@[simp] theorem does_pure {value : α} {outcome : Except Error α} :
    Does (pure value : Request U α) events outcome ↔ events = [] ∧ outcome = .ok value :=
  Program.does_done

@[simp] theorem does_fail {error : Error} {outcome : Except Error α} :
    Does (fail error : Request U α) events outcome ↔ events = [] ∧ outcome = .error error :=
  Program.does_done

@[simp] theorem does_ofExcept {known outcome : Except Error α} :
    Does (ofExcept known : Request U α) events outcome ↔ events = [] ∧ outcome = known :=
  Program.does_done

/-- One request after another: either the first fails, or the second goes on with its value. -/
theorem does_bind {request : Request U α} {next : α → Request U β} {outcome : Except Error β} :
    Does (request >>= next) events outcome ↔
      (∃ error, outcome = .error error ∧ Does request events (.error error)) ∨
        ∃ first value rest, events = first ++ rest ∧ Does request first (.ok value) ∧
          Does (next value) rest outcome := by
  refine Iff.trans Program.does_andThen ?_
  constructor
  · rintro ⟨first, error | value, rest, rfl, goes, ends⟩
    · obtain ⟨rfl, rfl⟩ := Program.does_done.mp ends
      rw [List.append_nil]
      exact .inl ⟨error, rfl, goes⟩
    · exact .inr ⟨first, value, rest, rfl, goes, ends⟩
  · rintro (⟨error, rfl, goes⟩ | ⟨first, value, rest, rfl, goes, ends⟩)
    · exact ⟨events, .error error, [], by simp, goes, Program.does_done.mpr ⟨rfl, rfl⟩⟩
    · exact ⟨first, .ok value, rest, rfl, goes, ends⟩

/-- A program that is lifted comes to a value. -/
theorem does_lift {program : Program U α} {outcome : Except Error α} :
    Does (ExceptT.lift program) events outcome ↔
      ∃ result, outcome = .ok result ∧ program.Does events result := by
  refine Iff.trans Program.does_andThen ?_
  constructor
  · rintro ⟨first, result, rest, rfl, goes, ends⟩
    obtain ⟨rfl, rfl⟩ := Program.does_done.mp ends
    rw [List.append_nil]
    exact ⟨result, rfl, goes⟩
  · rintro ⟨result, rfl, goes⟩
    exact ⟨events, result, [], by simp, goes, Program.does_done.mpr ⟨rfl, rfl⟩⟩

/-- A request that begins with an operation performs it and goes on. -/
theorem does_bind_act {operation : Operation U} {next : operation.Answer → Request U α}
    {outcome : Except Error α} :
    Does (act operation >>= next) events outcome ↔
      ∃ answer rest, events = .performed operation answer :: rest ∧
        Does (next answer) rest outcome :=
  Program.does_perform

/-- A request that begins with a call makes it and goes on. -/
theorem does_bind_call {call : Call U} {next : call.Answer → Request U α}
    {outcome : Except Error α} :
    Does (callClient call >>= next) events outcome ↔
      ∃ answer rest, events = .called call :: .returned call answer :: rest ∧
        Does (next answer) rest outcome :=
  Program.does_ask

/-- A request, and another in its place if it fails. -/
theorem does_tryCatch {request : Request U α} {handle : Error → Request U α}
    {outcome : Except Error α} :
    Does (tryCatch request handle) events outcome ↔
      (∃ value, outcome = .ok value ∧ Does request events (.ok value)) ∨
        ∃ first error rest, events = first ++ rest ∧ Does request first (.error error) ∧
          Does (handle error) rest outcome := by
  refine Iff.trans Program.does_andThen ?_
  constructor
  · rintro ⟨first, error | value, rest, rfl, goes, ends⟩
    · exact .inr ⟨first, error, rest, rfl, goes, ends⟩
    · obtain ⟨rfl, rfl⟩ := Program.does_done.mp ends
      rw [List.append_nil]
      exact .inl ⟨value, rfl, goes⟩
  · rintro (⟨value, rfl, goes⟩ | ⟨first, error, rest, rfl, goes, ends⟩)
    · exact ⟨events, .ok value, [], by simp, goes, Program.does_done.mpr ⟨rfl, rfl⟩⟩
    · exact ⟨first, .error error, rest, rfl, goes, ends⟩

end Request

/-! ## Requests of an activity -/

namespace Moment

/-- What a request did so far, in order. -/
def doings (moment : Moment U) (id : RequestId) : List (Event U) :=
  (moment.history.reverse.filter fun entry => decide (entry.request = id)).map Entry.event

variable {moment next : Moment U} {id other : RequestId} {event : Event U}

/-- The doings of a request are what it did. -/
theorem mem_doings : event ∈ moment.doings id ↔ moment.Did id event := by
  simp only [doings, Did, List.mem_map, List.mem_filter, List.mem_reverse, decide_eq_true_eq]
  constructor
  · rintro ⟨⟨_, _⟩, ⟨member, rfl⟩, rfl⟩
    exact member
  · intro member
    exact ⟨⟨id, event⟩, ⟨member, rfl⟩, rfl⟩

/-- What a request does now comes after its doings so far. -/
theorem Records.doings_self (recorded : moment.Records ⟨id, event⟩ next) :
    next.doings id = moment.doings id ++ [event] := by
  simp [doings, recorded.history]

/-- What others do is not among the doings of a request. -/
theorem Records.doings_of_ne (recorded : moment.Records ⟨other, event⟩ next)
    (differs : other ≠ id) : next.doings id = moment.doings id := by
  simp [doings, recorded.history, differs]

/-- A request that is not known did nothing. -/
theorem doings_eq_nil (unknown : ¬ moment.Knows id) : moment.doings id = [] := by
  simp only [doings, List.map_eq_nil_iff, List.filter_eq_nil_iff, List.mem_reverse,
    decide_eq_true_eq]
  intro entry member same
  exact unknown ⟨entry, member, same⟩

/-- What a request did from its start to its end is one way in which its program goes. -/
def Told (moment : Moment U) (id : RequestId) (reply : Except Error (Reply U)) : Prop :=
  ∃ demand events, moment.doings id = .started demand :: events ++ [.finished reply] ∧
    demand.request.Does events reply

/-- Every request starts with a demand, and what it did since is what the program of the demand does
so far; if it ended, then with what the program came to. -/
def Obeys (moment : Moment U) (text : Demand U → Request U (Reply U)) : Prop :=
  ∀ id, moment.Knows id → ∃ demand events reply,
    moment.doings id = .started demand :: events ++ (reply.map Event.finished).toList ∧
      (text demand).run.Goes events reply

end Moment

/-- One way in which what is left to do of a request may go so far. -/
def Task.Goes (task : Task U) (events : List (Event U))
    (reply : Option (Except Error (Reply U))) : Prop :=
  match task with
  | .running program => program.Goes events reply
  | .waiting call next => (events = [] ∧ reply = none) ∨ ∃ answer rest,
      events = .returned call answer :: rest ∧ (next answer).Goes rest reply

/-- A task may not have gone on yet. -/
theorem Task.goes_nil (task : Task U) : task.Goes [] none := by
  cases task with
  | running program => exact .begun program
  | waiting call next => exact .inl ⟨rfl, rfl⟩

/-- What a request did so far and what is left to do of it are together one way in which its
program goes. -/
def Task.Continues (task : Task U) (moment : Moment U) (id : RequestId) : Prop :=
  ∃ demand events, moment.doings id = .started demand :: events ∧
    ∀ rest reply, task.Goes rest reply → demand.request.run.Goes (events ++ rest) reply

namespace Activity

/-- All requests go as their programs do. -/
structure Faithful (activity : Activity U) : Prop where
  underway : ∀ id task, activity.tasks id = some task → task.Continues activity.moment id
  complete : ∀ id reply, activity.moment.Did id (.finished reply) → activity.moment.Told id reply
  known : ∀ id, activity.moment.Knows id →
    (∃ task, activity.tasks id = some task) ∨ ∃ reply, activity.moment.Did id (.finished reply)

namespace Faithful

variable {activity : Activity U} {id : RequestId} {event : Event U} {after : Moment U}

/-- One request goes on as it should; all others did what they did. -/
theorem advance {task : Option (Task U)} (faithful : activity.Faithful)
    (recorded : activity.moment.Records ⟨id, event⟩ after)
    (underway : ∀ left, task = some left → left.Continues after id)
    (complete : ∀ reply, after.Did id (.finished reply) → after.Told id reply)
    (known : (∃ left, task = some left) ∨ ∃ reply, after.Did id (.finished reply)) :
    (activity.withTask after id task).Faithful where
  underway := by
    intro other left found
    by_cases same : other = id
    · subst same
      apply underway
      simpa using found
    · rw [withTask_tasks_of_ne _ _ _ same] at found
      have before := faithful.underway other left found
      simp only [Task.Continues, withTask, recorded.doings_of_ne (Ne.symm same)]
      exact before
  complete := by
    intro other reply ended
    by_cases same : other = id
    · subst same
      exact complete reply ended
    · have before : activity.moment.Did other (.finished reply) := by
        cases recorded.did_iff.mp ended with
        | inl now => exact absurd now.1 same
        | inr before => exact before
      have told := faithful.complete other reply before
      simp only [Moment.Told, withTask, recorded.doings_of_ne (Ne.symm same)]
      exact told
  known := by
    intro other knows
    by_cases same : other = id
    · subst same
      rw [withTask_tasks_self]
      exact known
    · obtain ⟨entry, member, isOther⟩ := knows
      have before : activity.moment.Knows other := by
        change entry ∈ after.history at member
        rw [recorded.history] at member
        rcases List.mem_cons.mp member with rfl | earlier
        · exact absurd isOther.symm same
        · exact ⟨entry, earlier, isOther⟩
      rw [withTask_tasks_of_ne _ _ _ same]
      exact (faithful.known other before).imp_right fun ended =>
        ended.imp fun _ did => recorded.suffix.mem did

/-- A request under way does one thing more. -/
theorem goesOn {task left : Task U} (faithful : activity.Faithful)
    (unfinished : ∀ reply, ¬ activity.moment.Did id (.finished reply))
    (found : activity.tasks id = some task)
    (recorded : activity.moment.Records ⟨id, event⟩ after)
    (notEnd : ∀ reply, event ≠ .finished reply)
    (goes : ∀ rest reply, left.Goes rest reply → task.Goes (event :: rest) reply) :
    (activity.withTask after id (some left)).Faithful := by
  refine faithful.advance recorded ?_ ?_ (.inl ⟨left, rfl⟩)
  · intro other same
    obtain rfl := Option.some.inj same
    obtain ⟨demand, events, doings, leads⟩ := faithful.underway id task found
    refine ⟨demand, events ++ [event], ?_, ?_⟩
    · simp [recorded.doings_self, doings]
    · intro rest reply left
      simpa using leads _ _ (goes rest reply left)
  · intro reply ended
    cases recorded.did_iff.mp ended with
    | inl now => exact absurd now.2.symm (notEnd reply)
    | inr before => exact absurd before (unfinished reply)

/-- Every step keeps an activity faithful to the programs of its requests. -/
theorem step {next : Activity U}
    (unfinished : ∀ id task, activity.tasks id = some task →
      ∀ reply, ¬ activity.moment.Did id (.finished reply))
    (faithful : activity.Faithful) (step : Step activity next) : next.Faithful := by
  cases step with
  | @start id demand after fresh allowed recorded =>
      refine faithful.advance recorded ?_ ?_ (.inl ⟨_, rfl⟩)
      · intro left same
        obtain rfl := Option.some.inj same
        refine ⟨demand, [], ?_, fun rest reply goes => goes⟩
        rw [recorded.doings_self, Moment.doings_eq_nil fresh]
        rfl
      · intro reply ended
        cases recorded.did_iff.mp ended with
        | inl now => cases now.2
        | inr before => exact absurd ⟨_, before, rfl⟩ fresh
  | perform task recorded =>
      apply faithful.goesOn (unfinished _ _ task) task recorded (by rintro _ ⟨⟩)
      intro rest reply goes
      exact .performed _ goes
  | @call id call next after task recorded =>
      apply faithful.goesOn (unfinished _ _ task) task recorded (by rintro _ ⟨⟩)
      rintro rest reply (⟨rfl, rfl⟩ | ⟨answer, last, rfl, goes⟩)
      · exact .calling call next
      · exact .called answer goes
  | resume task recorded =>
      apply faithful.goesOn (unfinished _ _ task) task recorded (by rintro _ ⟨⟩)
      intro rest reply goes
      exact .inr ⟨_, rest, rfl, goes⟩
  | @finish id reply after task recorded =>
      have ended : after.Did id (.finished reply) := recorded.did
      refine faithful.advance recorded (by rintro _ ⟨⟩) ?_ (.inr ⟨reply, ended⟩)
      intro other ended
      obtain ⟨demand, events, doings, goes⟩ := faithful.underway id _ task
      cases recorded.did_iff.mp ended with
      | inl now =>
          cases now.2
          refine ⟨demand, events, by simp [recorded.doings_self, doings], Program.goes_some.mp ?_⟩
          simpa using goes [] (some reply) (.done reply)
      | inr before => exact absurd before (unfinished _ _ task other)
  | contexts contexts => exact ⟨faithful.underway, faithful.complete, faithful.known⟩

end Faithful

/-- Reachable activities are faithful to the programs of their requests. -/
theorem Reachable.faithful {activity : Activity U} (reachable : activity.Reachable) :
    activity.Faithful := by
  induction reachable with
  | initial =>
      refine ⟨?_, ?_, ?_⟩
      · rintro id task ⟨⟩
      · rintro id reply ⟨⟩
      · rintro id ⟨event, ⟨⟩, _⟩
  | step reachable step ih =>
      apply ih.step _ step
      intro id task found
      exact ((reachable.sound kept_growing).underway id task found).2

/-- What a request did from its start to its end is one way in which its program goes. -/
theorem Reachable.told {activity : Activity U} (reachable : activity.Reachable) {id : RequestId}
    {reply : Except Error (Reply U)} (ended : activity.moment.Did id (.finished reply)) :
    activity.moment.Told id reply :=
  reachable.faithful.complete id reply ended

/-- What requests did so far is what their programs do, up to where each is. -/
theorem Reachable.obeys {activity : Activity U} (reachable : activity.Reachable) :
    activity.moment.Obeys Demand.request := by
  intro id knows
  rcases reachable.faithful.known id knows with ⟨task, found⟩ | ⟨reply, ended⟩
  · obtain ⟨demand, events, doings, goes⟩ := reachable.faithful.underway id task found
    refine ⟨demand, events, none, by simpa using doings, ?_⟩
    simpa using goes [] none task.goes_nil
  · obtain ⟨demand, events, doings, does⟩ := reachable.told ended
    exact ⟨demand, events, some reply, doings, Program.goes_some.mpr does⟩

/-- A request has one demand, with which it started. -/
theorem Reachable.demand_of_doings {activity : Activity U} (reachable : activity.Reachable)
    {id : RequestId} {demand other : Demand U} {rest : List (Event U)}
    (began : activity.moment.Did id (.started demand))
    (doings : activity.moment.doings id = .started other :: rest) : demand = other := by
  have began' : activity.moment.Did id (.started other) := by
    rw [← Moment.mem_doings, doings]
    exact List.mem_cons_self
  have orderly := (reachable.lawful kept_growing).mono fun _ _ allowed => allowed.1
  exact orderly.started_once began began'

/-- What a request did from its start to its end is one way in which its demand goes. -/
theorem Reachable.went {activity : Activity U} (reachable : activity.Reachable) {id : RequestId}
    {demand : Demand U} (began : activity.moment.Did id (.started demand))
    {reply : Except Error (Reply U)} (ended : activity.moment.Did id (.finished reply)) :
    ∃ events, activity.moment.doings id = .started demand :: events ++ [.finished reply] ∧
      demand.request.Does events reply := by
  obtain ⟨other, events, doings, does⟩ := reachable.told ended
  obtain rfl := reachable.demand_of_doings began doings
  exact ⟨events, doings, does⟩

/-- What a request did so far that was started with a demand. -/
theorem Reachable.doings_of_started {activity : Activity U} (reachable : activity.Reachable)
    {id : RequestId} {demand : Demand U} (began : activity.moment.Did id (.started demand)) :
    ∃ events reply, activity.moment.doings id =
        .started demand :: events ++ (reply.map Event.finished).toList ∧
      demand.request.run.Goes events reply := by
  obtain ⟨other, events, reply, doings, goes⟩ := reachable.obeys id ⟨_, began, rfl⟩
  obtain rfl := reachable.demand_of_doings began doings
  exact ⟨events, reply, doings, goes⟩

end Activity

end Provision
