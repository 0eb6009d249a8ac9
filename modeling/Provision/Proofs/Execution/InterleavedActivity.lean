import Provision.Proofs.Execution.RequestConduct
import Mathlib.Logic.Function.Basic

/-!
# Interleaved activity

Any number of requests under way at once, whose steps come in any order.  A step is one operation
of one request, the beginning or the return of one call, the start of a new request or the end of
one.  What a function of the client answers is left open, and so is what it does meanwhile: it may
make requests of its own, which are requests like all others, and at any time the client may
change its contexts.

Main statements: `Reachable.lawful` says that a conduct that every request keeps to, as long as
the others do, is kept to by all of them together; `Served.next` that demands which run alone, one
after another, are one of the ways in which they may go.
-/

namespace Provision

variable {U : Client}

/-- What is left to do of a request: it goes on, or it waits for a function of the client. -/
inductive Task (U : Client) where
  | running (program : Program U (Except Error (Reply U)))
  | waiting (call : Call U) (next : call.Answer → Program U (Except Error (Reply U)))

/-- A moment and what is left to do of the requests under way. -/
structure Activity (U : Client) where
  moment : Moment U := {}
  tasks : RequestId → Option (Task U) := fun _ => none

namespace Activity

/-- Put what is left to do of a request. -/
def withTask (activity : Activity U) (moment : Moment U) (id : RequestId)
    (task : Option (Task U)) : Activity U :=
  { moment, tasks := Function.update activity.tasks id task }

/-- A task that is set is found under its number. -/
@[simp] theorem withTask_tasks_self (activity : Activity U) (moment : Moment U)
    (id : RequestId) (task : Option (Task U)) :
    (activity.withTask moment id task).tasks id = task :=
  Function.update_self ..

/-- Setting a task leaves those of other requests. -/
theorem withTask_tasks_of_ne (activity : Activity U) (moment : Moment U) {id other : RequestId}
    (task : Option (Task U)) (differs : other ≠ id) :
    (activity.withTask moment id task).tasks other = activity.tasks other :=
  Function.update_of_ne differs ..

/-- One step of one request, or a change of the contexts by the client. -/
inductive Step : Activity U → Activity U → Prop where
  | start {activity : Activity U} {id : RequestId} {demand : Demand U} {after : Moment U}
      (fresh : ¬ activity.moment.Knows id) (allowed : demand.Allowed activity.moment)
      (recorded : activity.moment.Records ⟨id, .started demand⟩ after) :
      Step activity (activity.withTask after id (some (.running demand.request.run)))
  | perform {activity : Activity U} {id : RequestId} {operation : Operation U}
      {next : operation.Answer → Program U (Except Error (Reply U))} {answer : operation.Answer}
      {after : Moment U} (task : activity.tasks id = some (.running (.perform operation next)))
      (recorded : activity.moment.Records ⟨id, .performed operation answer⟩ after) :
      Step activity (activity.withTask after id (some (.running (next answer))))
  | call {activity : Activity U} {id : RequestId} {call : Call U}
      {next : call.Answer → Program U (Except Error (Reply U))} {after : Moment U}
      (task : activity.tasks id = some (.running (.ask call next)))
      (recorded : activity.moment.Records ⟨id, .called call⟩ after) :
      Step activity (activity.withTask after id (some (.waiting call next)))
  | resume {activity : Activity U} {id : RequestId} {call : Call U}
      {next : call.Answer → Program U (Except Error (Reply U))} {answer : call.Answer}
      {after : Moment U} (task : activity.tasks id = some (.waiting call next))
      (recorded : activity.moment.Records ⟨id, .returned call answer⟩ after) :
      Step activity (activity.withTask after id (some (.running (next answer))))
  | finish {activity : Activity U} {id : RequestId} {reply : Except Error (Reply U)}
      {after : Moment U} (task : activity.tasks id = some (.running (.done reply)))
      (recorded : activity.moment.Records ⟨id, .finished reply⟩ after) :
      Step activity (activity.withTask after id none)
  | contexts {activity : Activity U} (contexts : Contexts) :
      Step activity { activity with moment := activity.moment.withContexts contexts }

/-- The activities that come about from nothing, step by step. -/
inductive Reachable : Activity U → Prop where
  | initial : Reachable {}
  | step {activity next : Activity U} :
      Reachable activity → Step activity next → Reachable next

end Activity

open Moment

/-- What is left to do keeps to a conduct, and so does the end of the request. -/
def Task.Keeps (rely guar : Conduct U) (id : RequestId) (task : Task U) (moment : Moment U) :
    Prop :=
  match task with
  | .running program =>
      program.Keeps rely guar id (fun reply last => guar last ⟨id, .finished reply⟩) moment
  | .waiting call next =>
      ∀ later, Interference rely id moment later → later.Lawful rely →
        ∀ answer after, later.Records ⟨id, .returned call answer⟩ after →
          guar later ⟨id, .returned call answer⟩ ∧
            (next answer).Keeps rely guar id
              (fun reply last => guar last ⟨id, .finished reply⟩) after

theorem Task.Keeps.later {rely guar : Conduct U} {id : RequestId} {task : Task U}
    {moment next : Moment U} (keeps : task.Keeps rely guar id moment)
    (passage : Interference rely id moment next) : task.Keeps rely guar id next := by
  cases task with
  | running program => exact Program.Keeps.later passage keeps
  | waiting call rest => exact fun last more => keeps last (passage.trans more)

/-- Every request keeps to the conduct `guar` as long as the others keep to `rely`. -/
structure Conduct.Kept (rely guar : Conduct U) : Prop where
  started : ∀ moment id demand, moment.Lawful rely →
    Conduct.orderly moment ⟨id, .started demand⟩ → guar moment ⟨id, .started demand⟩
  follows : ∀ moment id demand after, moment.Lawful rely →
    Conduct.orderly moment ⟨id, .started demand⟩ →
      moment.Records ⟨id, .started demand⟩ after →
        Request.Keeps rely guar id (fun reply last => guar last ⟨id, .finished reply⟩)
          demand.request after

namespace Conduct.Kept

variable {rely guar guar' : Conduct U}

/-- Two conducts that are kept are kept at once. -/
theorem and (first : Conduct.Kept rely guar) (second : Conduct.Kept rely guar') :
    Conduct.Kept rely (guar.and guar') where
  started := fun moment id demand lawful orderly =>
    ⟨first.started moment id demand lawful orderly,
      second.started moment id demand lawful orderly⟩
  follows := fun moment id demand after lawful orderly recorded =>
    (first.follows moment id demand after lawful orderly recorded).and
      (second.follows moment id demand after lawful orderly recorded)

end Conduct.Kept

namespace Activity

/-- What holds of a reachable activity if every request keeps to a conduct. -/
structure Sound (guar : Conduct U) (activity : Activity U) : Prop where
  lawful : activity.moment.Lawful (Conduct.orderly.and guar)
  keeps : ∀ id task, activity.tasks id = some task →
    task.Keeps (Conduct.orderly.and guar) guar id activity.moment
  underway : ∀ id task, activity.tasks id = some task →
    (∃ demand, activity.moment.Did id (.started demand)) ∧
      ∀ reply, ¬ activity.moment.Did id (.finished reply)

namespace Sound

variable {guar : Conduct U} {activity : Activity U}

/-- A request did what its conduct allows; all others go on as before. -/
theorem advance {id : RequestId} {event : Event U} {after : Moment U} {task : Option (Task U)}
    (sound : activity.Sound guar)
    (recorded : activity.moment.Records ⟨id, event⟩ after)
    (orderly : Conduct.orderly activity.moment ⟨id, event⟩)
    (allowed : guar activity.moment ⟨id, event⟩)
    (keeps : ∀ left, task = some left → left.Keeps (Conduct.orderly.and guar) guar id after)
    (underway : ∀ left, task = some left → after.Underway id) :
    (activity.withTask after id task).Sound guar where
  lawful := .records sound.lawful recorded ⟨orderly, allowed⟩
  keeps := by
    intro other left found
    by_cases same : other = id
    · subst same
      exact keeps left (by simpa using found)
    · rw [withTask_tasks_of_ne _ _ _ same] at found
      refine (sound.keeps other left found).later ?_
      exact .foreign (.refl _) recorded (fun equal => same equal.symm) ⟨orderly, allowed⟩
  underway := by
    intro other left found
    by_cases same : other = id
    · subst same
      exact underway left (by simpa using found)
    · rw [withTask_tasks_of_ne _ _ _ same] at found
      exact Moment.Underway.foreign (sound.underway other left found) recorded (Ne.symm same)

/-- Every step of sound activities is allowed by their conduct. -/
theorem step {next : Activity U} (kept : Conduct.Kept (Conduct.orderly.and guar) guar)
    (sound : activity.Sound guar) (step : Step activity next) : next.Sound guar := by
  cases step with
  | @start id demand after fresh allowed recorded =>
      have orderly : Conduct.orderly activity.moment ⟨id, .started demand⟩ := ⟨fresh, allowed⟩
      refine sound.advance recorded orderly (kept.started _ _ _ sound.lawful orderly) ?_ ?_
      · rintro left ⟨⟩
        exact kept.follows _ _ _ _ sound.lawful orderly recorded
      · rintro left ⟨⟩
        exact recorded.underway_of_started fresh
  | perform task recorded =>
      obtain ⟨allowed, rest⟩ :=
        sound.keeps _ _ task activity.moment (.refl _) sound.lawful _ _ recorded
      refine sound.advance recorded (sound.underway _ _ task) allowed ?_ ?_
      · rintro left ⟨⟩
        exact rest
      · rintro left ⟨⟩
        exact Moment.Underway.goesOn (sound.underway _ _ task) recorded nofun
  | call task recorded =>
      obtain ⟨allowed, rest⟩ := sound.keeps _ _ task activity.moment (.refl _) sound.lawful
      refine sound.advance recorded (sound.underway _ _ task) allowed ?_ ?_
      · rintro left ⟨⟩
        exact rest _ recorded
      · rintro left ⟨⟩
        exact Moment.Underway.goesOn (sound.underway _ _ task) recorded nofun
  | resume task recorded =>
      obtain ⟨allowed, rest⟩ :=
        sound.keeps _ _ task activity.moment (.refl _) sound.lawful _ _ recorded
      refine sound.advance recorded (sound.underway _ _ task) allowed ?_ ?_
      · rintro left ⟨⟩
        exact rest
      · rintro left ⟨⟩
        exact Moment.Underway.goesOn (sound.underway _ _ task) recorded nofun
  | finish task recorded =>
      have allowed := sound.keeps _ _ task activity.moment (.refl _) sound.lawful
      refine sound.advance recorded (sound.underway _ _ task) allowed ?_ ?_
      · rintro left ⟨⟩
      · rintro left ⟨⟩
  | contexts contexts =>
      refine ⟨.contexts contexts sound.lawful, ?_, sound.underway⟩
      exact fun id left found => (sound.keeps id left found).later (.contexts contexts (.refl _))

end Sound

/-- If every request keeps to a conduct as long as the others do, all of them do. -/
theorem Reachable.sound {guar : Conduct U} {activity : Activity U}
    (kept : Conduct.Kept (Conduct.orderly.and guar) guar) (reachable : activity.Reachable) :
    activity.Sound guar := by
  induction reachable with
  | initial =>
      refine ⟨.initial, ?_, ?_⟩
      · rintro id task ⟨⟩
      · rintro id task ⟨⟩
  | step _ step ih => exact ih.step kept step

/-- A conduct that all requests keep to is kept in all reachable activities. -/
theorem Reachable.lawful {guar : Conduct U} {activity : Activity U}
    (kept : Conduct.Kept (Conduct.orderly.and guar) guar) (reachable : activity.Reachable) :
    activity.moment.Lawful (Conduct.orderly.and guar) :=
  (reachable.sound kept).lawful

/-! ## Requests that run alone -/

/-- Some steps, one after another. -/
inductive Steps : Activity U → Activity U → Prop where
  | refl (activity : Activity U) : Steps activity activity
  | step {first middle last : Activity U} :
      Steps first middle → Step middle last → Steps first last

theorem Steps.trans {first middle last : Activity U} (before : Steps first middle)
    (after : Steps middle last) : Steps first last := by
  induction after with
  | refl => exact before
  | step _ step ih => exact .step ih step

/-- What is reached from a reachable activity is reachable. -/
theorem Reachable.steps {first last : Activity U} (reachable : first.Reachable)
    (steps : Steps first last) : last.Reachable := by
  induction steps with
  | refl => exact reachable
  | step _ step ih => exact .step ih step

end Activity

/-- What is left when a demand was served alone. -/
def Demand.afterwards {σ : Type} (behaviour : Behaviour U σ) (demand : Demand U)
    (world : World U σ) : World U σ :=
  match demand.request.run.run behaviour world with
  | some (_, last) => last
  | none => world

/-- The functions of the client use no containers: all they change is contexts. -/
def Behaviour.Detached {σ : Type} (behaviour : Behaviour U σ) : Prop :=
  ∀ call world answer after, behaviour call world = some (answer, after) →
    ∃ contexts, after.state = { world.state with contexts }

/-- What a program does when it runs alone, the last first. -/
def Program.trace {σ α : Type} (behaviour : Behaviour U σ) :
    Program U α → World U σ → List (Event U)
  | .done _, _ => []
  | .perform operation next, world =>
      match operation.perform world.state with
      | some (answer, state) =>
          (next answer).trace behaviour { world with state } ++ [.performed operation answer]
      | none => []
  | .ask call next, world =>
      match behaviour call world with
      | some (answer, world) =>
          (next answer).trace behaviour world ++ [.returned call answer, .called call]
      | none => []
  | .never, _ => []

/-- The trace of an operation begins with it. -/
theorem Program.trace_perform {σ α : Type} {behaviour : Behaviour U σ} {operation : Operation U}
    {next : operation.Answer → Program U α} {world : World U σ} {answer : operation.Answer}
    {state : State U} (performs : operation.perform world.state = some (answer, state)) :
    (perform operation next).trace behaviour world =
      (next answer).trace behaviour { world with state } ++ [.performed operation answer] := by
  simp only [trace, performs]

/-- The trace of a call begins with it. -/
theorem Program.trace_ask {σ α : Type} {behaviour : Behaviour U σ} {call : Call U}
    {next : call.Answer → Program U α} {world after : World U σ} {answer : call.Answer}
    (answers : behaviour call world = some (answer, after)) :
    (ask call next).trace behaviour world =
      (next answer).trace behaviour after ++ [.returned call answer, .called call] := by
  simp only [trace, answers]

/-- What a call leaves behind once it returned, recorded after whatever became of contexts. -/
theorem Behaviour.Detached.returns {σ : Type} {behaviour : Behaviour U σ}
    (detached : behaviour.Detached) {call : Call U} {world after : World U σ}
    {answer : call.Answer} (answers : behaviour call world = some (answer, after))
    {moment : Moment U} (state : moment.state = world.state) (id : RequestId) :
    ∃ contexts, (moment.withContexts contexts).Records ⟨id, .returned call answer⟩
      ((moment.withContexts contexts).recording ⟨id, .returned call answer⟩ after.state) := by
  obtain ⟨contexts, changed⟩ := detached call world answer after answers
  refine ⟨contexts, Moment.records_recording ?_⟩
  change after.state = { moment.state with contexts }
  rw [changed, state]

/-- What a demand does when its request runs alone, from start to end, the last first. -/
def Demand.trace {σ : Type} (behaviour : Behaviour U σ) (demand : Demand U)
    (reply : Except Error (Reply U)) (world : World U σ) : List (Event U) :=
  .finished reply :: (demand.request.run.trace behaviour world ++ [.started demand])

namespace Activity

/-- The steps of a program that runs alone. -/
theorem steps_run {σ : Type} {behaviour : Behaviour U σ} (detached : behaviour.Detached)
    {id : RequestId} {reply : Except Error (Reply U)}
    (program : Program U (Except Error (Reply U))) {world last : World U σ}
    (runs : program.run behaviour world = some (reply, last)) {activity : Activity U}
    (task : activity.tasks id = some (.running program))
    (state : activity.moment.state = world.state) :
    ∃ next, Steps activity next ∧ next.tasks id = some (.running (.done reply)) ∧
      next.moment.state = last.state ∧ next.moment.history =
        (program.trace behaviour world).map (Entry.mk id) ++ activity.moment.history := by
  induction program generalizing world activity with
  | done result =>
      cases runs
      exact ⟨activity, .refl _, task, state, rfl⟩
  | perform operation next ih =>
      obtain ⟨answer, between, performs, rest⟩ := Program.run_perform_eq_some.mp runs
      let after := activity.moment.recording ⟨id, .performed operation answer⟩ between
      have recorded : activity.moment.Records ⟨id, .performed operation answer⟩ after :=
        Moment.records_recording (state ▸ performs)
      let resumed := activity.withTask after id (some (.running (next answer)))
      have goesOn : resumed.tasks id = some (.running (next answer)) := withTask_tasks_self ..
      obtain ⟨final, steps, tasks, same, history⟩ := ih answer rest goesOn rfl
      have first : Steps activity resumed := .step (.refl _) (.perform task recorded)
      refine ⟨final, first.trans steps, tasks, same, ?_⟩
      rw [history, Program.trace_perform performs, List.map_append, List.append_assoc]
      rfl
  | ask call next ih =>
      obtain ⟨answer, between, answers, rest⟩ := Program.run_ask_eq_some.mp runs
      let begun := activity.moment.recording ⟨id, .called call⟩ activity.moment.state
      have began : activity.moment.Records ⟨id, .called call⟩ begun := Moment.records_recording rfl
      have waited : begun.state = world.state := state
      obtain ⟨contexts, returned⟩ := detached.returns answers waited id
      let after := (begun.withContexts contexts).recording ⟨id, .returned call answer⟩ between.state
      let waiting := activity.withTask begun id (some (.waiting call next))
      let woken : Activity U := { waiting with moment := begun.withContexts contexts }
      let resumed := woken.withTask after id (some (.running (next answer)))
      have waits : woken.tasks id = some (.waiting call next) := withTask_tasks_self ..
      have goesOn : resumed.tasks id = some (.running (next answer)) := withTask_tasks_self ..
      obtain ⟨final, steps, tasks, same, history⟩ := ih answer rest goesOn rfl
      have calls : Steps activity waiting := .step (.refl _) (.call task began)
      have resumes : Steps activity resumed :=
        .step (.step calls (.contexts contexts)) (.resume waits returned)
      refine ⟨final, resumes.trans steps, tasks, same, ?_⟩
      rw [history, Program.trace_ask answers, List.map_append, List.append_assoc]
      rfl
  | never => cases runs

/-- The steps of a demand whose request runs alone, from start to end. -/
theorem steps_alone {σ : Type} {behaviour : Behaviour U σ} {demand : Demand U}
    {world last : World U σ} {reply : Except Error (Reply U)} {activity : Activity U}
    {id : RequestId} (detached : behaviour.Detached)
    (runs : demand.request.run.run behaviour world = some (reply, last))
    (fresh : ¬ activity.moment.Knows id) (allowed : demand.Allowed activity.moment)
    (state : activity.moment.state = world.state) :
    ∃ next, Steps activity next ∧ next.moment.state = last.state ∧ next.moment.history =
      (demand.trace behaviour reply world).map (Entry.mk id) ++ activity.moment.history := by
  let began := activity.moment.recording ⟨id, .started demand⟩ activity.moment.state
  have recorded : activity.moment.Records ⟨id, .started demand⟩ began :=
    Moment.records_recording rfl
  have runsNow : (activity.withTask began id (some (.running demand.request.run))).tasks id =
      some (.running demand.request.run) := withTask_tasks_self ..
  obtain ⟨middle, steps, task, same, history⟩ :=
    steps_run detached demand.request.run runs runsNow state
  let ended := middle.moment.recording ⟨id, .finished reply⟩ middle.moment.state
  have finished : middle.moment.Records ⟨id, .finished reply⟩ ended := Moment.records_recording rfl
  have starts : Steps activity (activity.withTask began id (some (.running demand.request.run))) :=
    .step (.refl _) (.start fresh allowed recorded)
  have reached : Steps activity (middle.withTask ended id none) :=
    .step (starts.trans steps) (.finish task finished)
  refine ⟨_, reached, same, ?_⟩
  change ⟨id, .finished reply⟩ :: middle.moment.history = _
  simp only [history, Demand.trace, List.map_cons, List.map_append, List.cons_append,
    List.append_assoc]
  rfl

/-- What a demand comes to when its request runs alone is one of the ways in which it may go. -/
theorem Reachable.alone {σ : Type} {behaviour : Behaviour U σ} {demand : Demand U}
    {world last : World U σ} {reply : Except Error (Reply U)} {activity : Activity U}
    {id : RequestId} (reachable : activity.Reachable) (detached : behaviour.Detached)
    (runs : demand.request.run.run behaviour world = some (reply, last))
    (fresh : ¬ activity.moment.Knows id) (allowed : demand.Allowed activity.moment)
    (state : activity.moment.state = world.state) :
    ∃ next, Reachable next ∧ next.moment.state = last.state ∧ next.moment.history =
      (demand.trace behaviour reply world).map (Entry.mk id) ++ activity.moment.history := by
  obtain ⟨next, steps, same, history⟩ := steps_alone detached runs fresh allowed state
  exact ⟨next, reachable.steps steps, same, history⟩

/-- Demands that were made one after another, each running alone, and what they came to. -/
structure Served {σ : Type} (behaviour : Behaviour U σ)
    (served : List (Demand U × Except Error (Reply U))) (world : World U σ)
    (activity : Activity U) : Prop where
  reachable : activity.Reachable
  state : activity.moment.state = world.state
  did : ∀ (index) {demand reply}, served[index]? = some (demand, reply) →
    activity.moment.Did ⟨index⟩ (.started demand) ∧ activity.moment.Did ⟨index⟩ (.finished reply)
  known : ∀ {id}, activity.moment.Knows id → id.index < served.length

namespace Served

variable {σ : Type} {behaviour : Behaviour U σ} {world : World U σ}
  {served : List (Demand U × Except Error (Reply U))} {activity : Activity U}

/-- Nothing was served to begin with. -/
theorem initial (memory : σ) : Served behaviour [] { state := {}, memory } {} where
  reachable := .initial
  state := rfl
  did := by
    intro index demand reply found
    simp at found
  known := by
    rintro id ⟨entry, member, _⟩
    cases member

/-- A demand that runs alone is served next, with its trace as the history. -/
theorem next (before : Served behaviour served world activity) (detached : behaviour.Detached)
    {demand : Demand U} {reply : Except Error (Reply U)} {last : World U σ}
    (runs : demand.request.run.run behaviour world = some (reply, last))
    (allowed : ∀ scope ∈ demand.scopes, ∃ earlier, (earlier, .ok (.built scope)) ∈ served) :
    ∃ next, Served behaviour (served ++ [(demand, reply)]) last next ∧ next.moment.history =
      (demand.trace behaviour reply world).map (Entry.mk ⟨served.length⟩) ++
        activity.moment.history := by
  have isScope : demand.Allowed activity.moment := by
    intro scope names
    obtain ⟨earlier, member⟩ := allowed scope names
    obtain ⟨index, found⟩ := List.mem_iff_getElem?.mp member
    exact ⟨_, (before.did _ found).2⟩
  have fresh : ¬ activity.moment.Knows ⟨served.length⟩ :=
    fun known => Nat.lt_irrefl _ (before.known known)
  obtain ⟨next, reachable, same, history⟩ :=
    before.reachable.alone detached runs fresh isScope before.state
  have did : ∀ {event}, event ∈ demand.trace behaviour reply world →
      next.moment.Did ⟨served.length⟩ event := by
    intro event member
    unfold Moment.Did
    rw [history]
    exact List.mem_append_left _ (List.mem_map_of_mem member)
  have suffix : activity.moment.history <:+ next.moment.history := ⟨_, history.symm⟩
  refine ⟨next, ⟨reachable, same, ?_, ?_⟩, history⟩
  · intro index demand' reply' found
    by_cases earlier : index < served.length
    · rw [List.getElem?_append_left earlier] at found
      exact ⟨suffix.mem (before.did _ found).1, suffix.mem (before.did _ found).2⟩
    · obtain rfl : index = served.length := by
        have inside := (List.getElem?_eq_some_iff.mp found).1
        rw [List.length_append, List.length_singleton] at inside
        omega
      simp only [List.getElem?_concat_length, Option.some.injEq, Prod.mk.injEq] at found
      obtain ⟨rfl, rfl⟩ := found
      refine ⟨did (List.mem_cons_of_mem _ ?_), did List.mem_cons_self⟩
      exact List.mem_append_right _ (List.mem_singleton_self _)
  · rintro id ⟨entry, member, rfl⟩
    rw [List.length_append, List.length_singleton]
    rw [history] at member
    rcases List.mem_append.mp member with own | earlier
    · obtain ⟨event, _, rfl⟩ := List.mem_map.mp own
      exact Nat.lt_succ_self _
    · exact Nat.lt_succ_of_lt (before.known ⟨entry, earlier, rfl⟩)

/-- A demand of one scope that was built. -/
theorem nextOn (before : Served behaviour served world activity) (detached : behaviour.Detached)
    {demand : Demand U} {reply : Except Error (Reply U)} {last : World U σ} {scope : Scope U}
    (runs : demand.request.run.run behaviour world = some (reply, last))
    (names : demand.scopes = [scope]) {parent : Option (Scope U)}
    {registrations : List (Registration U)}
    (built : (.build parent registrations, .ok (.built scope)) ∈ served) :
    ∃ next, Served behaviour (served ++ [(demand, reply)]) last next ∧ next.moment.history =
      (demand.trace behaviour reply world).map (Entry.mk ⟨served.length⟩) ++
        activity.moment.history := by
  refine before.next detached runs fun other named => ?_
  rw [names] at named
  obtain rfl := List.mem_singleton.mp named
  exact ⟨_, built⟩

end Served

end Activity

/-! ## An obliging client -/

/-- A client that has one name for each sort of its functions. -/
abbrev Client.obliging : Client where
  Object := Unit
  Constructor := Unit
  Transform := Unit
  Cast := Unit
  Closer := Unit
  Routine := Unit

/-- All functions succeed and do nothing else; what is decorated or converted stays as it is. -/
def Behaviour.obliging : Behaviour Client.obliging Unit := fun call world =>
  match call with
  | .construct _ _ _ => some (.ok (.object ()), world)
  | .decorate _ _ _ target _ => some (.ok target, world)
  | .convert _ _ _ content => some (content, world)
  | .close _ _ _ _ => some (none, world)
  | .enact _ _ => some (none, world)
  | .accepts _ => some (true, world)
  | .report _ => some ((), world)

theorem Behaviour.obliging_detached : Behaviour.obliging.Detached := by
  intro call world answer after runs
  refine ⟨world.state.contexts, ?_⟩
  cases call <;> cases runs <;> rfl

end Provision
