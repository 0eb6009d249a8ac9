import Provision.Proofs.Resolution.CalmWorlds
import Provision.Proofs.Resolution.RequestReach
import Provision.Proofs.Handles.RaisedFlags
import Provision.Proofs.Handles.ScopesInUse

/-!
# What handles are good for

Nothing can be resolved through a handle before the function that it was passed to has returned,
however the function uses it and whatever other requests do: a request through it looks at its flag
and fails.  From the return on it can be used for good, whether or not the function succeeded, and
resolves as its scope does, as long as the scope is there, which it is while a function that was
passed the handle goes on and clients own their scopes.  Routines get handles that can be used from
the start.

Main statement: `handles_guarded`.
-/

namespace Provision

open Moment

variable {U : Client}

/-! ## Requests through a handle -/

/-- A demand for a key that is made through a handle, and the demand of the scope behind the handle
that it stands for. -/
inductive Demand.Through (handle : Handle U) (key : Key) : Demand U → Demand U → Prop where
  | resolve (context : ContextId) :
      Through handle key (.resolveThrough handle context key) (.resolve handle.scope context key)
  | resolveTyped (context : ContextId) :
      Through handle key (.resolveTypedThrough handle context key)
        (.resolveTyped handle.scope context key)

section Requests

variable {handle : Handle U} {key : Key} {demand direct : Demand U} {events : List (Event U)}

/-- A request through a handle looks at it before it does what it stands for. -/
theorem Demand.Through.request_eq (through : Demand.Through handle key demand direct) :
    demand.request = handle.ensureReady key >>= fun _ => direct.request := by
  cases through <;> exact bind_assoc ..

/-- The request looks at the flag first, and fails if it is not raised. -/
theorem Demand.Through.goes {reply : Option (Except Error (Reply U))}
    (through : Demand.Through handle key demand direct)
    (goes : demand.request.run.Goes events reply)
    (unready : .performed (.isRaised handle.flag) true ∉ events) :
    events ++ (reply.map Event.finished).toList <+: [.performed (.isRaised handle.flag) false,
      .finished (.error (.usedDuringConstruction key))] := by
  rw [through.request_eq] at goes
  cases goes with
  | begun => exact List.nil_prefix
  | @performed _ _ ready rest _ goes =>
      cases ready with
      | true => exact absurd List.mem_cons_self unready
      | false =>
          cases goes with
          | begun => exact ⟨[_], rfl⟩
          | done => exact ⟨[], rfl⟩

/-- If the flag is raised, the request looks whether the scope is there, and goes on as the scope
does. -/
theorem Demand.Through.does {reply : Except Error (Reply U)}
    (through : Demand.Through handle key demand direct) (does : demand.request.Does events reply) :
    .performed (.isRaised handle.flag) false ∈ events ∨
      (events = [.performed (.isRaised handle.flag) true,
          .performed (.isDropped handle.scope.id) true] ∧ reply = .error .closed) ∨
        ∃ rest, events = .performed (.isRaised handle.flag) true ::
            .performed (.isDropped handle.scope.id) false :: rest ∧
          direct.request.Does rest reply := by
  rw [through.request_eq] at does
  cases does with
  | @performed _ _ ready rest _ does =>
      cases ready with
      | false => exact .inl List.mem_cons_self
      | true =>
          cases does with
          | @performed _ _ dropped rest _ does =>
              cases dropped with
              | true =>
                  cases does with
                  | done => exact .inr (.inl ⟨rfl, rfl⟩)
              | false => exact .inr (.inr ⟨rest, rfl, does⟩)

/-- A request that calls a function of the client found the scope behind its handle there. -/
theorem Demand.Through.found {reply : Option (Except Error (Reply U))} {call : Call U}
    (through : Demand.Through handle key demand direct)
    (goes : demand.request.run.Goes events reply) (called : .called call ∈ events) :
    .performed (.isDropped handle.scope.id) false ∈ events := by
  rw [through.request_eq] at goes
  cases goes with
  | begun => cases called
  | @performed _ _ ready rest _ goes =>
      cases ready with
      | false => cases goes <;> simp at called
      | true =>
          cases goes with
          | begun => simp at called
          | @performed _ _ dropped rest _ goes =>
              cases dropped with
              | true => cases goes <;> simp at called
              | false => exact List.mem_cons_of_mem _ List.mem_cons_self

/-- A demand that is made through a handle asks for a key of its scope. -/
theorem Demand.through_of_handle (isHandle : demand.handle? = some handle) :
    ∃ key direct, Demand.Through handle key demand direct := by
  cases demand with
  | resolveThrough other context key =>
      cases isHandle
      exact ⟨_, _, .resolve context⟩
  | resolveTypedThrough other context key =>
      cases isHandle
      exact ⟨_, _, .resolveTyped context⟩
  | _ => cases isHandle

variable {σ : Type} {behaviour : Behaviour U σ} {world : World U σ}

/-- Alone, a request through a handle whose flag is not raised fails and leaves all as it was. -/
theorem Demand.Through.alone_unready (through : Demand.Through handle key demand direct)
    (unready : world.state.isRaised handle.flag = false) :
    demand.request.alone behaviour world =
      some (.error (.usedDuringConstruction key), world) := by
  have performs : (Operation.isRaised handle.flag).perform world.state =
      some (false, world.state) := by
    rw [Operation.perform, unready]
    rfl
  rw [through.request_eq]
  exact Request.alone_bind_error (Request.alone_bind_act performs)

/-- Alone, a request through a handle whose flag is raised comes to what the scope comes to, if that
is there. -/
theorem Demand.Through.alone_ready (through : Demand.Through handle key demand direct)
    (ready : world.state.isRaised handle.flag = true) :
    demand.request.alone behaviour world =
      if (world.state.scope handle.scope.id).dropped = true then some (.error .closed, world)
      else direct.request.alone behaviour world := by
  have performs : (Operation.isRaised handle.flag).perform world.state =
      some (true, world.state) := by
    rw [Operation.perform, ready]
    rfl
  have looks : (Operation.isDropped handle.scope.id).perform world.state =
      some ((world.state.scope handle.scope.id).dropped, world.state) := rfl
  rw [through.request_eq]
  cases dropped : (world.state.scope handle.scope.id).dropped with
  | true =>
      rw [dropped] at looks
      exact Request.alone_bind_error
        ((Request.alone_bind_act performs).trans (Request.alone_bind_act looks))
  | false =>
      rw [dropped] at looks
      exact Request.alone_bind_ok
        ((Request.alone_bind_act performs).trans (Request.alone_bind_act looks))

/-- Alone, asking a handle whether a key is registered says so if the scope is there. -/
theorem Handle.run_contains (handle : Handle U) (key : Key) :
    (handle.contains key).run behaviour world =
      some (!(world.state.scope handle.scope.id).dropped && handle.scope.contains key, world) :=
  rfl

end Requests

/-! ## Flags over time -/

namespace Activity

variable {activity next : Activity U} {flag : FlagId} {id : RequestId}

/-- What a request did after a step it did before, or it did it in this step. -/
theorem Step.did {event : Event U} (step : Step activity next)
    (did : next.moment.Did id event) :
    activity.moment.Did id event ∨ activity.moment.Records ⟨id, event⟩ next.moment := by
  rcases step.moves with ⟨⟨other, happened⟩, recorded⟩ | ⟨contexts, same⟩
  · rcases recorded.did_iff.mp did with ⟨rfl, rfl⟩ | before
    · exact .inr recorded
    · exact .inl before
  · rw [same] at did
    exact .inl did

/-- A flag that is raised stays so by every step. -/
theorem Step.isRaised (step : Step activity next)
    (raised : activity.moment.state.isRaised flag = true) :
    next.moment.state.isRaised flag = true := by
  rcases step.moves with ⟨⟨other, event⟩, recorded⟩ | ⟨contexts, same⟩
  · cases event with
    | performed operation answer => exact (Operation.flagging recorded.state).isRaised raised
    | _ => exact recorded.state ▸ raised
  · rw [same]
    exact raised

/-- A flag that is raised stays so by any steps. -/
theorem Steps.isRaised (steps : Steps activity next)
    (raised : activity.moment.state.isRaised flag = true) :
    next.moment.state.isRaised flag = true := by
  induction steps with
  | refl => exact raised
  | step _ step ih => exact step.isRaised ih

/-- Whoever looks at a flag is told whether it is raised then. -/
theorem isRaised_of_records {raised : Bool} {moment after : Moment U}
    (recorded : moment.Records ⟨id, .performed (.isRaised flag) raised⟩ after) :
    moment.state.isRaised flag = raised := by
  have performs : (Operation.isRaised flag).perform moment.state =
      some (raised, after.state) := recorded.state
  exact (Prod.mk.inj (Option.some.inj performs)).1

/-- A flag that somebody saw raised is raised. -/
theorem Reachable.isRaised_of_did (reachable : activity.Reachable)
    (did : activity.moment.Did id (.performed (.isRaised flag) true)) :
    activity.moment.state.isRaised flag = true := by
  induction reachable with
  | initial => cases did
  | step _ step ih =>
      rcases step.did did with before | now
      · exact step.isRaised (ih before)
      · exact step.isRaised (isRaised_of_records now)

/-- From when it is raised on, nobody sees a flag that is not. -/
theorem Steps.not_did_unraised (steps : Steps activity next)
    (raised : activity.moment.state.isRaised flag = true)
    (unseen : ¬ activity.moment.Did id (.performed (.isRaised flag) false)) :
    ¬ next.moment.Did id (.performed (.isRaised flag) false) := by
  induction steps with
  | refl => exact unseen
  | step before step ih =>
      intro did
      rcases step.did did with earlier | now
      · exact ih earlier
      · cases (isRaised_of_records now).symm.trans (before.isRaised raised)

/-! ## Handles that can be used, and handles that cannot -/

/-- Nothing can be resolved through a handle. -/
structure Denies (activity : Activity U) (handle : Handle U) : Prop where
  unready : activity.moment.state.isRaised handle.flag = false
  /-- Whoever tries alone fails and leaves all as it was, whatever the client does. -/
  alone : ∀ {σ : Type} (behaviour : Behaviour U σ) (memory : σ) key demand direct,
    Demand.Through handle key demand direct →
      demand.request.alone behaviour ⟨activity.moment.state, memory⟩ =
        some (.error (.usedDuringConstruction key), ⟨activity.moment.state, memory⟩)
  /-- Whoever tried so far among others looked at the flag and failed, if it came to that, and did
  nothing else. -/
  tried : ∀ id key demand direct, Demand.Through handle key demand direct →
    activity.moment.Did id (.started demand) →
      activity.moment.doings id <+: [.started demand, .performed (.isRaised handle.flag) false,
        .finished (.error (.usedDuringConstruction key))]
  /-- Whether something is registered can be asked all the same, as long as the scope is there. -/
  contains : ∀ {σ : Type} (behaviour : Behaviour U σ) (memory : σ) key,
    (handle.contains key).run behaviour ⟨activity.moment.state, memory⟩ =
      some (!(activity.moment.state.scope handle.scope.id).dropped && handle.scope.contains key,
        ⟨activity.moment.state, memory⟩)

/-- A handle can be used for good. -/
structure Serves (activity : Activity U) (handle : Handle U) : Prop where
  ready : ∀ {later}, Steps activity later → later.moment.state.isRaised handle.flag = true
  /-- Whoever resolves through it alone gets what the scope comes to, or is told that it is gone. -/
  alone : ∀ {later}, Steps activity later → ∀ {σ : Type} (behaviour : Behaviour U σ) (memory : σ)
    key demand direct, Demand.Through handle key demand direct →
      demand.request.alone behaviour ⟨later.moment.state, memory⟩ =
        if (later.moment.state.scope handle.scope.id).dropped = true then
          some (.error .closed, ⟨later.moment.state, memory⟩)
        else direct.request.alone behaviour ⟨later.moment.state, memory⟩
  /-- So does whoever resolves through it among others and was not refused before: after a look at
  the flag and at the scope it goes on as a request of the scope. -/
  resolves : ∀ {later}, Steps activity later → ∀ id key demand direct reply,
    Demand.Through handle key demand direct → later.moment.Did id (.started demand) →
      later.moment.Did id (.finished reply) →
        ¬ activity.moment.Did id (.performed (.isRaised handle.flag) false) →
          (later.moment.doings id = [.started demand, .performed (.isRaised handle.flag) true,
              .performed (.isDropped handle.scope.id) true, .finished reply] ∧
            reply = .error .closed) ∨
          ∃ rest, later.moment.doings id = .started demand ::
              .performed (.isRaised handle.flag) true ::
                .performed (.isDropped handle.scope.id) false :: rest ++ [.finished reply] ∧
            direct.request.Does rest reply

variable {handle : Handle U}

/-- Nothing can be resolved through a handle whose flag is not raised. -/
theorem Reachable.denies (reachable : activity.Reachable)
    (unready : activity.moment.state.isRaised handle.flag = false) : activity.Denies handle where
  unready := unready
  alone := fun _ _ _ _ _ through => through.alone_unready unready
  tried := by
    intro other key demand direct through began
    obtain ⟨events, reply, doings, goes⟩ := reachable.doings_of_started began
    have unseen : .performed (.isRaised handle.flag) true ∉ events := by
      intro member
      have did : activity.moment.Did other (.performed (.isRaised handle.flag) true) := by
        rw [← mem_doings, doings]
        exact List.mem_cons_of_mem _ (List.mem_append_left _ member)
      cases unready.symm.trans (reachable.isRaised_of_did did)
    rw [doings, List.cons_append]
    exact List.cons_prefix_cons.mpr ⟨rfl, through.goes goes unseen⟩
  contains := fun _ _ key => handle.run_contains key

/-- A handle whose flag is raised can be used for good. -/
theorem Reachable.serves (reachable : activity.Reachable)
    (ready : activity.moment.state.isRaised handle.flag = true) : activity.Serves handle where
  ready := fun steps => steps.isRaised ready
  alone := fun steps _ _ _ _ _ _ through => through.alone_ready (steps.isRaised ready)
  resolves := by
    intro later steps other key demand direct reply through began ended unseen
    obtain ⟨events, doings, does⟩ := (reachable.steps steps).went began ended
    have did {event : Event U} (member : event ∈ .started demand :: events) :
        later.moment.Did other event := by
      rw [← mem_doings, doings]
      exact List.mem_append_left _ member
    rcases through.does does with refused | ⟨rfl, gone⟩ | ⟨rest, rfl, goesOn⟩
    · exact absurd (did (List.mem_cons_of_mem _ refused)) (steps.not_did_unraised ready unseen)
    · exact .inl ⟨doings, gone⟩
    · exact .inr ⟨rest, doings, goesOn⟩

/-- A request that is about to raise a flag raises it as soon as it goes on. -/
theorem Step.raises {event : Event U} {task : Task U} (step : Step activity next)
    (found : activity.tasks id = some task) (raises : task.Raises flag)
    (knows : activity.moment.Knows id)
    (recorded : activity.moment.Records ⟨id, event⟩ next.moment) :
    next.moment.state.isRaised flag = true := by
  have isId {other : RequestId} {happened : Event U} {after : Moment U}
      (records : activity.moment.Records ⟨other, happened⟩ after)
      (same : after.history = next.moment.history) : other = id := by
    rw [records.history, recorded.history, List.cons.injEq, Entry.mk.injEq] at same
    exact same.1.1
  cases step with
  | start fresh _ records =>
      obtain rfl := isId records rfl
      exact absurd knows fresh
  | perform found' records =>
      obtain rfl := isId records rfl
      obtain rfl := Option.some.inj (found.symm.trans found')
      obtain ⟨rest, same⟩ := raises
      cases same
      exact (Operation.flagging records.state).raised
  | call found' records =>
      obtain rfl := isId records rfl
      obtain rfl := Option.some.inj (found.symm.trans found')
      obtain ⟨rest, impossible⟩ := raises
      cases impossible
  | resume found' records =>
      obtain rfl := isId records rfl
      obtain rfl := Option.some.inj (found.symm.trans found')
      exact raises.elim
  | finish found' records =>
      obtain rfl := isId records rfl
      obtain rfl := Option.some.inj (found.symm.trans found')
      obtain ⟨rest, impossible⟩ := raises
      cases impossible
  | contexts contexts => exact absurd recorded.history (List.cons_ne_self _ _).symm

/-- What there is to say of a handle that a function of the client was passed. -/
structure Shields (activity : Activity U) (id : RequestId) (call : Call U) (handle : Handle U) :
    Prop where
  /-- Before a function that makes something has returned, its handle cannot be used. -/
  before : call.site?.isSome = true → (∀ answer, ¬ activity.moment.Did id (.returned call answer)) →
    activity.Denies handle
  /-- If clients own their scopes, whether something is registered can be asked through it all the
  while, as its scope has it. -/
  contains : call.site?.isSome = true →
    (∀ answer, ¬ activity.moment.Did id (.returned call answer)) →
      activity.moment.Lawful Conduct.owning →
        ∀ {σ : Type} (behaviour : Behaviour U σ) (memory : σ) key,
          (handle.contains key).run behaviour ⟨activity.moment.state, memory⟩ =
            some (handle.scope.contains key, ⟨activity.moment.state, memory⟩)
  /-- When it has returned, whatever it returned, its handle can be used, and if not yet, then the
  next thing that the request does is to see to that. -/
  after : ∀ answer, call.site?.isSome = true → activity.moment.Did id (.returned call answer) →
    activity.Serves handle ∨
      ∃ task, activity.tasks id = some task ∧ task.Raises handle.flag ∧
        ∀ {next}, Step activity next →
          (∃ event, activity.moment.Records ⟨id, event⟩ next.moment) → next.Serves handle
  /-- A routine can use its handle from the start. -/
  invoked : call.site? = none → activity.Serves handle
  /-- The handle of a function that makes something is a handle to the scope that this is made in,
  which is the scope that the request was made in or an ancestor. -/
  denotes : ∀ site, call.site? = some site → activity.moment.Houses site handle.scope ∧
    ∃ demand, activity.moment.Did id (.started demand) ∧ demand.Reaches handle.scope
  /-- The handle of a routine is a handle to the scope in which it is invoked. -/
  asked : call.site? = none → ∃ context params routine,
    activity.moment.Did id (.started (.invoke handle.scope context params routine))

/-- What is made is made in the scope behind the handles that are passed for it. -/
theorem Reachable.houses (reachable : activity.Reachable) {call : Call U} {site : Site U}
    (called : activity.moment.Did id (.called call)) (makes : call.site? = some site)
    {demand : Demand U} (began : activity.moment.Did id (.started demand))
    (reaches : demand.Reaches handle.scope) (isHome : handle.scope.id = site.scope) :
    activity.moment.Houses site handle.scope := by
  have lawful := reachable.keeping
  have grow : activity.moment.Lawful (Conduct.orderly.and Conduct.growing) :=
    lawful.mono fun _ _ allowed => ⟨allowed.1, allowed.2.1⟩
  have housed : ∃ home, activity.moment.Houses site home := by
    cases call with
    | construct =>
        cases makes
        obtain ⟨_, home, houses, _⟩ := lawful.madeOnce.supplied _ _ _ _ called
        exact ⟨home, houses⟩
    | decorate =>
        cases makes
        obtain ⟨home, houses, _⟩ := lawful.madeOnce.adorned _ _ _ _ _ _ called
        exact ⟨home, houses⟩
    | _ => cases makes
  obtain ⟨home, houses⟩ := housed
  obtain ⟨named, names, above⟩ := reaches
  have isNamed := (grow.mono fun _ _ allowed => allowed.1).named began names
  have isScope := isNamed.ancestor grow
    (above.ancestor?_eq (isNamed.grown grow).built.sound.distinct)
  obtain rfl := isScope.eq_of_id grow houses.isScope (isHome.trans houses.id.symm)
  exact houses

/-- A function that makes something and goes on is called for a request that uses the scope behind
its handles. -/
theorem Reachable.uses (reachable : activity.Reachable) {call : Call U} {demand : Demand U}
    {task : Task U} (underway : activity.tasks id = some task)
    (called : activity.moment.Did id (.called call)) (makes : call.site?.isSome = true)
    (began : activity.moment.Did id (.started demand)) (reaches : demand.Reaches handle.scope) :
    activity.moment.Uses id demand handle.scope := by
  obtain ⟨events, reply, doings, goes⟩ := reachable.doings_of_started began
  have did {event : Event U} (member : event ∈ events) : activity.moment.Did id event := by
    rw [← mem_doings, doings]
    exact List.mem_append_left _ (List.mem_cons_of_mem _ member)
  have unfinished := ((reachable.sound kept_growing).underway id task underway).2
  have isReply : reply = none := by
    cases reply with
    | none => rfl
    | some reply =>
        refine absurd ?_ (unfinished reply)
        rw [← mem_doings, doings]
        exact List.mem_append_right _ List.mem_cons_self
  have calls : .called call ∈ events := by
    rw [← mem_doings, doings, isReply] at called
    simpa using called
  refine ⟨began, unfinished, ?_, reaches, fun through isHandle => ?_⟩
  · -- Letting go of a scope runs no function that makes something.
    rintro gone rfl
    have other : ¬ (Demand.discard gone).Resolves := not_false
    have tending := (Demand.only_tending other).goes goes _ calls
    cases call <;> first | exact tending | cases makes
  · obtain ⟨key, direct, isThrough⟩ := Demand.through_of_handle isHandle
    exact did (isThrough.found goes calls)

end Activity

/-- However requests act in between each other: a handle cannot be used before the constructor or
the decorator that it was passed to has returned, can be used for good from then on, or from the
start if it was passed to a routine, and is a handle to the scope that the call was made for. -/
theorem handles_guarded {activity : Activity U} (reachable : activity.Reachable) {id : RequestId}
    {call : Call U} {handle : Handle U} (called : activity.moment.Did id (.called call))
    (passed : handle ∈ call.handles) : activity.Shields id call handle := by
  obtain ⟨flags, flagged⟩ := reachable.flagged
  have isPassed := flagged.passed id call called handle passed
  refine ⟨fun makes unreturned => ?_, fun makes unreturned owning _ behaviour memory key => ?_,
    fun answer makes returned => ?_, fun routine => ?_, fun site makes => ?_, fun routine => ?_⟩
  · rcases flagged.called id call called with ⟨next, waits⟩ | ⟨answer, returned⟩
    · obtain ⟨demand, _, passes, _⟩ := flagged.tasks id _ waits
      obtain ⟨site, isSite⟩ := Option.isSome_iff_exists.mp makes
      have may := passes handle passed
      rw [isSite] at may
      exact reachable.denies ((flagged.known.agree id) _ _ may.2.2).2
    · exact absurd returned (unreturned answer)
  · obtain ⟨next, waits⟩ := (flagged.called id call called).resolve_right fun returned =>
      returned.elim unreturned
    obtain ⟨site, isSite⟩ := Option.isSome_iff_exists.mp makes
    rw [isSite] at isPassed
    obtain ⟨_, demand, began, reaches⟩ := isPassed
    have grow := (reachable.keeping).mono fun _ _ allowed =>
      (⟨allowed.1, allowed.2.1⟩ : (Conduct.orderly.and Conduct.growing) _ _)
    have kept := grow.kept_in_use owning (reachable.uses waits called makes began reaches)
    rw [handle.run_contains key, kept]
    rfl
  · rcases flagged.returned id call answer returned makes handle passed with
      raised | ⟨task, found, raises⟩
    · exact .inl (reachable.serves raised)
    · refine .inr ⟨task, found, raises, ?_⟩
      rintro next step ⟨event, recorded⟩
      exact (reachable.step step).serves (step.raises found raises ⟨_, called, rfl⟩ recorded)
  · rw [routine] at isPassed
    exact reachable.serves isPassed.2
  · rw [makes] at isPassed
    obtain ⟨isHome, demand, began, reaches⟩ := isPassed
    exact ⟨reachable.houses called makes began reaches isHome, demand, began, reaches⟩
  · rw [routine] at isPassed
    exact isPassed.1

namespace Lent

/-- The key of a service that keeps a handle to its scope. -/
def key : Key := .of (.concrete "sample" "A")

/-- The offer of the service. -/
def offer : Offer Client.obliging :=
  .factory key.type () [.scope]

/-- The scope that makes it. -/
def scope : Scope Client.obliging :=
  ((Builder.root ⟨1⟩).addAll [.service offer]).scope

/-- The world once the scope is built. -/
def built : World Client.obliging Unit :=
  (Demand.build none [.service offer]).afterwards Behaviour.obliging { state := {}, memory := () }

/-- What the service is. -/
def value : Value Client.obliging :=
  { type := key.type, content := .object () }

/-- The handle that the constructor is passed. -/
def handle : Handle Client.obliging :=
  { scope, flag := ⟨0⟩ }

/-- The call of the constructor. -/
def call : Call Client.obliging :=
  .construct ⟨⟨1⟩, offer.recipe (.registration ⟨1⟩ 0)⟩ () [.scope handle]

/-- A constructor was passed a handle and returned. -/
theorem served : ∃ activity : Activity Client.obliging, activity.Reachable ∧
    activity.moment.Did ⟨1⟩ (.called call) ∧
      activity.moment.Did ⟨1⟩ (.returned call (.ok (.object ()))) ∧
        activity.moment.Lawful Conduct.owning := by
  have builds : (Demand.build none [.service offer]).request.run.run Behaviour.obliging
      { state := {}, memory := () } = some (.ok (.built scope), built) := rfl
  have resolves : (Demand.resolve scope ⟨0⟩ key).request.run.run Behaviour.obliging built =
      some (.ok (.resolved value),
        (Demand.resolve scope ⟨0⟩ key).afterwards Behaviour.obliging built) := rfl
  have detached := Behaviour.obliging_detached
  obtain ⟨_, one, _⟩ := (Activity.Served.initial ()).next detached builds nofun
  obtain ⟨activity, two, history⟩ := one.nextOn detached resolves rfl List.mem_cons_self
  have did {event : Event Client.obliging} (index : Nat)
      (found : ((Demand.resolve scope ⟨0⟩ key).trace Behaviour.obliging (.ok (.resolved value))
        built)[index]? = some event) : activity.moment.Did ⟨1⟩ event := by
    rw [Moment.Did, history]
    exact List.mem_append_left _ (List.mem_map_of_mem (List.mem_of_getElem? found))
  exact ⟨activity, two.reachable, did 7 rfl, did 6 rfl, two.owning (by simp)⟩

end Lent

/-- A constructor was passed a handle, and returned, and nobody let go of a scope. -/
theorem lent_handle_guarded : ∃ activity : Activity Client.obliging, activity.Reachable ∧
    activity.moment.Did ⟨1⟩ (.called Lent.call) ∧ Lent.handle ∈ Lent.call.handles ∧
      activity.moment.Did ⟨1⟩ (.returned Lent.call (.ok (.object ()))) ∧
        activity.moment.Lawful Conduct.owning ∧
          activity.Shields ⟨1⟩ Lent.call Lent.handle := by
  obtain ⟨activity, reachable, called, returned, owning⟩ := Lent.served
  have passed : Lent.handle ∈ Lent.call.handles := List.mem_cons_self
  exact ⟨activity, reachable, called, passed, returned, owning,
    handles_guarded reachable called passed⟩

end Provision
