import Provision.Proofs.Closing.OpenWhenHandedOut
import Provision.Proofs.Closing.PromisedClosers
import Provision.Proofs.Resolution.RequestsTerminate

/-!
# Closing scopes

The request that shuts a scope runs all that the scope promised to close, the last first.  It goes
on whichever closers fail, and in the end reports all failures in the order in which they came.
While the closers run the scope takes no requests any more, so whatever they attempt in it is turned
away, and so is whoever wants to close it again.

Main statement: `close_runs_everything`.
-/

namespace Provision

open Moment

variable {U : Client}

/-! ## Running closers -/

/-- A closer that is run, and the failure that it ends with if it fails. -/
abbrev ClosingRun (U : Client) : Type :=
  PendingCloser U × Option UserError

/-- Runs of closers that do not fail. -/
def smoothRuns (closers : List (PendingCloser U)) : List (ClosingRun U) :=
  closers.map fun closer => (closer, none)

/-- Runs without failure are runs of the closers, in order. -/
@[simp] theorem map_fst_smoothRuns (closers : List (PendingCloser U)) :
    (smoothRuns closers).map Prod.fst = closers := by
  simp [smoothRuns, Function.comp_def]

/-- What a request does to run a closer: it calls it, and reports the failure if it fails. -/
def ClosingRun.events (scope : ScopeId) (context : ContextId) : ClosingRun U → List (Event U)
  | (closer, none) =>
      [.called (closer.call scope context),
        .returned (closer.call scope context) (none : Option UserError)]
  | (closer, some failure) =>
      [.called (closer.call scope context),
        .returned (closer.call scope context) (some failure : Option UserError),
        .called (.report (.closerFailed closer.service failure.message)),
        .returned (.report (.closerFailed closer.service failure.message)) ()]

/-- What a request does that shuts a scope and runs its closers. -/
def closingEvents (node : Scope U) (context : ContextId) (closers : List (PendingCloser U))
    (runs : List (ClosingRun U)) : List (Event U) :=
  .performed (.shut node.id) (some closers : Option (List (PendingCloser U))) ::
    .called (.report (.closingScope node.id node.depth closers.length)) ::
      .returned (.report (.closingScope node.id node.depth closers.length)) () ::
        runs.flatMap (ClosingRun.events node.id context)

/-- What comes of running closers: all failures in the order of the runs, if there are any. -/
def closingOutcome {α : Type} (value : α) (runs : List (ClosingRun U)) : Except Error α :=
  match runs.filterMap Prod.snd with
  | [] => .ok value
  | failures => .error (.closing failures)

section Runs

variable {events : List (Event U)}

/-- A program that cannot fail, so far, and then a request. -/
theorem Request.goes_bind_lift {α β : Type} {program : Program U α} {next : α → Request U β}
    {outcome : Option (Except Error β)} :
    (ExceptT.lift program >>= next).run.Goes events outcome ↔
      (outcome = none ∧ program.Goes events none) ∨
        ∃ first result rest, events = first ++ rest ∧ program.Goes first (some result) ∧
          (next result).run.Goes rest outcome := by
  have goesOn : (ExceptT.lift program >>= next).run =
      program.andThen fun result => (next result).run := Program.andThen_assoc ..
  rw [goesOn]
  exact Program.goes_andThen

namespace Scope

/-- Closers run one after another, whichever fail, and their failures are collected in order. -/
theorem goes_runClosers {scope : ScopeId} {context : ContextId} {closers : List (PendingCloser U)}
    {failures : Option (List UserError)}
    (goes : (runClosers scope context closers).Goes events failures) :
    ∃ runs : List (ClosingRun U), runs.map Prod.fst = closers ∧
      events <+: runs.flatMap (ClosingRun.events scope context) ∧
        ∀ all, failures = some all →
          events = runs.flatMap (ClosingRun.events scope context) ∧
            all = runs.filterMap Prod.snd := by
  -- runs that are yet to come may end in any way
  induction closers generalizing events failures with
  | nil =>
      obtain ⟨rfl, none⟩ := Program.goes_done goes
      exact ⟨[], rfl, List.nil_prefix, fun all isAll => ⟨rfl, none all isAll⟩⟩
  | cons closer rest ih =>
      cases goes with
      | begun => exact ⟨smoothRuns (closer :: rest), by simp, List.nil_prefix, nofun⟩
      | calling => exact ⟨smoothRuns (closer :: rest), by simp, ⟨_, rfl⟩, nofun⟩
      | @called _ _ answer events _ goes =>
      cases answer with
      | none =>
          obtain ⟨runs, same, ⟨more, begins⟩, ends⟩ := ih goes
          refine ⟨(closer, none) :: runs, by rw [List.map_cons, same], ⟨more, ?_⟩,
            fun all isAll => ?_⟩
          · rw [List.flatMap_cons, ← begins]
            rfl
          · obtain ⟨rfl, rfl⟩ := ends all isAll
            exact ⟨rfl, rfl⟩
      | some failure =>
          cases goes with
          | begun => exact ⟨(closer, some failure) :: smoothRuns rest, by simp, ⟨_, rfl⟩, nofun⟩
          | calling => exact ⟨(closer, some failure) :: smoothRuns rest, by simp, ⟨_, rfl⟩, nofun⟩
          | @called _ _ _ events _ goes =>
          have sequel : ((runClosers scope context rest).andThen fun failures =>
              .done (failure :: failures)).Goes events failures := goes
          rcases Program.goes_andThen.mp sequel with
            ⟨none, unfinished⟩ | ⟨first, _, last, rfl, finished, ends⟩
          · obtain ⟨runs, same, ⟨more, begins⟩, _⟩ := ih unfinished
            refine ⟨(closer, some failure) :: runs, by rw [List.map_cons, same], ⟨more, ?_⟩, ?_⟩
            · rw [List.flatMap_cons, ← begins]
              rfl
            · exact fun all isAll => nomatch none.symm.trans isAll
          · obtain ⟨runs, same, _, known⟩ := ih finished
            obtain ⟨rfl, rfl⟩ := known _ rfl
            obtain ⟨rfl, gathered⟩ := Program.goes_done ends
            rw [List.append_nil]
            exact ⟨(closer, some failure) :: runs, by rw [List.map_cons, same], List.prefix_refl _,
              fun all isAll => ⟨rfl, gathered all isAll⟩⟩

/-- Closing comes to the failures of its runs, if there are any. -/
theorem settles_closing (runs : List (ClosingRun U)) :
    (if (runs.filterMap Prod.snd).isEmpty then pure ()
      else Request.fail (.closing (runs.filterMap Prod.snd)) : Request U Unit).run =
        .done (closingOutcome () runs) := by
  unfold closingOutcome
  cases runs.filterMap Prod.snd <;> rfl

/-- Whoever shuts a scope runs all its closers, the last first, and tells of all failures. -/
theorem goes_close {node : Scope U} {context : ContextId} {outcome : Option (Except Error Unit)}
    (goes : (node.close context).run.Goes events outcome) :
    (∀ closers, .performed (.shut node.id) (some closers) ∉ events) ∨
      ∃ (closers : List (PendingCloser U)) (runs : List (ClosingRun U)),
        .performed (.shut node.id) (some closers) ∈ events ∧ runs.map Prod.fst = closers.reverse ∧
          events <+: closingEvents node context closers runs ∧
            ∀ result, outcome = some result →
              events = closingEvents node context closers runs ∧
                result = closingOutcome () runs := by
  cases goes with
  | begun => exact .inl nofun
  | @performed _ _ answer events _ goes =>
  cases answer with
  | none =>
      refine .inl fun closers member => ?_
      cases goes <;> cases List.mem_singleton.mp member
  | some closers =>
  refine .inr ⟨closers, ?_⟩
  cases goes with
  | begun =>
      exact ⟨smoothRuns closers.reverse, List.mem_cons_self, by simp, ⟨_, rfl⟩, nofun⟩
  | calling =>
      exact ⟨smoothRuns closers.reverse, List.mem_cons_self, by simp, ⟨_, rfl⟩, nofun⟩
  | @called _ _ _ events _ goes =>
  have sequel : (do
      let failures ← ExceptT.lift (runClosers node.id context closers.reverse)
      if failures.isEmpty then pure () else Request.fail (.closing failures) :
        Request U Unit).run.Goes events outcome := goes
  rcases Request.goes_bind_lift.mp sequel with
    ⟨none, unfinished⟩ | ⟨first, failures, last, rfl, finished, ends⟩
  · obtain ⟨runs, same, ⟨more, begins⟩, _⟩ := goes_runClosers unfinished
    refine ⟨runs, List.mem_cons_self, same, ⟨more, ?_⟩, ?_⟩
    · rw [closingEvents, ← begins]
      rfl
    · exact fun all isAll => nomatch none.symm.trans isAll
  · obtain ⟨runs, same, _, known⟩ := goes_runClosers finished
    obtain ⟨rfl, rfl⟩ := known _ rfl
    rw [settles_closing] at ends
    obtain ⟨rfl, settled⟩ := Program.goes_done ends
    rw [List.append_nil]
    exact ⟨runs, List.mem_cons_self, same, List.prefix_refl _,
      fun result isResult => ⟨rfl, settled result isResult⟩⟩

end Scope

end Runs

/-- A request, so far, whose value something is made of. -/
theorem Request.goes_map {α β : Type} {events : List (Event U)} {request : Request U α}
    {make : α → β} {outcome : Option (Except Error β)}
    (goes : (request >>= fun value => pure (make value)).run.Goes events outcome) :
    ∃ inner, request.run.Goes events inner ∧ ∀ last, outcome = some last →
      ∃ result, inner = some result ∧ last = result.map make := by
  rcases Program.goes_andThen.mp goes with
    ⟨isNone, unfinished⟩ | ⟨first, result, rest, rfl, finished, ends⟩
  · exact ⟨none, unfinished, fun last isLast => nomatch isNone.symm.trans isLast⟩
  · have maps : (Program.done (result.map make)).Goes rest outcome := by
      cases result <;> exact ends
    obtain ⟨rfl, made⟩ := Program.goes_done maps
    rw [List.append_nil]
    exact ⟨some result, finished, fun last isLast => ⟨result, rfl, made last isLast⟩⟩

/-- What a success is made into does not matter to the failures. -/
theorem closingOutcome_map {α β : Type} (make : α → β) (value : α) (runs : List (ClosingRun U)) :
    (closingOutcome value runs).map make = closingOutcome (make value) runs := by
  unfold closingOutcome
  cases runs.filterMap Prod.snd <;> rfl

/-! ## Turning requests away -/

/-- What else than a closed scope may turn a request away at once: a context that is done, or a
handle that may not be used yet. -/
inductive Event.Excuses : Event U → Error → Prop where
  | contextDone (context : ContextId) (reason : ContextError) :
      Excuses (.performed (.contextError context) (some reason)) (.contextDone reason)
  | unready (flag : FlagId) (key : Key) :
      Excuses (.performed (.isRaised flag) false) (.usedDuringConstruction key)

/-- A request is told that a scope is closed, or turned away by something that it came across. -/
def TurnedAway {α : Type} (events : List (Event U)) (outcome : Except Error α) : Prop :=
  outcome = .error .closed ∨
    ∃ event ∈ events, ∃ error, event.Excuses error ∧ outcome = .error error

/-- A request is turned away unless it finds a scope open or shuts it. -/
def Request.TurnsAway {α : Type} (request : Request U α) (scope : ScopeId) : Prop :=
  ∀ events outcome, Request.Does request events outcome →
    .performed (.isClosed scope) false ∉ events →
      (∀ closers, .performed (.shut scope) (some closers) ∉ events) → TurnedAway events outcome

section Turned

variable {α β : Type} {events more : List (Event U)} {scope : ScopeId}

theorem TurnedAway.mono {error : Error}
    (turned : TurnedAway events (.error error : Except Error α)) (subset : events ⊆ more) :
    TurnedAway more (.error error : Except Error β) := by
  rcases turned with same | ⟨event, member, _, excuses, same⟩
  · exact .inl (Except.error.inj same ▸ rfl)
  · exact .inr ⟨event, subset member, error, Except.error.inj same ▸ excuses, rfl⟩

/-- Nobody who succeeds was turned away. -/
theorem TurnedAway.not_ok {value : α} : ¬ TurnedAway events (.ok value : Except Error α) := by
  rintro (impossible | ⟨_, _, _, _, impossible⟩) <;> cases impossible

namespace Request.TurnsAway

variable {request : Request U α} {next : α → Request U β}

/-- What comes after a request that is turned away does not matter. -/
theorem bind (turnsAway : request.TurnsAway scope) : (request >>= next).TurnsAway scope := by
  intro events outcome does looked shut
  rcases Request.does_bind.mp does with ⟨error, rfl, fails⟩ | ⟨first, value, rest, rfl, goes, _⟩
  · exact (turnsAway _ _ fails looked shut).mono (List.Subset.refl _)
  · refine absurd (turnsAway _ _ goes ?_ ?_) TurnedAway.not_ok
    · exact fun member => looked (List.mem_append_left _ member)
    · exact fun closers member => shut closers (List.mem_append_left _ member)

/-- What comes before may turn the request away itself. -/
theorem after (fails : ∀ events error, Request.Does request events (.error error) →
      TurnedAway events (.error error : Except Error α))
    (turnsAway : ∀ value, (next value).TurnsAway scope) : (request >>= next).TurnsAway scope := by
  intro events outcome does looked shut
  rcases Request.does_bind.mp does with
    ⟨error, rfl, failed⟩ | ⟨first, value, rest, rfl, _, goes⟩
  · exact (fails _ _ failed).mono (List.Subset.refl _)
  · have turned := turnsAway value _ _ goes (fun member => looked (List.mem_append_right _ member))
      fun closers member => shut closers (List.mem_append_right _ member)
    cases outcome with
    | ok value => exact absurd turned TurnedAway.not_ok
    | error error => exact turned.mono (List.subset_append_right _ _)

/-- Looking whether a scope is open turns away from one that is closed. -/
theorem ensureOpen (scope : ScopeId) : (ensureOpen scope : Request U Unit).TurnsAway scope := by
  intro events outcome does looked _
  rcases does_ensureOpen.mp does with ⟨rfl, _⟩ | ⟨_, rfl⟩
  · exact absurd (List.mem_singleton_self _) looked
  · exact .inl rfl

end Request.TurnsAway

/-- A context that is not usable turns away. -/
theorem turnedAway_ensureUsable {context : ContextId} {error : Error}
    (fails : Request.Does (ensureUsable context) events (.error error)) :
    TurnedAway events (.error error : Except Error Unit) := by
  rcases does_ensureUsable.mp fails with ⟨_, impossible⟩ | ⟨reason, rfl, same⟩
  · cases impossible
  · cases same
    exact .inr ⟨_, List.mem_singleton_self _, _, .contextDone context reason, rfl⟩

/-- A handle that is not ready turns away. -/
theorem turnedAway_ensureReady {handle : Handle U} {key : Key} {error : Error}
    (fails : Request.Does (handle.ensureReady key) events (.error error)) :
    TurnedAway events (.error error : Except Error Unit) := by
  obtain ⟨ready, rest, rfl, goes⟩ := Request.does_bind_act.mp fails
  cases ready with
  | false =>
      cases (Request.does_fail.mp goes).2
      exact .inr ⟨_, List.mem_cons_self, _, .unready handle.flag key, rfl⟩
  | true =>
      obtain ⟨dropped, last, rfl, ends⟩ := Request.does_bind_act.mp goes
      cases dropped with
      | false => cases (Request.does_pure.mp ends).2
      | true =>
          cases (Request.does_fail.mp ends).2
          exact .inl rfl

end Turned

section Scopes

variable (scope : Scope U) (context : ContextId)

/-- A request for a key is turned away from a closed scope. -/
theorem turnsAway_resolve (key : Key) : (resolve scope context key).TurnsAway scope.id :=
  .after (fun _ _ => turnedAway_ensureUsable) fun _ => .bind (.ensureOpen scope.id)

/-- A typed request for a key is turned away from a closed scope. -/
theorem turnsAway_resolveTyped (key : Key) :
    (scope.resolveTyped context key).TurnsAway scope.id :=
  .bind (turnsAway_resolve scope context key)

/-- A routine is turned away from a closed scope. -/
theorem turnsAway_invocation (params : List Param) :
    (scope.invocation context params).TurnsAway scope.id :=
  .after (fun _ _ => turnedAway_ensureUsable) fun _ => .bind (.ensureOpen scope.id)

/-- Closing again is turned away from a closed scope. -/
theorem turnsAway_close : (scope.close context).TurnsAway scope.id := by
  intro events outcome does _ shut
  obtain ⟨answer, rest, rfl, goes⟩ := Request.does_bind_act.mp does
  cases answer with
  | none => exact .inl (Request.does_fail.mp goes).2
  | some closers => exact absurd List.mem_cons_self (shut closers)

/-- Building a child is turned away from a closed scope. -/
theorem turnsAway_buildScope (registrations : List (Registration U)) :
    (buildScope (some scope) registrations).TurnsAway scope.id := by
  intro events outcome does looked shut
  obtain ⟨id, reports, rest, rfl, _, builds⟩ := does_buildScope does
  have within : rest ⊆ .performed .newScope id :: (reports ++ rest) :=
    List.Subset.trans (List.subset_append_right _ _) (List.subset_cons_self _ _)
  have turnsAway : ((Builder.start id (some scope)).addAll registrations).build.TurnsAway
      scope.id := by
    have isChild : ((Builder.start id (some scope)).addAll registrations).parent = some scope := by
      rw [Builder.addAll_parent, Builder.start_parent]
    rw [Builder.build_of_child isChild]
    exact .bind (.ensureOpen scope.id)
  have turned := turnsAway _ _ builds (fun member => looked (within member))
    fun closers member => shut closers (within member)
  cases outcome with
  | ok value => exact absurd turned TurnedAway.not_ok
  | error error => exact turned.mono within

end Scopes

/-- A scope that is closed turns away all demands but to let go of it. -/
theorem Demand.turnsAway {demand : Demand U} {scope : Scope U} (names : scope ∈ demand.scopes)
    (stays : ∀ left, demand ≠ .discard left) : demand.request.TurnsAway scope.id := by
  cases demand with
  | build parent registrations =>
      obtain rfl : parent = some scope := Option.mem_toList.mp names
      exact .bind (turnsAway_buildScope scope registrations)
  | discard left => exact absurd rfl (stays left)
  | resolve asked context key =>
      obtain rfl := List.mem_singleton.mp names
      exact .bind (turnsAway_resolve scope context key)
  | resolveTyped asked context key =>
      obtain rfl := List.mem_singleton.mp names
      exact .bind (turnsAway_resolveTyped scope context key)
  | resolveThrough handle context key =>
      obtain rfl := List.mem_singleton.mp names
      exact .bind (.after (fun _ _ => turnedAway_ensureReady) fun _ =>
        turnsAway_resolve handle.scope context key)
  | resolveTypedThrough handle context key =>
      obtain rfl := List.mem_singleton.mp names
      exact .bind (.after (fun _ _ => turnedAway_ensureReady) fun _ =>
        turnsAway_resolveTyped handle.scope context key)
  | invoke asked context params routine =>
      obtain rfl := List.mem_singleton.mp names
      exact .bind (.bind (turnsAway_invocation scope context params))
  | close asked context =>
      obtain rfl := List.mem_singleton.mp names
      exact .bind (turnsAway_close scope context)

/-! ## Closing -/

namespace Moment

variable {moment : Moment U}

/-- What a request did comes after it began. -/
theorem Lawful.after_started (lawful : moment.Lawful Conduct.orderly) {id : RequestId}
    {demand : Demand U} {event : Event U} {earlier sooner : List (Entry U)}
    (began : ⟨id, .started demand⟩ :: earlier <:+ moment.history)
    (did : ⟨id, event⟩ :: sooner <:+ moment.history) (differs : event ≠ .started demand) :
    ⟨id, .started demand⟩ :: earlier <:+ sooner := by
  rcases List.suffix_or_suffix_of_suffix began did with within | within
  · rcases List.suffix_cons_iff.mp within with same | within
    · cases same
      exact absurd rfl differs
    · exact within
  · rcases List.suffix_cons_iff.mp within with same | within
    · cases same
      exact absurd rfl differs
    · obtain ⟨before, _, rfl, fresh, _⟩ := lawful.allowed_at began
      exact absurd ⟨_, within.mem List.mem_cons_self, rfl⟩ fresh

/-- What becomes of a scope that a request shut, and of its closers, each of which ends in some
way. -/
structure Drains (moment : Moment U) (id : RequestId) (node : Scope U) (context : ContextId)
    (closers : List (PendingCloser U)) (runs : List (ClosingRun U)) : Prop where
  /-- The scope had promised to close its fixed values, in the order of their registration, and then
  what constructors made for it, in the order in which it was handed over. -/
  promised : ∃ builder parent registrations,
    moment.Did builder (.started (.build parent registrations)) ∧
      moment.Did builder (.finished (.ok (.built node))) ∧
        closers = valueClosers node.id registrations ++ moment.promisedSince builder node.id ∧
          ∀ closer ∈ moment.promisedSince builder node.id, closer.recipe.isFactory = true
  /-- Each of them has one run, the last the first. -/
  reversed : runs.map Prod.fst = closers.reverse
  /-- As long as the request goes on, it did a part of these runs. -/
  sofar : (∀ reply, ¬ moment.Did id (.finished reply)) →
    moment.doings id <+: .started (.close node context) :: closingEvents node context closers runs
  /-- A request that is done did them all, and tells the failures in the order of the runs. -/
  done : ∀ reply, moment.Did id (.finished reply) →
    moment.doings id = .started (.close node context) ::
      closingEvents node context closers runs ++ [.finished reply] ∧
        reply = closingOutcome .nothing runs
  /-- Whoever else wants to close the scope is told that it is closed, and calls nothing. -/
  again : ∀ other later reply, other ≠ id → moment.Did other (.started (.close node later)) →
    moment.Did other (.finished reply) →
      reply = .error .closed ∧ ∀ call, ¬ moment.Did other (.called call)
  /-- Whatever is asked of the scope once it is shut ends, and is turned away. -/
  turnedAway : ∀ other demand earlier,
    ⟨other, .started demand⟩ :: earlier <:+ moment.history →
      ⟨id, .performed (.shut node.id) (some closers)⟩ ∈ earlier → node ∈ demand.scopes →
        (∀ left, demand ≠ .discard left) → demand.request.Terminates ∧
          ∀ reply, moment.Did other (.finished reply) → TurnedAway (moment.doings other) reply

end Moment

namespace Activity.Reachable

variable {activity : Activity U} (reachable : activity.Reachable) {id : RequestId} {node : Scope U}
  {context : ContextId} {closers : List (PendingCloser U)}

include reachable

/-- What a request did so far that shut a scope. -/
theorem closing_goes (shut : activity.moment.Did id (.performed (.shut node.id) (some closers)))
    {events : List (Event U)} {reply : Option (Except Error (Reply U))}
    (doings : activity.moment.doings id =
      .started (.close node context) :: events ++ (reply.map Event.finished).toList)
    (goes : (Demand.close node context).request.run.Goes events reply) :
    ∃ runs : List (ClosingRun U), runs.map Prod.fst = closers.reverse ∧
      events <+: closingEvents node context closers runs ∧ ∀ last, reply = some last →
        events = closingEvents node context closers runs ∧ last = closingOutcome .nothing runs := by
  have lawful := reachable.lawful kept_growing
  obtain ⟨inner, closes, makes⟩ := Request.goes_map goes
  rcases Scope.goes_close closes with none | ⟨given, runs, isShut, same, begins, ends⟩
  · refine absurd ?_ (none closers)
    rw [← mem_doings, doings] at shut
    cases reply <;> simpa using shut
  · have did : activity.moment.Did id (.performed (.shut node.id) (some given)) := by
      rw [← mem_doings, doings]
      simp [isShut]
    obtain rfl := (((lawful.closed node.id).2 id closers shut).2.2 id given did).2
    refine ⟨runs, same, begins, fun last isLast => ?_⟩
    obtain ⟨result, isResult, rfl⟩ := makes last isLast
    obtain ⟨isAll, rfl⟩ := ends result isResult
    exact ⟨isAll, closingOutcome_map ..⟩

/-- What a request did that shut a scope. -/
theorem closing_runs (began : activity.moment.Did id (.started (.close node context)))
    (shut : activity.moment.Did id (.performed (.shut node.id) (some closers))) :
    ∃ runs : List (ClosingRun U), runs.map Prod.fst = closers.reverse ∧
      ((∀ reply, ¬ activity.moment.Did id (.finished reply)) → activity.moment.doings id <+:
        .started (.close node context) :: closingEvents node context closers runs) ∧
          ∀ reply, activity.moment.Did id (.finished reply) →
            activity.moment.doings id = .started (.close node context) ::
              closingEvents node context closers runs ++ [.finished reply] ∧
                reply = closingOutcome .nothing runs := by
  have orderly := (reachable.lawful kept_growing).mono fun _ _ both => both.1
  by_cases finished : ∃ reply, activity.moment.Did id (.finished reply)
  · obtain ⟨reply, ended⟩ := finished
    obtain ⟨events, doings, does⟩ := reachable.went began ended
    obtain ⟨runs, same, _, ends⟩ :=
      reachable.closing_goes shut doings (Program.goes_some.mpr does)
    obtain ⟨rfl, isReply⟩ := ends reply rfl
    refine ⟨runs, same, fun unfinished => absurd ended (unfinished reply), fun last ended' => ?_⟩
    obtain rfl := orderly.finished_once ended ended'
    exact ⟨doings, isReply⟩
  · obtain ⟨events, reply, doings, goes⟩ := reachable.doings_of_started began
    have did {event : Event U} (member : event ∈ activity.moment.doings id) :=
      mem_doings.mp member
    rw [doings] at did
    cases reply with
    | some reply => exact absurd ⟨reply, did (by simp)⟩ finished
    | none =>
        obtain ⟨runs, same, begins, _⟩ := reachable.closing_goes shut doings goes
        refine ⟨runs, same, fun _ => ?_, fun reply ended => absurd ⟨reply, ended⟩ finished⟩
        rw [doings]
        simpa using begins

/-- What is asked of a scope once it is shut is turned away. -/
theorem turnedAway (shut : activity.moment.Did id (.performed (.shut node.id) (some closers)))
    {other : RequestId} {demand : Demand U} {earlier : List (Entry U)}
    (began : ⟨other, .started demand⟩ :: earlier <:+ activity.moment.history)
    (before : ⟨id, .performed (.shut node.id) (some closers)⟩ ∈ earlier)
    (names : node ∈ demand.scopes) (stays : ∀ left, demand ≠ .discard left)
    {reply : Except Error (Reply U)} (ended : activity.moment.Did other (.finished reply)) :
    TurnedAway (activity.moment.doings other) reply := by
  have lawful := reachable.lawful kept_growing
  have orderly := lawful.mono fun _ _ both => both.1
  obtain ⟨events, doings, does⟩ := reachable.went (began.mem List.mem_cons_self) ended
  have did {event : Event U} (member : event ∈ events) : activity.moment.Did other event := by
    rw [← mem_doings, doings]
    simp [member]
  have turned := Demand.turnsAway names stays events reply does ?_ ?_
  · cases reply with
    | ok value => exact absurd turned TurnedAway.not_ok
    | error error =>
        refine turned.mono fun event member => ?_
        rw [doings]
        simp [member]
  · intro looked
    obtain ⟨later, sooner, split⟩ := List.append_of_mem (did looked)
    have suffix : ⟨other, .performed (.isClosed node.id) false⟩ :: sooner <:+
        activity.moment.history := ⟨later, split.symm⟩
    have since := orderly.after_started began suffix nofun
    exact lawful.open_not_shut suffix id closers
      (since.mem (List.mem_cons_of_mem _ before))
  · intro more again
    obtain ⟨rfl, _⟩ := ((lawful.closed node.id).2 id closers shut).2.2 other more (did again)
    obtain ⟨_, _, rfl, fresh, _⟩ := orderly.allowed_at began
    exact fresh ⟨_, before, rfl⟩

end Activity.Reachable

/-- Whoever closes a scope either comes too late, or runs all that the scope promised to close and
tells of all failures, whatever is asked of the scope in the meantime. -/
theorem close_runs_everything {activity : Activity U} (reachable : activity.Reachable)
    {id : RequestId} {node : Scope U} {context : ContextId}
    (began : activity.moment.Did id (.started (.close node context))) :
    (Demand.close node context).request.Terminates ∧
      (∀ reply, activity.moment.Did id (.finished reply) → activity.moment.Shuts id node.id reply) ∧
        ∀ closers, activity.moment.Did id (.performed (.shut node.id) (some closers)) →
          ∃ runs, activity.moment.Drains id node context closers runs := by
  have lawful := reachable.lawful kept_growing
  have orderly := lawful.mono fun _ _ both => both.1
  have isScope := orderly.named began List.mem_cons_self
  have ends {other : RequestId} {demand : Demand U}
      (began : activity.moment.Did other (.started demand)) : demand.request.Terminates :=
    Demand.terminates fun scope names => ((orderly.named began names).grown lawful).built
  refine ⟨ends began, fun reply ended => reachable.lawful_paying.closing began ended,
    fun closers shut => ?_⟩
  obtain ⟨runs, reversed, sofar, done⟩ := reachable.closing_runs began shut
  refine ⟨runs, ⟨?_, reversed, sofar, done, ?_, ?_⟩⟩
  · obtain ⟨builder, parent, registrations, began, built, promised, made⟩ :=
      reachable.promised_in_order isScope
    rw [(lawful.promised node.id).2 id closers shut, List.reverse_reverse] at promised
    exact ⟨builder, parent, registrations, began, built, promised, made⟩
  · intro other later reply differs began' ended
    rcases reachable.lawful_paying.closing began' ended with ⟨more, shut'⟩ | ⟨closed, _, none⟩
    · exact absurd (((lawful.closed node.id).2 id closers shut).2.2 other more shut').1 differs
    · exact ⟨closed, none⟩
  · exact fun other demand earlier began' before names stays =>
      ⟨ends (began'.mem List.mem_cons_self), fun reply =>
        reachable.turnedAway shut began' before names stays⟩

/-- Closers of fixed values fail, and all else goes as with an obliging client. -/
def Behaviour.clinging : Behaviour Client.obliging Unit := fun call world =>
  match call with
  | .close site _ _ _ =>
      some (if site.recipe.isFactory then none else some (.text site.recipe.produces.text), world)
  | call => Behaviour.obliging call world

theorem Behaviour.clinging_detached : Behaviour.clinging.Detached := by
  intro call world answer after runs
  refine ⟨world.state.contexts, ?_⟩
  cases call <;> cases runs <;> rfl

namespace Drained

/-- The key of a fixed value that another one overrides. -/
def fixed : Key := .of (.concrete "sample" "A")

/-- The key of a service. -/
def made : Key := .of (.concrete "sample" "B")

/-- The offer of a fixed value that has to be closed. -/
def value : Offer Client.obliging := (Offer.value fixed.type (.object ())).closeWith ()

/-- The offer of a service that has to be closed. -/
def service : Offer Client.obliging := (Offer.factory made.type () []).closeWith ()

/-- All that is registered. -/
def registrations : List (Registration Client.obliging) :=
  [.service value, .service service, .service value]

/-- The scope that is closed. -/
def scope : Scope Client.obliging :=
  ((Builder.root ⟨1⟩).addAll registrations).scope

/-- The closer of an offer under its number. -/
def closer (offer : Offer Client.obliging) (index : Nat) : PendingCloser Client.obliging :=
  { recipe := offer.recipe (.registration ⟨1⟩ index), close := (), subject := .object () }

/-- What the scope promised in the end. -/
def closers : List (PendingCloser Client.obliging) :=
  [closer value 0, closer value 2, closer service 1]

/-- The world once the scope is built. -/
def built : World Client.obliging Unit :=
  (Demand.build none registrations).afterwards Behaviour.clinging { state := {}, memory := () }

/-- The world once the service is made. -/
def resolved : World Client.obliging Unit :=
  (Demand.resolve scope ⟨0⟩ made).afterwards Behaviour.clinging built

/-- The world once the scope is closed. -/
def closed : World Client.obliging Unit :=
  (Demand.close scope ⟨0⟩).afterwards Behaviour.clinging resolved

/-- What comes of closing the scope. -/
def failures : Error := .closing [.text fixed.type.text, .text fixed.type.text]

/-- A scope was closed while a closer clung to it. -/
theorem served : ∃ activity : Activity Client.obliging, Activity.Served Behaviour.clinging
    [(.build none registrations, .ok (.built scope)),
      (.resolve scope ⟨0⟩ made, .ok (.resolved ⟨made.type, .object ()⟩)),
      (.close scope ⟨0⟩, .error failures), (.close scope ⟨0⟩, .error .closed)]
    ((Demand.close scope ⟨0⟩).afterwards Behaviour.clinging closed) activity ∧
      activity.moment.Did ⟨2⟩ (.performed (.shut scope.id) (some closers)) := by
  have builds : (Demand.build none registrations).request.run.run Behaviour.clinging
      { state := {}, memory := () } = some (.ok (.built scope), built) := rfl
  have makes : (Demand.resolve scope ⟨0⟩ made).request.run.run Behaviour.clinging built =
      some (.ok (.resolved ⟨made.type, .object ()⟩), resolved) := rfl
  have closes : (Demand.close scope ⟨0⟩).request.run.run Behaviour.clinging resolved =
      some (.error failures, closed) := rfl
  have again : (Demand.close scope ⟨0⟩).request.run.run Behaviour.clinging closed =
      some (.error .closed, (Demand.close scope ⟨0⟩).afterwards Behaviour.clinging closed) := rfl
  have detached := Behaviour.clinging_detached
  obtain ⟨_, first, _⟩ := (Activity.Served.initial ()).next detached builds nofun
  obtain ⟨_, second, _⟩ := first.nextOn detached makes rfl List.mem_cons_self
  obtain ⟨_, third, before⟩ := second.nextOn detached closes rfl List.mem_cons_self
  obtain ⟨activity, fourth, history⟩ := third.nextOn detached again rfl List.mem_cons_self
  have shuts : .performed (.shut scope.id) (some closers) ∈
      (Demand.close scope ⟨0⟩).trace Behaviour.clinging (.error failures) resolved :=
    List.mem_of_getElem? (i := 13) rfl
  refine ⟨activity, fourth, ?_⟩
  unfold Moment.Did
  rw [history, before]
  exact List.mem_append_right _ (List.mem_append_left _ (List.mem_map_of_mem shuts))

end Drained

/-- A scope has two fixed values, one of which overrides the other, and a service that is made
between their registration and its closing.  Closing runs the closers of all three, the service's
first, and tells that those of the values failed; closing again runs nothing. -/
theorem overridden_value_closed : ∃ activity : Activity Client.obliging, activity.Reachable ∧
    activity.moment.Did ⟨2⟩ (.started (.close Drained.scope ⟨0⟩)) ∧
      activity.moment.Did ⟨2⟩ (.performed (.shut Drained.scope.id) (some Drained.closers)) ∧
        activity.moment.Did ⟨2⟩ (.finished (.error Drained.failures)) ∧
          (∃ runs, activity.moment.Drains ⟨2⟩ Drained.scope ⟨0⟩ Drained.closers runs) ∧
            ∀ call, ¬ activity.moment.Did ⟨3⟩ (.called call) := by
  obtain ⟨activity, served, shut⟩ := Drained.served
  obtain ⟨began, ended⟩ := served.did 2 rfl
  obtain ⟨began', ended'⟩ := served.did 3 rfl
  obtain ⟨_, _, drains⟩ := close_runs_everything served.reachable began
  obtain ⟨runs, drained⟩ := drains _ shut
  exact ⟨activity, served.reachable, began, shut, ended, ⟨runs, drained⟩,
    (drained.again ⟨3⟩ ⟨0⟩ _ (by decide) began' ended').2⟩

end Provision
