import Provision.Proofs.Closing.OwedClosers
import Provision.Proofs.Registries.TreeGrowth

/-!
# Requests pay what they owe

While a value is made the request that makes it owes nothing, except between the moment when a
closed scope refuses the closer of the value and the call that runs it.  A request to close a scope
owes what the scope gave up.  A scope that is being built refuses nothing, as nobody can close it
yet.

Main statement: `kept_paying`, that all requests keep to the conduct.
-/

namespace Provision

open Moment

variable {U : Client}

/-- Events of resolution bill nobody. -/
theorem Event.Serving.not_bills {event : Event U} (serving : event.Serving) : ¬ event.Bills := by
  cases event with
  | performed operation answer => cases operation <;> first | exact id | exact serving.elim
  | called call => cases call <;> first | exact id | exact serving.elim
  | returned call answer => exact id
  | started demand => exact id
  | finished reply => exact id

section Requests

variable {rely : Conduct U} {id : RequestId} {start moment : Moment U}

/-- A request owes nothing and was not refused. -/
def Moment.Clear (moment : Moment U) (id : RequestId) : Prop :=
  moment.owedBy id = [] ∧ ¬ moment.Refused id

/-- A request owes nothing, and if it was refused, it fails because a scope is closed. -/
def Moment.Cleared (moment : Moment U) (id : RequestId) (error : Error) : Prop :=
  moment.owedBy id = [] ∧ (moment.Refused id → error.root = .closed)

/-- Whoever owes nothing owes nothing after an error either. -/
theorem Moment.Clear.cleared (clear : moment.Clear id) (error : Error) :
    moment.Cleared id error :=
  ⟨clear.1, fun refused => absurd refused clear.2⟩

/-- Whoever owes nothing goes on owing nothing as long as nobody is billed. -/
theorem stable_clear : Stable rely id (fun event => ¬ event.Bills) (Moment.Clear · id) := by
  intro moment next passage clear
  obtain ⟨owed, refused⟩ := passage.owedBy
  exact ⟨owed.trans clear.1, fun now => clear.2 (refused now)⟩

/-- So it is after an error. -/
theorem stable_cleared (error : Error) :
    Stable rely id (fun event => ¬ event.Bills) (Moment.Cleared · id error) := by
  intro moment next passage cleared
  obtain ⟨owed, refused⟩ := passage.owedBy
  exact ⟨owed.trans cleared.1, fun now => cleared.2 (refused now)⟩

/-- A request that owes nothing may serve. -/
theorem paying_of_serving {event : Event U} (serving : event.Serving)
    (paid : moment.owedBy id = []) : Conduct.paying moment ⟨id, event⟩ := by
  cases event with
  | performed operation answer => exact paid
  | called call =>
      refine ⟨fun scope closer runs => ?_, fun _ => .inl paid⟩
      cases call with
      | close _ _ _ _ => exact serving.elim
      | construct _ _ _ => cases runs
      | decorate _ _ _ _ _ => cases runs
      | convert _ _ _ _ => cases runs
      | enact _ _ => cases runs
      | accepts _ => cases runs
      | report _ => cases runs
  | returned call answer => trivial
  | started demand => trivial
  | finished reply => exact serving.elim

/-- Requests that run no closers and hand none over. -/
theorem keeps_serving {α : Type} {yields : Except Error α → Prop} {request : Request U α}
    (only : Request.Only Event.Serving yields request) (clear : start.Clear id) :
    Request.Keeps rely Conduct.paying id (fun outcome moment => yields outcome ∧ moment.Clear id)
      request start := by
  refine Program.Only.upholds only ?_ ?_ clear
  · exact fun passage clear => stable_clear (passage.mono fun _ => Event.Serving.not_bills) clear
  · exact fun moment event clear serving => paying_of_serving serving clear.1

/-- How a request ends that may hand a closer to a scope. -/
abbrev ClearEnd (id : RequestId) {α : Type} : Except Error α → Moment U → Prop :=
  Ends (fun _ moment => moment.Clear id) fun error moment => moment.Cleared id error

/-- Whoever owes nothing ends well with any outcome. -/
theorem Moment.Clear.ends {α : Type} (clear : moment.Clear id) (outcome : Except Error α) :
    ClearEnd id outcome moment := by
  cases outcome with
  | ok value => exact clear
  | error error => exact clear.cleared error

/-- A request that only serves ends owing nothing. -/
theorem keeps_serving_end {α : Type} {yields : Except Error α → Prop} {request : Request U α}
    (only : Request.Only Event.Serving yields request) (clear : start.Clear id) :
    Request.Keeps rely Conduct.paying id (ClearEnd id) request start :=
  (keeps_serving only clear).mono fun outcome _ _ reached => reached.2.ends outcome

/-- To have ended well lasts as long as nobody is billed. -/
theorem stable_clearEnd {α : Type} (outcome : Except Error α) :
    Stable rely id (fun event => ¬ event.Bills) (ClearEnd id outcome) := by
  cases outcome with
  | ok value => exact stable_clear
  | error error => exact stable_cleared error

/-- A request that ended well owes nothing. -/
theorem ClearEnd.paid {α : Type} {outcome : Except Error α}
    (ends : ClearEnd id outcome moment) : moment.owedBy id = [] := by
  cases outcome with
  | ok value => exact ends.1
  | error error => exact ends.1

/-- Calling the closer that is owed first pays it. -/
theorem Moment.Records.owedBy_called {next : Moment U} {call : Call U} {debt : Debt U}
    {rest : List (Debt U)} (recorded : moment.Records ⟨id, .called call⟩ next)
    {scope : ScopeId} {closer : PendingCloser U} (runs : call.closer? = some (scope, closer))
    (owed : moment.owedBy id = debt :: rest) : next.owedBy id = rest := by
  unfold Moment.owedBy
  rw [recorded.debts]
  cases call with
  | close site close subject context => exact (eraseP_of_filter owed).2.1
  | construct _ _ _ => cases runs
  | decorate _ _ _ _ _ => cases runs
  | convert _ _ _ _ => cases runs
  | enact _ _ => cases runs
  | accepts _ => cases runs
  | report _ => cases runs

/-- A call that runs the closer that a request has to run next. -/
theorem keeps_pay {α : Type} {post : α → Moment U → Prop} {scope : ScopeId}
    {closer : PendingCloser U} (context : ContextId) {rest : List (Debt U)}
    {next : Option UserError → Program U α}
    (owed : start.owedBy id = ⟨id, scope, closer⟩ :: rest)
    (goesOn : ∀ answer moment, moment.owedBy id = rest →
      (moment.Refused id → start.Refused id) →
        (next answer).Keeps rely Conduct.paying id post moment) :
    (Program.ask (closer.call scope context) next).Keeps rely Conduct.paying id post start := by
  intro moment passage _
  refine ⟨⟨?_, nofun⟩, ?_⟩
  · intro other _ runs
    cases runs
    exact ⟨rest, passage.ofInterference.owedBy.1.trans owed⟩
  intro begun began later passage' _ answer after returned
  have before := (passage.ofInterference : Passage rely id (fun event => ¬ event.Bills) _ _).owedBy
  have between := (passage'.ofInterference.trans (.own (.refl _) returned fun bills => bills) :
    Passage rely id (fun event => ¬ event.Bills) _ _).owedBy
  refine ⟨trivial, goesOn answer after ?_ ?_⟩
  · exact between.1.trans (began.owedBy_called (closer.closer?_call scope context)
      (before.1.trans owed))
  · intro refused
    obtain ⟨scope, closer, did⟩ := between.2 refused
    exact before.2 ⟨scope, closer, began.before did nofun⟩

/-- Attaching a closer pays at once for a closer that comes too late. -/
theorem keeps_attachCloser (scope : ScopeId) (context : ContextId) (recipe : Recipe U)
    (subject : Value U) (clear : start.Clear id) :
    Request.Keeps rely Conduct.paying id (ClearEnd id)
      (attachCloser scope context recipe subject) start := by
  unfold attachCloser
  cases recipe.closerFor? subject with
  | none => exact Request.keeps_pure fun moment passage _ => stable_clear passage.ofInterference clear
  | some closer =>
      refine Request.keeps_bind_act fun moment answer after passage _ recorded => ?_
      obtain ⟨paid, unrefused⟩ := stable_clear passage.ofInterference clear
      refine ⟨paid, ?_⟩
      cases answer with
      | true =>
          have taken : after.Clear id := by
            refine ⟨?_, ?_⟩
            · unfold Moment.owedBy
              rw [recorded.debts]
              exact paid
            · rintro ⟨scope, closer, did⟩
              exact unrefused ⟨scope, closer, recorded.before did nofun⟩
          have reports : Request.Only Event.Serving (fun _ : Except Error Unit => True)
              (Request.report (.registeredCloser closer.service) : Request U Unit) :=
            ⟨trivial, fun _ => ⟨trivial, trivial⟩⟩
          exact keeps_serving_end reports taken
      | false =>
          have owed : after.owedBy id = [⟨id, scope, closer⟩] := by
            unfold Moment.owedBy
            rw [recorded.debts]
            change (⟨id, scope, closer⟩ :: moment.debts).filter _ = _
            rw [List.filter_cons_of_pos (by simp)]
            exact congrArg _ paid
          refine keeps_pay context owed fun failure last paid _ => ?_
          have closed : last.Cleared id .closed := ⟨paid, fun _ => rfl⟩
          cases failure with
          | none =>
              exact Request.keeps_fail fun moment passage _ =>
                stable_cleared .closed passage.ofInterference closed
          | some failure =>
              have reports : Request.Only (fun event => event.Serving ∧ ¬ event.Bills)
                  (fun outcome : Except Error Unit => outcome = .error .closed)
                  (do
                    Request.report (.closerFailed closer.service failure.message)
                    Request.fail .closed : Request U Unit) :=
                ⟨⟨trivial, fun bills => bills⟩, fun _ => ⟨⟨trivial, fun bills => bills⟩, rfl⟩⟩
              refine (Program.Only.keeps reports ?_).mono ?_
              · intro moment event passage _ quiet
                have last := stable_cleared .closed (passage.mono fun _ own => own.2) closed
                exact paying_of_serving quiet.1 last.1
              · rintro _ moment _ ⟨rfl, passage⟩
                exact stable_cleared .closed (passage.mono fun _ own => own.2) closed

/-- A request that owes nothing may idle, and so may one that failed. -/
theorem idling_clear : Idling rely Conduct.paying id fun moment => moment.Clear id where
  stable := fun passage => stable_clear (passage.mono fun _ idle => idle.serving.not_bills)
  harmless := fun _ _ clear idle => paying_of_serving idle.serving clear.1

/-- An idle request owes nothing all the while, after an error too. -/
theorem idling_cleared (error : Error) :
    Idling rely Conduct.paying id fun moment => moment.Cleared id error where
  stable := fun passage => stable_cleared error (passage.mono fun _ idle => idle.serving.not_bills)
  harmless := fun _ _ cleared idle => paying_of_serving idle.serving cleared.1

/-- Constructing an instance ends owing nothing. -/
theorem keeps_construct (scope : ScopeId) (context : ContextId) (recipe : Recipe U)
    (arguments : List (Argument U)) (flag : FlagId) (closeMade : Bool) (clear : start.Clear id) :
    Request.Keeps rely Conduct.paying id (ClearEnd id)
      (construct scope context recipe arguments flag closeMade) start := by
  have usable : ∀ moment : Moment U, moment.Clear id → Request.Keeps rely Conduct.paying id
      (ClearEnd id) (ensureUsable context) moment := fun _ clear =>
    idling_clear.keeps_ends (only_ensureUsable context) (fun error _ clear => clear.cleared error)
      clear
  exact Request.keeps_construct idling_clear (usable start clear)
    (fun _ clear => keeps_serving_end (only_produce recipe scope arguments) clear)
    (Idling.keeps_raise (fun _ => idling_clear) idling_cleared)
    (fun _ moment clear => usable moment clear)
    (fun _ value _ _ clear => keeps_attachCloser scope context recipe value clear)
    fun _ _ _ clear => clear

/-- Finishing a value ends owing nothing. -/
theorem keeps_finish (scope : ScopeId) (context : ContextId) (key : Key) (binding : Binding U)
    (stages : List (Stage U)) (made : Value U) (clear : start.Clear id) :
    Request.Keeps rely Conduct.paying id (ClearEnd id)
      (finish scope context key binding stages made) start :=
  Request.keeps_finish _ (keeps_serving_end (only_convert binding scope key made) clear)
    (fun value _ _ clear => keeps_serving_end
      (only_decorateAll _ stages value binding.registered.type) clear)
    (fun _ _ _ clear => keeps_attachCloser scope context binding.recipe _ clear)
    fun _ _ _ clear => clear

/-- Keeping a value ends owing nothing if creating it does. -/
theorem keeps_keepIf (kept : Bool) (scope : ScopeId) (entry : CacheKey)
    {create : Request U (Value U)} (clear : start.Clear id)
    (creates : ∀ moment, moment.Clear id →
      Request.Keeps rely Conduct.paying id (ClearEnd id) create moment) :
    Request.Keeps rely Conduct.paying id (ClearEnd id) (keepIf kept scope entry create) start := by
  refine Request.keeps_keepIf (fun _ => creates start clear) ?_ ?_ ?_
  · exact fun _ _ _ passage _ => (stable_clear passage.ofInterference clear).1
  · intro _ before outcome after passage _ recorded last passage' _
    have entered : after.Clear id :=
      stable_clear (.own passage.ofInterference recorded fun bills => bills) clear
    exact (stable_clear passage'.ofInterference entered).ends outcome
  · intro _ before after passage _ recorded
    have entered : after.Clear id :=
      stable_clear (.own passage.ofInterference recorded fun bills => bills) clear
    refine (creates after entered).mono fun outcome settling _ ends => ⟨ClearEnd.paid ends, ?_⟩
    intro settled recorded' last passage' _
    have since : Passage rely id (fun event => ¬ event.Bills) settling settled :=
      .own (.refl _) recorded' fun bills => bills
    exact stable_clearEnd outcome (since.trans passage'.ofInterference) ends

/-- What requests for keys uphold so that closers are paid for. -/
def payment (rely : Conduct U) (id : RequestId) : Upkeep rely Conduct.paying id where
  holds := fun moment => moment.Clear id
  among := fun _ => True
  yields := fun _ _ _ _ => True
  failed := fun moment _ _ _ error => moment.Cleared id error
  stable := idling_clear.stable
  harmless := fun _ _ clear idle => paying_of_serving idle.serving clear.1
  ancestor := fun _ _ => trivial
  lasts := fun _ _ => trivial
  plain := fun clear _ => clear.cleared _
  cycle := fun clear _ _ => clear.cleared _
  dependency := fun _ _ _ cleared => cleared
  recalled := by
    intro moment next scope key binding home outcome _ _ _ _ _ clear _ passage _
    have clear := stable_clear (passage.mono fun _ idle => idle.serving.not_bills) clear
    cases outcome with
    | ok value => trivial
    | error error => exact clear.cleared error
  convert := by
    intro start scope key binding content _ _ _ _ _ clear
    refine (keeps_serving_end (only_convert binding scope.id key _) clear).mono ?_
    rintro (error | value) moment _ ends
    · exact ends
    · exact ⟨ends, trivial⟩
  produce := by
    intro start scope key binding home inputs context _ _ _ _ clear _
    refine Request.keeps_bind (keeps_keepIf _ _ _ clear fun moment clear =>
      keeps_construct home.id context binding.recipe inputs.arguments inputs.flag _ clear) ?_ ?_
    · exact fun error moment _ cleared => cleared
    · intro made moment _ clear
      refine (keeps_keepIf _ _ _ clear fun moment clear =>
        keeps_finish home.id context key binding inputs.stages made clear).mono ?_
      rintro (error | value) moment _ ends
      · exact ends
      · exact ⟨ends, trivial⟩

/-- A request that runs the closers that it owes. -/
theorem keeps_runClosers (scope : ScopeId) (context : ContextId)
    (closers : List (PendingCloser U))
    (owed : start.owedBy id = closers.map (Debt.mk id scope)) (unrefused : ¬ start.Refused id) :
    (Scope.runClosers scope context closers).Keeps rely Conduct.paying id
      (fun _ moment => moment.Clear id) start := by
  induction closers generalizing start with
  | nil => exact fun moment passage _ => stable_clear passage.ofInterference ⟨owed, unrefused⟩
  | cons closer rest ih =>
      refine keeps_pay context owed fun failure paid rested refused => ?_
      have goesOn : ¬ paid.Refused id := fun now => unrefused (refused now)
      cases failure with
      | none => exact ih rested goesOn
      | some failure =>
          intro moment passage _
          refine ⟨⟨fun _ _ => nofun, fun _ => .inr ⟨_, rfl⟩⟩, ?_⟩
          intro begun began later passage' _ answer reported returned
          refine ⟨trivial, ?_⟩
          have quiet : Passage rely id (fun event => ¬ event.Bills) paid reported :=
            .own ((Passage.own passage.ofInterference began fun bills => bills).trans
              passage'.ofInterference) returned fun bills => bills
          have others := ih (quiet.owedBy.1.trans rested) fun refused =>
            goesOn (quiet.owedBy.2 refused)
          change ((Scope.runClosers scope context rest).andThen _).Keeps _ _ _ _ reported
          exact others.andThen fun failures last _ clear later passage _ =>
            stable_clear passage.ofInterference clear

/-- Shutting a scope that nobody else shut leaves the closers that it gives up as debts. -/
theorem keeps_shutting {scope : Scope U} (context : ContextId) (clear : start.Clear id)
    (uncalled : ∀ call, ¬ start.Did id (.called call)) :
    Request.Keeps rely Conduct.paying id
      (fun outcome moment => moment.Clear id ∧ moment.Shuts id scope.id outcome)
      (scope.close context) start := by
  refine Request.keeps_bind_act fun moment answer after passage lawful recorded => ?_
  obtain ⟨paid, unrefused⟩ := stable_clear passage.ofInterference clear
  refine ⟨paid, ?_⟩
  have stillUnrefused : ¬ after.Refused id := by
    rintro ⟨scope, closer, did⟩
    exact unrefused ⟨scope, closer, recorded.before did nofun⟩
  cases answer with
  | none =>
      have stillClear : after.Clear id := by
        refine ⟨?_, stillUnrefused⟩
        unfold Moment.owedBy
        rw [recorded.debts]
        exact paid
      obtain ⟨other, closers, shut⟩ :=
        (lawful.closed scope.id).1 (Operation.perform_shut_none recorded.state).1
      refine Request.keeps_fail fun later passage' _ => ?_
      refine ⟨stable_clear passage'.ofInterference stillClear, .inr ⟨rfl, ?_, fun call called => ?_⟩⟩
      · exact ⟨other, closers, passage'.suffix.mem (recorded.suffix.mem shut)⟩
      rcases passage'.did called with before | impossible
      · rcases passage.did (recorded.before before nofun) with before | impossible
        · exact uncalled call before
        · exact impossible
      · exact impossible
  | some closers =>
      have shut : after.Did id (.performed (.shut scope.id) (some closers)) :=
        recorded.did
      have owed : after.owedBy id = closers.reverse.map (Debt.mk id scope.id) := by
        unfold Moment.owedBy
        rw [recorded.debts]
        change (closers.reverse.map (Debt.mk id scope.id) ++ moment.debts).filter _ = _
        rw [List.filter_append, show moment.debts.filter _ = [] from paid, List.append_nil,
          filter_debts_self]
      refine Request.keeps_bind_call fun moment passage _ =>
        ⟨⟨fun _ _ => nofun, fun _ => .inr ⟨_, rfl⟩⟩, ?_⟩
      intro begun began later passage' _ answer reported returned
      have quiet : Passage rely id (fun event => ¬ event.Bills) after reported :=
        .own ((Passage.own passage.ofInterference began fun bills => bills).trans
          passage'.ofInterference) returned fun bills => bills
      refine ⟨trivial, ?_⟩
      refine Request.keeps_bind_lift (keeps_runClosers scope.id context closers.reverse
        (quiet.owedBy.1.trans owed) fun refused => stillUnrefused (quiet.owedBy.2 refused)).grows ?_
      rintro failures last _ ⟨grown, clear⟩
      have ends : ∀ (outcome : Except Error Unit) later, Interference rely id last later →
          later.Clear id ∧ later.Shuts id scope.id outcome := fun outcome later passage =>
        ⟨stable_clear passage.ofInterference clear,
          .inl ⟨closers, passage.suffix.mem (grown.mem (quiet.suffix.mem shut))⟩⟩
      cases failures with
      | nil => exact Request.keeps_pure fun later passage _ => ends _ later passage
      | cons failure failures => exact Request.keeps_fail fun later passage _ => ends _ later passage

end Requests

/-! ## Building -/

section Building

variable {rely : Conduct U} {id : RequestId} {start moment : Moment U}

/-- A request that owes nothing is building a scope. -/
structure Moment.Building (moment : Moment U) (id : RequestId) (scope : ScopeId) : Prop where
  clear : moment.Clear id
  numbered : moment.Did id (.performed .newScope scope)
  unfinished : ∀ reply, ¬ moment.Did id (.finished reply)

/-- A scope goes on being built while its request only serves. -/
theorem stable_building (scope : ScopeId) :
    Stable rely id Event.Serving (Moment.Building · id scope) := by
  intro moment next passage building
  refine ⟨?_, passage.suffix.mem building.numbered, ?_⟩
  · exact stable_clear (passage.mono fun _ => Event.Serving.not_bills) building.clear
  · intro reply ended
    rcases passage.did ended with before | impossible
    · exact building.unfinished reply before
    · exact impossible

/-- A scope that is being built cannot be closed yet: nobody else has it. -/
theorem Moment.Building.opened {scope : ScopeId}
    (lawful : moment.Lawful (Conduct.orderly.and Conduct.growing))
    (building : moment.Building id scope) : (moment.state.scope scope).closed = false := by
  cases closed : (moment.state.scope scope).closed with
  | false => rfl
  | true =>
      obtain ⟨other, closers, shut⟩ := (lawful.closed scope).1 closed
      obtain ⟨before, lawful', earlier, _, built, isScope, same⟩ := lawful.allowed shut
      obtain ⟨maker, ended, given⟩ := (isScope.grown lawful').numbered
      rw [same] at given
      obtain rfl := lawful.numbered.2 id maker scope building.numbered (earlier.mem given)
      exact absurd (earlier.mem ended) (building.unfinished _)

variable (grows : ∀ moment entry, rely moment entry →
  (Conduct.orderly.and Conduct.growing) moment entry)

include grows

/-- Attaching closers to a scope that is being built leaves no debts. -/
theorem keeps_attachAll (scope : ScopeId) (closers : List (PendingCloser U))
    (building : start.Building id scope) :
    Request.Keeps rely Conduct.paying id (fun _ moment => moment.Building id scope)
      (Builder.attachAll scope closers) start := by
  induction closers generalizing start with
  | nil =>
      exact Request.keeps_pure fun moment passage _ =>
        stable_building scope passage.ofInterference building
  | cons closer rest ih =>
      refine Request.keeps_bind_act fun moment answer after passage lawful recorded => ?_
      have building := stable_building scope passage.ofInterference building
      refine ⟨building.clear.1, ?_⟩
      cases answer with
      | false =>
          have closed := (Operation.perform_attach_false recorded.state).1
          rw [building.opened (lawful.mono grows)] at closed
          cases closed
      | true =>
          have still : after.Building id scope := by
            refine ⟨⟨?_, ?_⟩, recorded.suffix.mem building.numbered, ?_⟩
            · unfold Moment.owedBy
              rw [recorded.debts]
              exact building.clear.1
            · rintro ⟨other, closer, did⟩
              exact building.clear.2 ⟨other, closer, recorded.before did nofun⟩
            · intro reply ended
              exact building.unfinished reply (recorded.before ended nofun)
          have reports : Request.Only Event.Serving (fun _ : Except Error Unit => True)
              (Request.report (.registeredCloser closer.service) : Request U Unit) :=
            ⟨trivial, fun _ => ⟨trivial, trivial⟩⟩
          refine Request.keeps_bind (reports.upholds (stable_building scope)
            (fun _ _ building serving => paying_of_serving serving building.clear.1) still) ?_ ?_
          · exact fun _ _ _ reached => reached.2
          · exact fun _ _ _ reached => ih reached.2

omit grows in

/-- A scope is still being built after a request that only serves. -/
theorem keeps_serving_building {request : Request U α} {yields : Except Error α → Prop}
    {scope : ScopeId}
    (only : request.Only Event.Serving yields) (building : start.Building id scope) :
    Request.Keeps rely Conduct.paying id (fun _ moment => moment.Building id scope) request start :=
  (only.upholds (stable_building scope)
    (fun _ _ building serving => paying_of_serving serving building.clear.1) building).mono
      fun _ _ _ reached => reached.2

/-- Completing a builder leaves no debts. -/
theorem keeps_complete (builder : Builder U) (building : start.Building id builder.id) :
    Request.Keeps rely Conduct.paying id (fun _ moment => moment.Building id builder.id)
      builder.complete start := by
  by_cases sound : builder.issues = []
  · rw [Builder.complete_of_sound sound]
    refine Request.keeps_bind (keeps_attachAll grows _ builder.closers building) ?_ ?_
    · exact fun _ _ _ building => building
    · intro _ attached _ building
      have reports : Request.Only Event.Serving (fun _ => True) (do
          Request.report (.createdContainer builder.scope.id builder.scope.depth
            (builder.scope.parent?.map Scope.id) builder.accepted builder.scope.ownsRegistry)
          pure builder.scope : Request U (Scope U)) :=
        ⟨trivial, fun _ => ⟨trivial, trivial⟩⟩
      exact keeps_serving_building reports building
  · rw [Builder.complete_of_wrong sound]
    have fails : Request.Only Event.Serving (fun _ => True)
        (Request.fail (.invalid builder.issues) : Request U (Scope U)) := trivial
    exact keeps_serving_building fails building

/-- Building leaves no debts. -/
theorem keeps_build (builder : Builder U) (building : start.Building id builder.id) :
    Request.Keeps rely Conduct.paying id (fun _ moment => moment.Building id builder.id)
      builder.build start := by
  cases above : builder.parent with
  | none =>
      rw [Builder.build_of_root above]
      exact keeps_complete grows builder building
  | some parent =>
      rw [Builder.build_of_child above]
      have opened : Request.Only (@Event.Serving U) (fun _ => True) (ensureOpen parent.id) :=
        (only_ensureOpen parent.id).mono (fun _ => Event.Idle.serving) fun _ _ => trivial
      exact Request.keeps_bind (keeps_serving_building opened building)
        (fun _ _ _ building => building) fun _ _ _ building => keeps_complete grows builder building

/-- Building a scope leaves no debts. -/
theorem keeps_buildScope (parent : Option (Scope U)) (registrations : List (Registration U))
    (clear : start.Clear id) (unfinished : ∀ reply, ¬ start.Did id (.finished reply)) :
    Request.Keeps rely Conduct.paying id (fun _ moment => moment.Clear id)
      (buildScope parent registrations) start := by
  have numbers : (newBuilder parent : Program U (Builder U)).Keeps rely Conduct.paying id
      (fun builder moment => moment.Building id builder.id) start := by
    rw [newBuilder_eq]
    intro moment passage _ scope after recorded
    have clear := stable_clear passage.ofInterference clear
    have building : after.Building id scope := by
      have billed : Passage rely id (fun event => ¬ event.Bills) moment after :=
        .own (.refl _) recorded fun bills => bills
      refine ⟨stable_clear billed clear, ?_, ?_⟩
      · exact recorded.did
      · intro reply ended
        rcases passage.did (recorded.before ended nofun) with before | impossible
        · exact unfinished reply before
        · exact impossible
    refine ⟨clear.1, fun later passage _ => ?_⟩
    have building := stable_building scope passage.ofInterference building
    rwa [← Builder.start_id scope parent] at building
  refine Request.keeps_bind_lift numbers ?_
  rintro builder moment _ building
  have registers := (Builder.only_register registrations builder).mono
    (fun _ => Event.Idle.serving) fun _ same => same
  refine Request.keeps_bind_lift (registers.upholds (stable_building builder.id)
    (fun _ _ building serving => paying_of_serving serving building.clear.1) building) ?_
  rintro _ moment _ ⟨rfl, building⟩
  rw [← Builder.addAll_id registrations builder] at building
  exact (keeps_build grows _ building).mono fun _ _ _ building => building.clear

omit grows in
/-- A request that owes nothing may end, unless it had to close a scope. -/
theorem paying_of_clearEnd {demand : Demand U} {reply : Except Error (Reply U)}
    (began : moment.Did id (.started demand))
    (other : ∀ scope context, demand ≠ .close scope context) (ends : ClearEnd id reply moment) :
    Conduct.paying moment ⟨id, .finished reply⟩ := by
  refine ⟨ends.paid, ?_, demand, began, fun scope context same => absurd same (other _ _)⟩
  intro refused
  cases reply with
  | ok reply => exact absurd refused ends.2
  | error error => exact ⟨error, rfl, ends.2 refused⟩

omit grows in
/-- A request that owes nothing in the end may be answered, unless it had to close a scope. -/
theorem keeps_answered {demand : Demand U} {request : Request U α} {reply : α → Reply U}
    (began : start.Did id (.started demand))
    (other : ∀ scope context, demand ≠ .close scope context)
    (keeps : Request.Keeps rely Conduct.paying id (fun _ moment => moment.Clear id) request
      start) :
    Request.Keeps rely Conduct.paying id
      (fun reply last => Conduct.paying last ⟨id, .finished reply⟩)
      (do
        let value ← request
        pure (reply value)) start := by
  refine Request.keeps_bind keeps.grows ?_ ?_
  · rintro error last _ ⟨grown, clear⟩
    exact paying_of_clearEnd (grown.mem began) other (clear.cleared error)
  · rintro value last _ ⟨grown, clear⟩
    refine Request.keeps_pure fun later passage _ => ?_
    exact paying_of_clearEnd (passage.suffix.mem (grown.mem began)) other
      (stable_clear passage.ofInterference clear)

omit grows in

/-- Letting go of a scope leaves no debts. -/
theorem keeps_discard_paying (scope : Scope U) (clear : start.Clear id) :
    Request.Keeps rely Conduct.paying id (fun _ last => last.Clear id)
      (ExceptT.lift scope.discard) start := by
  refine Request.keeps_lift fun moment passage _ pending discarded recorded => ?_
  have clear := stable_clear passage.ofInterference clear
  refine ⟨clear.1, ?_⟩
  have still : discarded.Clear id := by
    have quiet : Passage rely id (fun event => ¬ event.Bills) moment discarded :=
      .own (.refl _) recorded fun bills => bills
    exact stable_clear quiet clear
  refine ((only_warn scope.id pending).keeps ?_).mono ?_
  · intro later event passage _ idle
    have clear := stable_clear (passage.mono fun _ idle => idle.serving.not_bills) still
    exact paying_of_serving idle.serving clear.1
  · rintro _ last _ ⟨_, passage⟩
    exact stable_clear (passage.mono fun _ idle => idle.serving.not_bills) still

omit grows in
/-- A request to close a scope shuts it, or finds it shut. -/
theorem keeps_close_paying {scope : Scope U} {context : ContextId}
    (began : start.Did id (.started (.close scope context))) (clear : start.Clear id)
    (uncalled : ∀ call, ¬ start.Did id (.called call)) :
    Request.Keeps rely Conduct.paying id
      (fun reply last => Conduct.paying last ⟨id, .finished reply⟩)
      (Demand.close scope context).request start := by
  have ends : ∀ {reply : Except Error (Reply U)} {last}, start.history <:+ last.history →
      last.Clear id → last.Shuts id scope.id reply →
        Conduct.paying last ⟨id, .finished reply⟩ := by
    intro reply last grown clear shuts
    refine ⟨clear.1, fun refused => absurd refused clear.2, _, grown.mem began, ?_⟩
    rintro _ _ ⟨⟩
    exact shuts
  refine Request.keeps_bind (keeps_shutting context clear uncalled).grows ?_ ?_
  · rintro error last _ ⟨grown, clear, shut | ⟨⟨⟩, late⟩⟩
    · exact ends grown clear (.inl shut)
    · exact ends grown clear (.inr ⟨rfl, late⟩)
  · rintro _ last _ ⟨grown, clear, ⟨closers, shut⟩ | ⟨⟨⟩, _⟩⟩
    refine Request.keeps_pure fun later passage _ => ?_
    exact ends (grown.trans passage.suffix) (stable_clear passage.ofInterference clear)
      (.inl ⟨closers, passage.suffix.mem shut⟩)

/-- All requests pay what they owe. -/
theorem kept_paying : Conduct.Kept rely Conduct.paying where
  started := fun _ _ _ _ _ => trivial
  follows := by
    intro moment id demand after lawful orderly recorded
    have began : after.Did id (.started demand) := recorded.did
    have isNew : ∀ event, after.Did id event → event = .started demand := by
      intro event did
      by_contra differs
      exact orderly.1 ⟨_, recorded.before did differs, rfl⟩
    have clear : after.Clear id := by
      refine ⟨?_, fun ⟨scope, closer, did⟩ => by cases isNew _ did⟩
      unfold Moment.owedBy
      rw [recorded.debts, List.filter_eq_nil_iff]
      intro debt owed isMine
      exact orderly.1 (of_decide_eq_true isMine ▸ knows_of_debt owed)
    have asks : demand.Resolves → (∀ scope context, demand ≠ .close scope context) →
        Request.Keeps rely Conduct.paying id
          (fun reply last => Conduct.paying last ⟨id, .finished reply⟩) demand.request after := by
      intro resolves other
      refine ((payment rely id).asking resolves (fun _ _ => trivial) clear).grows.mono ?_
      rintro reply last _ ⟨grown, ends⟩
      refine paying_of_clearEnd (grown.mem began) other ?_
      cases reply with
      | ok reply => exact ends.1
      | error error =>
          rcases ends with ⟨clear, _⟩ | ⟨_, _, _, cleared⟩
          · exact clear.cleared error
          · exact cleared
    cases demand with
    | build parent registrations =>
        have unfinished : ∀ reply, ¬ after.Did id (.finished reply) := fun reply ended => by
          cases isNew _ ended
        exact keeps_answered began nofun
          (keeps_buildScope grows parent registrations clear unfinished)
    | close scope context =>
        exact keeps_close_paying began clear fun call called => by cases isNew _ called
    | discard scope => exact keeps_answered began nofun (keeps_discard_paying scope clear)
    | resolve _ _ _ => exact asks trivial nofun
    | resolveTyped _ _ _ => exact asks trivial nofun
    | resolveThrough _ _ _ => exact asks trivial nofun
    | resolveTypedThrough _ _ _ => exact asks trivial nofun
    | invoke _ _ _ _ => exact asks trivial nofun

end Building

end Provision
