import Provision.Proofs.Resolution.DemandPrograms
import Mathlib.Logic.Function.Basic

/-!
# Handles that requests lend

A request numbers a flag for each function that makes something, and passes handles with that flag
to this function only.  It raises the flag as soon as the function has returned, and not before.
Handles for a routine have a flag that is raised already.  `Program.Lends` says so of a program,
whatever is answered to it, along with what it leaves known of flags.

Main statements: `Program.Lends.andThen` and `Request.lends_bind_sparing` compose programs that lend
handles so, and `Program.Only.lends_andThen` says that what has nothing to do with flags leaves them
as they are.
-/

namespace Provision

variable {U : Client} {α β : Type}

/-! ## Flags and handles -/

/-- The flags that a request numbered, each with whether the request raised it. -/
abbrev Flags : Type := FlagId → Option Bool

/-- All that was known of flags is still known, apart from some that were used up. -/
def Flags.Spares (spent : List FlagId) (earlier later : Flags) : Prop :=
  ∀ flag, flag ∉ spent → ∀ raised, earlier flag = some raised → later flag = some raised

/-- The handle that is passed as an argument, if it is one. -/
def Argument.handle? : Argument U → Option (Handle U)
  | scope handle => some handle
  | _ => none

/-- The handles among arguments. -/
def handlesOf (arguments : List (Argument U)) : List (Handle U) :=
  arguments.filterMap Argument.handle?

/-- The handles that a function of the client is passed. -/
def Call.handles : Call U → List (Handle U)
  | construct _ _ arguments => handlesOf arguments
  | decorate _ _ _ _ arguments => handlesOf arguments
  | enact _ arguments => handlesOf arguments
  | _ => []

/-- What a function of the client makes or decorates something for. -/
def Call.site? : Call U → Option (Site U)
  | construct site _ _ => some site
  | decorate site _ _ _ _ => some site
  | _ => none

/-- A scope that a demand names, or an ancestor of one. -/
def Demand.Reaches (demand : Demand U) (scope : Scope U) : Prop :=
  ∃ named ∈ demand.scopes, scope.Above named

/-- A handle may be passed to a function that makes something, if it is a handle to the scope that
this is made in and its flag is not raised, and to a routine, if it is a handle to the scope in
which the routine is invoked and its flag is raised. -/
def Handle.MayPass (handle : Handle U) (demand : Demand U) (flags : Flags) :
    Option (Site U) → Prop
  | some site => handle.scope.id = site.scope ∧ demand.Reaches handle.scope ∧
      flags handle.flag = some false
  | none => (∃ context params routine, demand = .invoke handle.scope context params routine) ∧
      flags handle.flag = some true

namespace Operation

/-- A request raises only flags that it numbered, each once. -/
def Due (flags : Flags) : Operation U → Prop
  | raise flag => flags flag = some false
  | _ => True

/-- The number of a flag is new. -/
def New (flags : Flags) : (operation : Operation U) → operation.Answer → Prop
  | newFlag, flag => flags flag = none
  | _, _ => True

/-- What is known of flags after an operation. -/
def marking (flags : Flags) : (operation : Operation U) → operation.Answer → Flags
  | newFlag, flag => Function.update flags flag (some false)
  | raise flag, _ => Function.update flags flag (some true)
  | _, _ => flags

end Operation

/-- The next thing that a program does is to raise a flag. -/
def Program.Raises (program : Program U α) (flag : FlagId) : Prop :=
  ∃ next, program = .perform (.raise flag) next

/-- Whatever operations and functions answer, a program passes handles only as it may, and raises
the flag of a handle at once when a function that makes something has returned. -/
def Program.Lends (demand : Demand U) (post : α → Flags → Prop) : Program U α → Flags → Prop
  | .done result, flags => post result flags
  | .perform operation next, flags =>
      operation.Due flags ∧ ∀ answer, operation.New flags answer →
        (next answer).Lends demand post (operation.marking flags answer)
  | .ask call next, flags =>
      (∀ handle ∈ call.handles, handle.MayPass demand flags call.site?) ∧ ∀ answer,
        (call.site?.isSome = true → ∀ handle ∈ call.handles, (next answer).Raises handle.flag) ∧
          (next answer).Lends demand post flags
  | .never, _ => True

/-- What holds of a program for a request. -/
abbrev Request.Lends (demand : Demand U) (post : Except Error α → Flags → Prop)
    (request : Request U α) (flags : Flags) : Prop :=
  Program.Lends demand post request.run flags

/-- How a request ends that uses up some flags of those there were. -/
def Sparing (spent : List FlagId) (flags : Flags) (good : α → Flags → Prop) :
    Except Error α → Flags → Prop :=
  fun outcome later => flags.Spares spent later ∧ ∀ value, outcome = .ok value → good value later

/-- An event that has nothing to do with flags and handles. -/
def Event.Unflagged : Event U → Prop
  | .performed .newFlag _ => False
  | .performed (.raise _) _ => False
  | .called call => call.handles = []
  | _ => True

namespace Flags.Spares

variable {spent more : List FlagId} {first second third : Flags}

theorem refl (spent : List FlagId) (flags : Flags) : flags.Spares spent flags :=
  fun _ _ _ known => known

theorem trans (before : first.Spares spent second) (after : second.Spares spent third) :
    first.Spares spent third :=
  fun flag unspent raised known => after flag unspent raised (before flag unspent raised known)

theorem mono (spares : first.Spares spent second) (fewer : ∀ flag ∈ spent, flag ∈ more) :
    first.Spares more second :=
  fun flag unspent => spares flag fun member => unspent (fewer flag member)

/-- If nothing was spent, what was known is known. -/
theorem keeps (spares : first.Spares [] second) {flag : FlagId} {raised : Bool}
    (known : first flag = some raised) : second flag = some raised :=
  spares flag List.not_mem_nil raised known

/-- A flag of which nothing is known in the end was not known before. -/
theorem unknown (spares : first.Spares [] second) {flag : FlagId} (unknown : second flag = none) :
    first flag = none := by
  cases known : first flag with
  | none => rfl
  | some raised => exact absurd (spares.keeps known) (by simp [unknown])

/-- A number that is new spares all flags. -/
theorem number (flags : Flags) {flag : FlagId} (new : flags flag = none) :
    flags.Spares [] (Function.update flags flag (some false)) := by
  intro other _ raised known
  rw [Function.update_of_ne]
  · exact known
  · rintro rfl
    cases new.symm.trans known

/-- Raising a flag spends it and spares all others. -/
theorem spend (flags : Flags) (flag : FlagId) :
    flags.Spares [flag] (Function.update flags flag (some true)) := by
  intro other unspent raised known
  rw [Function.update_of_ne]
  · exact known
  · rintro rfl
    exact unspent List.mem_cons_self

/-- Flags that were not there before need not be spared. -/
theorem ofNew (before : first.Spares [] second) (after : second.Spares spent third)
    (new : ∀ flag ∈ spent, first flag = none) : first.Spares [] third := by
  intro flag _ raised known
  refine after flag (fun member => ?_) raised (before.keeps known)
  cases (new flag member).symm.trans known

end Flags.Spares

/-! ## Composing programs -/

namespace Program

variable {demand : Demand U} {program : Program U α} {next : α → Program U β}
  {flags : Flags} {post : α → Flags → Prop} {last : β → Flags → Prop}

/-- A program that raises a flag first does so whatever follows. -/
theorem Raises.andThen {flag : FlagId} (raises : program.Raises flag) (next : α → Program U β) :
    (program.andThen next).Raises flag := by
  obtain ⟨rest, rfl⟩ := raises
  exact ⟨_, rfl⟩

/-- One program after another lends handles as it should if both do. -/
theorem Lends.andThen (first : program.Lends demand post flags)
    (rest : ∀ result later, post result later → (next result).Lends demand last later) :
    (program.andThen next).Lends demand last flags := by
  induction program generalizing flags with
  | done result => exact rest result flags first
  | perform operation after ih =>
      exact ⟨first.1, fun answer new => ih answer (first.2 answer new)⟩
  | ask call after ih =>
      refine ⟨first.1, fun answer => ⟨fun makes handle passed => ?_, ih answer (first.2 answer).2⟩⟩
      exact ((first.2 answer).1 makes handle passed).andThen next
  | never => trivial

theorem Lends.mono {weaker : α → Flags → Prop} (lends : program.Lends demand post flags)
    (ends : ∀ result later, post result later → weaker result later) :
    program.Lends demand weaker flags := by
  rw [← andThen_done program]
  exact lends.andThen ends

variable {own : Event U → Prop} {yields : α → Prop}

/-- A program that has nothing to do with flags leaves them to what follows. -/
theorem Only.lends_andThen (only : program.Only own yields)
    (unflagged : ∀ event, own event → event.Unflagged)
    (rest : ∀ result, yields result → (next result).Lends demand last flags) :
    (program.andThen next).Lends demand last flags := by
  induction program with
  | done result => exact rest result only
  | perform operation after ih =>
      have goesOn (answer : operation.Answer) := ih answer (only answer).2
      cases operation with
      | newFlag => exact (unflagged _ (only ⟨0⟩).1).elim
      | raise flag => exact (unflagged _ (only ()).1).elim
      | _ => exact ⟨trivial, fun answer _ => goesOn answer⟩
  | ask call after ih =>
      have none : call.handles = [] := unflagged _ only.1
      refine ⟨?_, fun answer => ⟨fun _ => ?_, ih answer (only.2 answer).2⟩⟩ <;>
        (rw [none]; exact fun _ impossible => absurd impossible List.not_mem_nil)
  | never => exact only.elim

end Program

/-! ## Composing requests -/

namespace Request

variable {demand : Demand U} {request : Request U α} {next : α → Request U β}
  {flags : Flags} {middle : Except Error α → Flags → Prop}
  {post : Except Error β → Flags → Prop} {spent : List FlagId} {good : α → Flags → Prop}

/-- One request after another lends handles as it should if both do. -/
theorem lends_bind (first : request.Lends demand middle flags)
    (failed : ∀ error later, middle (.error error) later → post (.error error) later)
    (second : ∀ value later, middle (.ok value) later → (next value).Lends demand post later) :
    (request >>= next).Lends demand post flags := by
  refine Program.Lends.andThen first fun outcome later reached => ?_
  cases outcome with
  | ok value => exact second value later reached
  | error error => exact failed error later reached

/-- An operation that is due goes before a request that lends handles as it should. -/
theorem lends_bind_act {operation : Operation U} {next : operation.Answer → Request U β}
    (due : operation.Due flags) (rest : ∀ answer, operation.New flags answer →
      (next answer).Lends demand post (operation.marking flags answer)) :
    (act operation >>= next).Lends demand post flags :=
  ⟨due, rest⟩

/-- What has nothing to do with flags goes before what has. -/
theorem lends_bind_only {own : Event U → Prop} {yields : Except Error α → Prop}
    (only : request.Only own yields) (unflagged : ∀ event, own event → event.Unflagged)
    (failed : ∀ error, yields (.error error) → post (.error error) flags)
    (second : ∀ value, yields (.ok value) → (next value).Lends demand post flags) :
    (request >>= next).Lends demand post flags := by
  refine Program.Only.lends_andThen only unflagged fun outcome reached => ?_
  cases outcome with
  | ok value => exact second value reached
  | error error => exact failed error reached

theorem lends_pure {value : α} (holds : good value flags) :
    (pure value : Request U α).Lends demand (Sparing spent flags good) flags :=
  ⟨.refl _ _, fun _ same => Except.ok.inj same ▸ holds⟩

theorem lends_fail (error : Error) :
    (fail error : Request U α).Lends demand (Sparing spent flags good) flags :=
  ⟨.refl _ _, nofun⟩

theorem lends_ofExcept (outcome : Except Error α) :
    (ofExcept outcome).Lends demand (Sparing spent flags fun _ _ => True) flags :=
  ⟨.refl _ _, fun _ _ => trivial⟩

/-- A request that goes on where some flags were spared spares them as well. -/
theorem Lends.after {later : Flags} (lends : request.Lends demand (Sparing spent later good) later)
    (before : flags.Spares spent later) :
    request.Lends demand (Sparing spent flags good) later :=
  Program.Lends.mono lends fun _ _ reached => ⟨before.trans reached.1, reached.2⟩

/-- One request after another, both of which spare flags. -/
theorem lends_bind_sparing {last : β → Flags → Prop}
    (first : request.Lends demand (Sparing spent flags good) flags)
    (second : ∀ value later, flags.Spares spent later → good value later →
      (next value).Lends demand (Sparing spent later last) later) :
    (request >>= next).Lends demand (Sparing spent flags last) flags :=
  lends_bind first (fun _ _ reached => ⟨reached.1, nofun⟩) fun value later reached =>
    (second value later reached.1 (reached.2 value rfl)).after reached.1

end Request

/-! ## What has nothing to do with flags -/

/-- A request that has nothing to do with flags and handles. -/
abbrev Request.Unflagged (request : Request U α) : Prop :=
  request.Only Event.Unflagged fun _ => True

/-- One request after another has nothing to do with flags if neither has. -/
theorem Request.Unflagged.bind {request : Request U α} {next : α → Request U β}
    (first : request.Unflagged) (second : ∀ value, (next value).Unflagged) :
    (request >>= next).Unflagged :=
  Request.only_bind first (fun _ _ => trivial) fun value _ => second value

/-- A request that has nothing to do with flags spares them all. -/
theorem Request.Unflagged.lends {demand : Demand U} {request : Request U α} {flags : Flags}
    {spent : List FlagId} (unflagged : request.Unflagged) :
    request.Lends demand (Sparing spent flags fun _ _ => True) flags := by
  rw [Request.Lends, ← Program.andThen_done request.run]
  exact Program.Only.lends_andThen unflagged (fun _ own => own) fun _ _ =>
    ⟨.refl _ _, fun _ _ => trivial⟩

/-- Reporting a notice has nothing to do with flags. -/
theorem unflagged_report (notice : Notice) :
    Request.Unflagged (Request.report notice : Request U Unit) :=
  ⟨rfl, fun _ => ⟨trivial, trivial⟩⟩

/-- An outcome has nothing to do with flags. -/
theorem unflagged_ofExcept (outcome : Except Error α) :
    Request.Unflagged (Request.ofExcept outcome : Request U α) :=
  trivial

/-- Looking at a context has nothing to do with flags. -/
theorem unflagged_ensureUsable (context : ContextId) :
    Request.Unflagged (ensureUsable context : Request U Unit) := by
  refine Request.only_bind_act fun answer => ⟨trivial, ?_⟩
  cases answer <;> exact trivial

/-- Looking whether a scope is open has nothing to do with flags. -/
theorem unflagged_ensureOpen (scope : ScopeId) :
    Request.Unflagged (ensureOpen scope : Request U Unit) := by
  refine Request.only_bind_act fun closed => ⟨trivial, ?_⟩
  cases closed <;> exact trivial

/-- Finding the scope that keeps a value has nothing to do with flags. -/
theorem unflagged_effectiveScope (scope : Scope U) (key : Key) (binding : Binding U) :
    (effectiveScope scope key binding).Unflagged := by
  unfold effectiveScope
  cases binding.recipe.lifetime with
  | singleton =>
      cases scope.ancestor? binding.owner with
      | none => exact trivial
      | some owner => exact (unflagged_ensureOpen owner.id).bind fun _ => trivial
  | perScope =>
      by_cases owns : scope.id = binding.owner
      · simp only [owns, if_true]
        exact trivial
      · simp only [owns, if_false]
        exact trivial
  | transient => exact trivial

/-- Converting a value has nothing to do with flags. -/
theorem unflagged_convert (binding : Binding U) (scope : ScopeId) (key : Key) (value : Value U) :
    (binding.convert scope key value).Unflagged := by
  unfold Binding.convert
  cases binding.cast with
  | none => exact trivial
  | some cast =>
      by_cases produced : value.type = binding.recipe.produces
      · simp only [produced, if_true]
        exact ⟨rfl, fun _ => ⟨trivial, trivial⟩⟩
      · simp only [produced, if_false]
        exact trivial

/-- Taking an argument has nothing to do with flags. -/
theorem Event.Taking.unflagged {event : Event U} (taking : event.Taking) : event.Unflagged := by
  cases event with
  | called call => cases call <;> first | rfl | exact taking.elim
  | performed operation answer => exact taking.elim
  | _ => trivial

/-- Taking arguments has nothing to do with flags. -/
theorem unflagged_takeAll (params : List Param) (arguments : List (Argument U)) :
    (takeAll params arguments).Unflagged :=
  (only_takeAll params arguments).mono (fun _ => Event.Taking.unflagged) fun _ _ => trivial

/-- Attaching a closer has nothing to do with flags. -/
theorem unflagged_attachCloser (scope : ScopeId) (context : ContextId) (recipe : Recipe U)
    (subject : Value U) : (attachCloser scope context recipe subject).Unflagged := by
  unfold attachCloser
  cases recipe.closerFor? subject with
  | none => exact trivial
  | some closer =>
      refine Request.only_bind_act fun attached => ⟨trivial, ?_⟩
      cases attached with
      | true => exact ⟨rfl, fun _ => ⟨trivial, trivial⟩⟩
      | false =>
          refine Request.only_bind_call rfl fun failure => ⟨trivial, ?_⟩
          cases failure with
          | none => exact trivial
          | some failure => exact ⟨rfl, fun _ => ⟨trivial, trivial⟩⟩

/-- Looking at a flag and its scope changes no flags. -/
theorem unflagged_ensureReady (handle : Handle U) (key : Key) :
    (handle.ensureReady key).Unflagged := by
  refine Request.only_bind_act fun ready => ⟨trivial, ?_⟩
  cases ready with
  | false => exact trivial
  | true =>
      refine Request.only_bind_act fun dropped => ⟨trivial, ?_⟩
      cases dropped <;> exact trivial

end Provision
