import Provision.Proofs.Registries.RegistrationOrder
import Provision.Proofs.Types.TypeGuards

/-!
# Requests that do the same

A request and the one that is written with other guards do the same as long as no guard turns
anything away.  The judgement `Request.Mirrors` says so of the runs that are found in a moment: what
was done, as far as it came, the other request does as well.  It follows a request step by step,
with what is known of the values that it comes to and of the errors that it fails with, and here it
is proved of each part of making a value.

Main statements: `Request.Mirrors.bind`, that it goes along with sequencing, and `mirrors_construct`
and `mirrors_finish`, that arguments which have the types of their parameters pass all guards.
-/

namespace Provision

open Moment

variable {U : Client} {α β : Type}

/-! ## Errors for a type -/

namespace Moment

/-- A parameter refused the value that a request resolved for it, which has the type of a key. -/
def Refuses (moment : Moment U) (id : RequestId) (key : Key) : Prop :=
  ∃ value, moment.Did id (.returned (.accepts value) false) ∧ key = .of value.type

/-- If an error is for a type, then a parameter refused its value in the request itself. -/
def Explains (moment : Moment U) (id : RequestId) (error : Error) : Prop :=
  ∀ key, error.root = .typeMismatch key → moment.Refuses id key

/-- An error that a request keeps in a cell is explained by the request itself. -/
def Warrants (moment : Moment U) (id : RequestId) : Event U → Prop
  | .performed (.settle _ _ (.error error)) _ => moment.Explains id error
  | _ => True

end Moment

/-! ## Programs side by side -/

/-- Wherever a program was run within a request, what it did is what another program does, and what
it kept is explained; once it was done, a statement held of what the request had done by then and of
the result. -/
def Program.Mirrors (moment : Moment U) (id : RequestId) (post : List (Event U) → α → Prop)
    (program other : Program U α) (before : List (Event U)) : Prop :=
  ∀ events outcome, before ++ events <+: moment.doings id → program.Goes events outcome →
    other.Goes events outcome ∧ (∀ event ∈ events, moment.Warrants id event) ∧
      ∀ result, outcome = some result → post (before ++ events) result

namespace Program

variable {moment : Moment U} {id : RequestId} {before : List (Event U)}
  {post : List (Event U) → α → Prop}

theorem mirrors_done {result : α} (holds : post before result) :
    Mirrors moment id post (done result) (done result) before := by
  intro events outcome _ goes
  cases goes with
  | begun => exact ⟨.begun _, by simp, nofun⟩
  | done =>
      refine ⟨.done result, by simp, fun same isResult => ?_⟩
      rw [List.append_nil, ← Option.some.inj isResult]
      exact holds

theorem mirrors_never : Mirrors moment id post (never : Program U α) never before := by
  intro events outcome _ goes
  cases goes
  exact ⟨.begun _, by simp, nofun⟩

/-- Programs that perform the same operation mirror each other if what follows does. -/
theorem mirrors_perform {operation : Operation U} {next next' : operation.Answer → Program U α}
    (performs : ∀ answer, before ++ [.performed operation answer] <+: moment.doings id →
      moment.Warrants id (.performed operation answer) ∧
        Mirrors moment id post (next answer) (next' answer)
          (before ++ [.performed operation answer])) :
    Mirrors moment id post (perform operation next) (perform operation next') before := by
  intro events outcome within goes
  cases goes with
  | begun => exact ⟨.begun _, by simp, nofun⟩
  | @performed _ _ answer rest _ goes =>
      rw [List.append_cons] at within ⊢
      obtain ⟨warranted, mirrors⟩ := performs answer ((List.prefix_append ..).trans within)
      obtain ⟨goes', warrants, holds⟩ := mirrors rest outcome within goes
      exact ⟨.performed answer goes', List.forall_mem_cons.mpr ⟨warranted, warrants⟩, holds⟩

/-- Programs that call the same function mirror each other if what follows does. -/
theorem mirrors_ask {call : Call U} {next next' : call.Answer → Program U α}
    (returns : ∀ answer, moment.Did id (.returned call answer) → ∀ later,
      Mirrors moment id post (next answer) (next' answer) later) :
    Mirrors moment id post (ask call next) (ask call next') before := by
  intro events outcome within goes
  cases goes with
  | begun => exact ⟨.begun _, by simp, nofun⟩
  | calling => exact ⟨.calling call next', by simp [Warrants], nofun⟩
  | @called _ _ answer rest _ goes =>
      have split : before ++ .called call :: .returned call answer :: rest =
          before ++ [.called call, .returned call answer] ++ rest := by simp
      rw [split] at within ⊢
      have did : moment.Did id (.returned call answer) :=
        mem_doings.mp (within.subset (by simp))
      obtain ⟨goes', warrants, holds⟩ := returns answer did _ rest outcome within goes
      exact ⟨.called answer goes', by simpa [Warrants] using warrants, holds⟩

/-- One program after another. -/
theorem Mirrors.andThen {middle : List (Event U) → α → Prop} {post : List (Event U) → β → Prop}
    {program other : Program U α} {next next' : α → Program U β}
    (first : Mirrors moment id middle program other before)
    (second : ∀ result soFar, before <+: soFar → middle soFar result →
      Mirrors moment id post (next result) (next' result) soFar) :
    Mirrors moment id post (program.andThen next) (other.andThen next') before := by
  intro events outcome within goes
  rcases goes_andThen.mp goes with ⟨rfl, begins⟩ | ⟨front, result, rest, rfl, begins, ends⟩
  · obtain ⟨mirrored, warrants, _⟩ := first events none within begins
    exact ⟨goes_andThen.mpr (.inl ⟨rfl, mirrored⟩), warrants, nofun⟩
  · rw [← List.append_assoc] at within ⊢
    obtain ⟨mirrored, warrants, holds⟩ :=
      first front (some result) ((List.prefix_append ..).trans within) begins
    obtain ⟨mirrored', warrants', holds'⟩ := second result _ (List.prefix_append ..)
      (holds result rfl) rest outcome within ends
    refine ⟨goes_andThen.mpr (.inr ⟨front, result, rest, rfl, mirrored, mirrored'⟩), ?_, holds'⟩
    exact fun event member => (List.mem_append.mp member).elim (warrants event) (warrants' event)

theorem Mirrors.mono {weaker : List (Event U) → α → Prop} {program other : Program U α}
    (mirrors : Mirrors moment id post program other before)
    (implies : ∀ soFar result, post soFar result → weaker soFar result) :
    Mirrors moment id weaker program other before := by
  intro events outcome within goes
  obtain ⟨goes', warrants, holds⟩ := mirrors events outcome within goes
  exact ⟨goes', warrants, fun result same => implies _ _ (holds result same)⟩

/-- A program that keeps nothing mirrors itself. -/
theorem Only.mirrors {own : Event U → Prop} {yields : α → Prop} {program : Program U α}
    (only : program.Only own yields) (warrants : ∀ event, own event → moment.Warrants id event)
    (implies : ∀ soFar result, yields result → post soFar result) :
    Mirrors moment id post program program before := by
  induction program generalizing before with
  | done result => exact mirrors_done (implies before result only)
  | perform operation next ih =>
      exact mirrors_perform fun answer _ => ⟨warrants _ (only answer).1, ih answer (only answer).2⟩
  | ask call next ih => exact mirrors_ask fun answer _ _ => ih answer (only.2 answer).2
  | never => exact only.elim

end Program

namespace Request

/-- What a request came to: one statement about a value and one about an error. -/
def Comes (typed : List (Event U) → α → Prop) (failed : Error → Prop) (soFar : List (Event U)) :
    Except Error α → Prop
  | .ok value => typed soFar value
  | .error error => failed error

/-- A request is, as far as it was run, what another one is. -/
abbrev Mirrors (moment : Moment U) (id : RequestId) (typed : List (Event U) → α → Prop)
    (failed : Error → Prop) (request other : Request U α) (before : List (Event U)) : Prop :=
  Program.Mirrors moment id (Comes typed failed) request.run other.run before

variable {moment : Moment U} {id : RequestId} {before : List (Event U)}
  {typed : List (Event U) → α → Prop} {failed : Error → Prop}

theorem mirrors_pure {value : α} (holds : typed before value) :
    Mirrors moment id typed failed (pure value) (pure value) before :=
  Program.mirrors_done holds

theorem mirrors_fail {error : Error} (fails : failed error) :
    Mirrors moment id typed failed (fail error) (fail error) before :=
  Program.mirrors_done fails

theorem mirrors_ofExcept {outcome : Except Error α} (comes : Comes typed failed before outcome) :
    Mirrors moment id typed failed (ofExcept outcome) (ofExcept outcome) before :=
  Program.mirrors_done comes

/-- Say less of the values and of the errors that a request comes to. -/
theorem Mirrors.imp {typed' : List (Event U) → α → Prop} {failed' : Error → Prop}
    {request other : Request U α} (mirrors : Mirrors moment id typed failed request other before)
    (values : ∀ soFar value, typed soFar value → typed' soFar value)
    (errors : ∀ error, failed error → failed' error) :
    Mirrors moment id typed' failed' request other before := by
  refine mirrors.mono fun soFar outcome comes => ?_
  cases outcome with
  | ok value => exact values soFar value comes
  | error error => exact errors error comes

/-- One request after another. -/
theorem Mirrors.bind {typed' : List (Event U) → β → Prop} {request other : Request U α}
    {next next' : α → Request U β} (first : Mirrors moment id typed failed request other before)
    (second : ∀ value soFar, before <+: soFar → typed soFar value →
      Mirrors moment id typed' failed (next value) (next' value) soFar) :
    Mirrors moment id typed' failed (request >>= next) (other >>= next') before := by
  refine Program.Mirrors.andThen first fun outcome soFar grown comes => ?_
  cases outcome with
  | ok value => exact second value soFar grown comes
  | error error => exact Program.mirrors_done comes

/-- Requests that begin with the same operation mirror each other if what follows does. -/
theorem mirrors_bind_act {operation : Operation U} {next next' : operation.Answer → Request U α}
    (performs : ∀ answer, before ++ [.performed operation answer] <+: moment.doings id →
      moment.Warrants id (.performed operation answer) ∧
        Mirrors moment id typed failed (next answer) (next' answer)
          (before ++ [.performed operation answer])) :
    Mirrors moment id typed failed (act operation >>= next) (act operation >>= next') before :=
  Program.mirrors_perform performs

/-- Requests that begin with the same call mirror each other if what follows does. -/
theorem mirrors_bind_call {call : Call U} {next next' : call.Answer → Request U α}
    (returns : ∀ answer, moment.Did id (.returned call answer) → ∀ later,
      Mirrors moment id typed failed (next answer) (next' answer) later) :
    Mirrors moment id typed failed (callClient call >>= next) (callClient call >>= next') before :=
  Program.mirrors_ask returns

/-- A program that cannot fail, and then a request. -/
theorem mirrors_bind_lift {middle : List (Event U) → α → Prop}
    {typed' : List (Event U) → β → Prop} {program other : Program U α}
    {next next' : α → Request U β} (first : Program.Mirrors moment id middle program other before)
    (second : ∀ result soFar, before <+: soFar → middle soFar result →
      Mirrors moment id typed' failed (next result) (next' result) soFar) :
    Mirrors moment id typed' failed (ExceptT.lift program >>= next)
      (ExceptT.lift other >>= next') before := by
  have lifted : Mirrors moment id middle failed (ExceptT.lift program) (ExceptT.lift other)
      before :=
    Program.Mirrors.andThen first fun _ _ _ holds => Program.mirrors_done holds
  exact lifted.bind second

/-- An outcome that is known, and another request if it is a value. -/
theorem mirrors_bind_ofExcept {typed' : List (Event U) → β → Prop} {outcome : Except Error α}
    {next next' : α → Request U β} {earlier : List (Event U)}
    (comes : Comes typed failed earlier outcome)
    (second : ∀ value, typed earlier value →
      Mirrors moment id typed' failed (next value) (next' value) before) :
    Mirrors moment id typed' failed (ofExcept outcome >>= next) (ofExcept outcome >>= next')
      before := by
  cases outcome with
  | ok value => exact second value comes
  | error error => exact Program.mirrors_done comes

/-- A request, and another in its place if it fails. -/
theorem Mirrors.tryCatch {failed' : Error → Prop} {request other : Request U α}
    {handle handle' : Error → Request U α}
    (first : Mirrors moment id typed failed request other before)
    (handles : ∀ error soFar, failed error →
      Mirrors moment id typed failed' (handle error) (handle' error) soFar) :
    Mirrors moment id typed failed' (tryCatch request handle) (tryCatch other handle') before := by
  refine Program.Mirrors.andThen first fun outcome soFar _ comes => ?_
  cases outcome with
  | ok value => exact Program.mirrors_done comes
  | error error => exact handles error soFar comes

end Request

/-! ## Making values -/

/-- A value has a type, whatever was done so far. -/
abbrev OfType (type : ServiceType) (_ : List (Event U)) (value : Value U) : Prop :=
  value.type = type

/-- Errors other than mismatches of types need no explanation. -/
theorem Moment.explains_of_ne {moment : Moment U} {id : RequestId} {error : Error}
    (other : ∀ key, error.root ≠ .typeMismatch key) : moment.Explains id error :=
  fun key isMismatch => absurd isMismatch (other key)

section Making

variable {moment : Moment U} {id : RequestId} {before : List (Event U)} {guards : Guards U}
  (lenient : guards.Lenient)

open Request

/-- Looking at a context has no guards. -/
theorem mirrors_ensureUsable (context : ContextId) :
    Mirrors moment id (fun _ _ => True) (moment.Explains id) (ensureUsable context)
      (ensureUsable context) before := by
  refine mirrors_bind_act fun answer _ => ⟨trivial, ?_⟩
  cases answer with
  | none => exact mirrors_pure trivial
  | some reason => exact mirrors_fail (explains_of_ne nofun)

/-- Looking whether a scope is open has no guards. -/
theorem mirrors_ensureOpen (scope : ScopeId) :
    Mirrors moment id (fun _ _ => True) (moment.Explains id) (ensureOpen scope)
      (ensureOpen scope) before := by
  refine mirrors_bind_act fun closed _ => ⟨trivial, ?_⟩
  cases closed with
  | false => exact mirrors_pure trivial
  | true => exact mirrors_fail (explains_of_ne nofun)

/-- Finding the scope that keeps a value has no guards. -/
theorem mirrors_effectiveScope (scope : Scope U) (key : Key) (binding : Binding U) :
    Mirrors moment id (fun _ home => binding.home? scope = some home) (moment.Explains id)
      (effectiveScope scope key binding) (effectiveScope scope key binding) before := by
  unfold effectiveScope Binding.home?
  cases binding.recipe.lifetime with
  | singleton =>
      cases scope.ancestor? binding.owner with
      | none => exact mirrors_fail (explains_of_ne nofun)
      | some owner =>
          exact (mirrors_ensureOpen owner.id).bind fun _ _ _ _ => mirrors_pure rfl
  | perScope =>
      by_cases owns : scope.id = binding.owner
      · simp only [owns, if_true]
        exact mirrors_fail (explains_of_ne nofun)
      · simp only [owns, if_false]
        exact mirrors_pure rfl
  | transient => exact mirrors_pure rfl

include lenient

/-- A value of the type that a recipe makes is converted to the type of a view. -/
theorem mirrors_convert {binding : Binding U} {value : Value U}
    (uncast : binding.cast = none → value.type = binding.registered.type)
    (produced : value.type = binding.recipe.produces) (scope : ScopeId) (key : Key) :
    Mirrors moment id (OfType binding.registered.type) (moment.Explains id)
      (binding.convert scope key value) (guards.convert binding scope key value) before := by
  unfold Binding.convert Guards.convert
  cases isCast : binding.cast with
  | none => exact mirrors_pure (uncast isCast)
  | some cast =>
      simp only [produced, lenient.passes_of_eq produced]
      exact mirrors_bind_call fun content _ _ => mirrors_pure rfl

/-- Lenient guards take an argument that fits. -/
theorem Guards.Lenient.takes {param : Param} {argument : Argument U}
    (fit : Fits Typed param argument) :
    guards.takes param (some argument) = Provision.takes param argument := by
  have suits : Guards.exact.suits param (some argument) = true := by
    cases fit with
    | context context => rfl
    | scope handle => rfl
    | service typed => exact decide_eq_true typed
  rw [← Guards.exact_takes]
  unfold Guards.takes
  rw [suits, lenient.suits _ _ suits]

/-- Arguments of the kinds and types of their parameters are taken unless a parameter refuses. -/
theorem mirrors_takeAll {params : List Param} {arguments : List (Argument U)}
    (fits : List.Forall₂ (Fits Typed) params arguments) :
    Mirrors moment id (fun _ _ => True) (moment.Explains id) (takeAll params arguments)
      (guards.takeAll params arguments) before := by
  induction fits generalizing before with
  | nil => exact mirrors_pure trivial
  | @cons param argument params arguments fit _ ih =>
      rw [takeAll, Guards.takeAll, List.head?_cons, List.tail_cons, lenient.takes fit]
      cases fit with
      | context context => exact ih
      | scope handle => exact ih
      | @service key value typed =>
          rw [takes_typed typed]
          refine mirrors_bind_call fun accepted did _ => ?_
          cases accepted with
          | true => exact ih
          | false =>
              refine mirrors_fail fun other isMismatch => ⟨value, did, ?_⟩
              cases isMismatch
              exact congrArg Key.of (Eq.symm typed)

/-- A closer is given the value that it takes. -/
theorem mirrors_attachCloser {recipe : Recipe U} {subject : Value U}
    (produced : subject.type = recipe.produces) (scope : ScopeId) (context : ContextId) :
    Mirrors moment id (fun _ _ => True) (moment.Explains id)
      (attachCloser scope context recipe subject)
      (guards.attachCloser scope context recipe subject) before := by
  unfold attachCloser Guards.attachCloser
  rw [lenient.closerFor? produced]
  cases recipe.closerFor? subject with
  | none => exact mirrors_pure trivial
  | some closer =>
      refine mirrors_bind_act fun attached _ => ⟨trivial, ?_⟩
      cases attached with
      | true => exact mirrors_bind_call fun _ _ _ => mirrors_pure trivial
      | false =>
          refine mirrors_bind_call fun failure _ _ => ?_
          cases failure with
          | none => exact mirrors_fail (explains_of_ne nofun)
          | some failure =>
              exact mirrors_bind_call fun _ _ _ => mirrors_fail (explains_of_ne nofun)

omit lenient in

/-- A list has as many items as there are parameters for it. -/
theorem length_itemsOf {item : ServiceType} {params : List Param} {arguments : List (Argument U)}
    (fits : List.Forall₂ (Fits Typed) params arguments)
    (listed : ∀ param ∈ params, ∃ index, param = .service (.item item index)) :
    (itemsOf item arguments).length = params.length := by
  obtain ⟨values, rfl, length, typed⟩ := services_of_fits fits listed
  rw [itemsOf_services typed, List.length_map, length]

/-- The items of a list are gathered without leaving any out. -/
theorem Guards.Lenient.itemsOf {item : ServiceType} {params : List Param}
    {arguments : List (Argument U)} (fits : List.Forall₂ (Fits Typed) params arguments)
    (listed : ∀ param ∈ params, ∃ index, param = .service (.item item index)) :
    guards.itemsOf item arguments = Provision.itemsOf item arguments := by
  obtain ⟨values, rfl, _, typed⟩ := services_of_fits fits listed
  rw [Provision.itemsOf_services typed,
    Guards.itemsOf_services fun value member => lenient.passes_of_eq (typed value member)]

/-- Producing an instance goes the same way under lenient guards. -/
theorem mirrors_produce {recipe : Recipe U} {arguments : List (Argument U)}
    (fits : List.Forall₂ (Fits Typed) recipe.params arguments)
    (listed : ∀ item, recipe.source = .list item →
      ∀ param ∈ recipe.params, ∃ index, param = .service (.item item index))
    (scope : ScopeId) :
    Mirrors moment id (OfType recipe.produces) (moment.Explains id)
      (recipe.produce scope arguments) (guards.produce recipe scope arguments) before := by
  unfold Recipe.produce Guards.produce
  cases source : recipe.source with
  | value content => exact mirrors_pure rfl
  | list item =>
      simp only [lenient.itemsOf fits (listed item source)]
      exact mirrors_pure rfl
  | factory make =>
      refine (mirrors_takeAll lenient fits).bind fun _ _ _ _ => ?_
      refine mirrors_bind_call fun answer _ _ => ?_
      cases answer with
      | ok content => exact mirrors_pure rfl
      | error failure => exact mirrors_fail (explains_of_ne nofun)

/-- Constructing an instance goes the same way under lenient guards. -/
theorem mirrors_construct {recipe : Recipe U} {arguments : List (Argument U)}
    (fits : List.Forall₂ (Fits Typed) recipe.params arguments)
    (listed : ∀ item, recipe.source = .list item →
      ∀ param ∈ recipe.params, ∃ index, param = .service (.item item index))
    (scope : ScopeId) (context : ContextId) (flag : FlagId) (closeMade : Bool) :
    Mirrors moment id (OfType recipe.produces) (moment.Explains id)
      (construct scope context recipe arguments flag closeMade)
      (guards.construct scope context recipe arguments flag closeMade) before := by
  refine (mirrors_ensureUsable context).bind fun _ _ _ _ => ?_
  refine mirrors_bind_call fun _ _ _ => ?_
  refine mirrors_bind_lift (mirrors_produce lenient fits listed scope)
    fun outcome _ _ comes => ?_
  refine mirrors_bind_act fun _ _ => ⟨trivial, ?_⟩
  refine mirrors_bind_ofExcept comes fun made produced => ?_
  refine (mirrors_ensureUsable context).bind fun _ _ _ _ => ?_
  cases closeMade with
  | false => exact mirrors_pure produced
  | true =>
      refine (mirrors_attachCloser lenient produced scope context).bind fun _ _ _ _ => ?_
      exact mirrors_pure produced

/-- A decorator is applied to a value of the type that it decorates. -/
theorem mirrors_apply {stage : Stage U} {value : Value U}
    (typed : value.type = stage.decorator.target.type)
    (fits : List.Forall₂ (Fits Typed) stage.decorator.params stage.arguments) (site : Site U) :
    Mirrors moment id (OfType stage.decorator.target.type) (moment.Explains id)
      (stage.apply site value) (guards.apply stage site value) before := by
  unfold Stage.apply Guards.apply
  rw [if_pos typed, if_pos (lenient.passes_of_eq typed)]
  refine (mirrors_takeAll lenient fits).bind fun _ _ _ _ => ?_
  refine mirrors_bind_call fun answer _ _ => ?_
  cases answer with
  | ok content => exact mirrors_pure rfl
  | error failure => exact mirrors_fail (explains_of_ne nofun)

/-- Decorating a value goes the same way under lenient guards. -/
theorem mirrors_decorateAll {stages : List (Stage U)} {type : ServiceType}
    (targets : ∀ stage ∈ stages, stage.decorator.target.type = type)
    (fits : ∀ stage ∈ stages,
      List.Forall₂ (Fits Typed) stage.decorator.params stage.arguments)
    {value : Value U} (typed : value.type = type) (site : Site U) :
    Mirrors moment id (OfType type) (moment.Explains id) (decorateAll site stages value)
      (guards.decorateAll site stages value) before := by
  induction stages generalizing value before with
  | nil => exact mirrors_pure typed
  | cons stage stages ih =>
      have isTarget := targets stage List.mem_cons_self
      refine mirrors_bind_lift (mirrors_apply lenient (typed.trans isTarget.symm)
        (fits stage List.mem_cons_self) site) fun outcome _ _ comes => ?_
      refine mirrors_bind_act fun _ _ => ⟨trivial, ?_⟩
      refine mirrors_bind_ofExcept comes fun decorated isDecorated => ?_
      exact ih (fun other member => targets other (List.mem_cons_of_mem _ member))
        (fun other member => fits other (List.mem_cons_of_mem _ member))
        (Eq.trans isDecorated isTarget)

/-- Finishing a value goes the same way under lenient guards. -/
theorem mirrors_finish {binding : Binding U} {stages : List (Stage U)} {made : Value U}
    (produced : made.type = binding.recipe.produces)
    (uncast : binding.cast = none → binding.recipe.produces = binding.registered.type)
    (targets : ∀ stage ∈ stages, stage.decorator.target.type = binding.registered.type)
    (fits : ∀ stage ∈ stages,
      List.Forall₂ (Fits Typed) stage.decorator.params stage.arguments)
    (scope : ScopeId) (context : ContextId) (key : Key) :
    Mirrors moment id (OfType binding.registered.type) (moment.Explains id)
      (finish scope context key binding stages made)
      (guards.finish scope context key binding stages made) before := by
  refine (mirrors_convert lenient (fun isNone => produced.trans (uncast isNone)) produced scope
    key).bind fun converted _ _ typed => ?_
  refine (mirrors_decorateAll lenient targets fits typed _).bind fun value _ _ typed => ?_
  by_cases isNone : binding.cast.isNone = true
  · have subject : value.type = binding.recipe.produces :=
      Eq.trans typed (uncast (Option.isNone_iff_eq_none.mp isNone)).symm
    have same : guards.closeSubject binding.recipe made value =
        binding.recipe.closeSubject made value := by
      unfold Guards.closeSubject Recipe.closeSubject
      rw [lenient.closerFor? subject]
    have isSubject : (binding.recipe.closeSubject made value).type = binding.recipe.produces := by
      unfold Recipe.closeSubject
      split
      · exact produced
      · exact subject
    simp only [isNone, if_true, same]
    refine (mirrors_attachCloser lenient isSubject scope context).bind fun _ _ _ _ => ?_
    exact mirrors_pure typed
  · simp only [isNone]
    exact mirrors_pure typed

end Making

end Provision
