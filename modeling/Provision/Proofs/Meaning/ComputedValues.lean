import Provision.Proofs.Resolution.MakingValues
import Provision.Proofs.Meaning.KeyMeaning
import Provision.Proofs.Registries.BuiltRegistries

/-!
# Making what the functions of the client say

As long as the functions of the client do what is said of them, making an instance of some
arguments applies the constructor to the services among them, and finishing it converts it and
applies the decorators in order.  If either fails, that is not due to the functions: the context
was done, or the scope was closed before it took a closer.

Main statements: `Functions.keeps_construct` and `Functions.keeps_finish`.
-/

namespace Provision

open Moment

variable {U : Client}

/-! ## Functions that do as they should -/

namespace Moment

variable {moment next : Moment U} {functions : Functions U}

/-- Clients built scopes of registrations that they can make, and their functions do what is said
of them. -/
structure Honest (moment : Moment U) (functions : Functions U) : Prop where
  registers : moment.Registers
  answers : ∀ {id call answer}, moment.Did id (.returned call answer) →
    functions.Answers call answer

theorem Honest.mono (honest : next.Honest functions) (grows : moment.history <:+ next.history) :
    moment.Honest functions where
  registers := honest.registers.mono grows
  answers := fun returned => honest.answers (grows.mem returned)

/-- A function that is honest answers as it should. -/
theorem Honest.answer (honest : next.Honest functions) {middle : Moment U} {id : RequestId}
    {call : Call U} {answer : call.Answer}
    (returned : moment.Records ⟨id, .returned call answer⟩ middle)
    (grows : middle.history <:+ next.history) : functions.Answers call answer :=
  honest.answers (grows.mem returned.did)

/-- Why a request may fail while it makes a value for a scope: the scope was closed before it took
a closer, or a context was done. -/
def Excused (moment : Moment U) (id : RequestId) (scope : ScopeId) : Prop :=
  (∃ closer, moment.Did id (.performed (.attach scope closer) false)) ∨
    ∃ context reason, moment.Did id (.performed (.contextError context) (some reason))

theorem Excused.mono {id : RequestId} {scope : ScopeId} (excused : moment.Excused id scope)
    (grows : moment.history <:+ next.history) : next.Excused id scope :=
  excused.imp (fun ⟨closer, did⟩ => ⟨closer, grows.mem did⟩) fun ⟨context, reason, did⟩ =>
    ⟨context, reason, grows.mem did⟩

end Moment

/-- How making something for a scope ends: with what is good if the functions do what is said of
them, or with an excuse. -/
abbrev Functions.Ends {α : Type} (functions : Functions U) (id : RequestId) (scope : ScopeId)
    (good : α → Prop) : Except Error α → Moment U → Prop :=
  Provision.Ends (fun value moment => moment.Honest functions → good value)
    fun _ moment => moment.Honest functions → moment.Excused id scope

namespace Functions

/-- Some content after decorators, each applied with its arguments. -/
def applied (functions : Functions U) (site : Site U) (stages : List (Stage U))
    (content : Content U) : Content U :=
  stages.foldl (fun content stage => functions.decorate site stage.decorator.target
    stage.decorator.transform content (servicesOf stage.arguments)) content

section Requests

variable (functions : Functions U) {rely guar : Conduct U} {id : RequestId} {start : Moment U}
  {scope : ScopeId}

variable {functions} in
/-- One request after another. -/
theorem keeps_bind {α β : Type} {first : Request U α} {next : α → Request U β} {good : α → Prop}
    {good' : β → Prop}
    (begins : Request.Keeps rely guar id (functions.Ends id scope good) first start)
    (goesOn : ∀ value moment, (moment.Honest functions → good value) →
      Request.Keeps rely guar id (functions.Ends id scope good') (next value) moment) :
    Request.Keeps rely guar id (functions.Ends id scope good') (first >>= next) start :=
  Request.keeps_bind begins (fun _ _ _ excused => excused) fun value moment _ holds =>
    goesOn value moment holds

variable {functions} in
/-- What is known before a request is known when it ends. -/
theorem keeps_known {α : Type} {request : Request U α} {good good' : α → Prop} {known : Prop}
    (knows : start.Honest functions → known)
    (keeps : Request.Keeps rely guar id (functions.Ends id scope good) request start)
    (implies : ∀ value, known → good value → good' value) :
    Request.Keeps rely guar id (functions.Ends id scope good') request start := by
  refine (Program.Keeps.grows keeps).mono ?_
  rintro (error | value) moment _ ⟨grows, ends⟩
  · exact ends
  · exact fun honest => implies value (knows (honest.mono grows)) (ends honest)

variable (harmless : ∀ {moment event}, event.Making → guar moment ⟨id, event⟩)

include harmless

/-- Looking at a context ends well or excuses. -/
theorem keeps_ensureUsable (context : ContextId) :
    Request.Keeps rely guar id (functions.Ends id scope fun _ => True) (ensureUsable context)
      start := by
  refine Request.keeps_bind_act fun moment answer after _ _ recorded => ⟨harmless trivial, ?_⟩
  cases answer with
  | none => exact Request.keeps_pure fun _ _ _ _ => trivial
  | some reason =>
      refine Request.keeps_fail fun last passage _ _ => .inr ⟨context, reason, ?_⟩
      exact passage.suffix.mem recorded.did

/-- Reporting a notice ends well. -/
theorem keeps_report (notice : Notice) :
    Request.Keeps rely guar id (functions.Ends id scope fun _ => True)
      (Request.report notice : Request U Unit) start :=
  fun _ _ _ => ⟨harmless trivial, fun _ _ _ _ _ _ _ _ =>
    ⟨harmless trivial, fun _ _ _ _ => trivial⟩⟩

/-- A closer comes too late only if its scope is closed. -/
theorem keeps_attachCloser (context : ContextId) (recipe : Recipe U) (subject : Value U) :
    Request.Keeps rely guar id (functions.Ends id scope fun _ => True)
      (attachCloser scope context recipe subject) start := by
  unfold attachCloser
  cases recipe.closerFor? subject with
  | none => exact Request.keeps_pure fun _ _ _ _ => trivial
  | some closer =>
      refine Request.keeps_bind_act fun moment attached after _ _ recorded =>
        ⟨harmless trivial, ?_⟩
      cases attached with
      | true => exact keeps_report functions harmless _
      | false =>
          refine Request.keeps_bind_call fun called passage _ => ⟨harmless trivial, ?_⟩
          intro begun began later passage' _ failure returned ends
          have refused : returned.Excused id scope :=
            .inl ⟨closer, ends.suffix.mem (passage'.suffix.mem (began.suffix.mem
              (passage.suffix.mem recorded.did)))⟩
          refine ⟨harmless trivial, ?_⟩
          cases failure with
          | none => exact Request.keeps_fail fun last passage _ _ => refused.mono passage.suffix
          | some failure =>
              refine Request.keeps_bind_call fun called passage _ => ⟨harmless trivial, ?_⟩
              intro begun began later passage' _ _ reported ends'
              have refused := refused.mono (passage.suffix.trans (began.suffix.trans
                (passage'.suffix.trans ends'.suffix)))
              exact ⟨harmless trivial, Request.keeps_fail fun last passage _ _ =>
                refused.mono passage.suffix⟩

/-- Arguments of the right types are taken. -/
theorem keeps_takeAll {params : List Param} {arguments : List (Argument U)}
    (fits : List.Forall₂ (Fits Typed) params arguments) :
    Request.Keeps rely guar id (functions.Ends id scope fun _ => True)
      (takeAll params arguments) start := by
  induction fits generalizing start with
  | nil => exact Request.keeps_pure fun _ _ _ _ => trivial
  | @cons param argument params arguments fit _ ih =>
      cases fit with
      | context context => exact ih
      | scope handle => exact ih
      | @service key value typed =>
          rw [takeAll, takes_typed typed]
          refine Request.keeps_bind_call fun _ _ _ => ⟨harmless trivial, ?_⟩
          intro begun _ later _ _ accepted after returned
          refine ⟨harmless trivial, ?_⟩
          cases accepted with
          | true => exact ih
          | false =>
              refine Request.keeps_fail fun last passage _ honest => ?_
              cases honest.answer returned passage.suffix

/-- An instance is what the constructor makes of the services among its arguments. -/
theorem keeps_produce {recipe : Recipe U} {arguments : List (Argument U)}
    (fits : List.Forall₂ (Fits Typed) recipe.params arguments)
    (listed : ∀ item, recipe.source = .list item →
      itemsOf item arguments = (servicesOf arguments).map Value.content) :
    Request.Keeps rely guar id
      (functions.Ends id scope fun value : Value U =>
        value.content = functions.created ⟨scope, recipe⟩ (servicesOf arguments))
      (recipe.produce scope arguments) start := by
  unfold Recipe.produce created
  cases source : recipe.source with
  | value content => exact Request.keeps_pure fun _ _ _ _ => rfl
  | list item => exact Request.keeps_pure fun _ _ _ _ => congrArg _ (listed item source)
  | factory make =>
      refine keeps_bind (keeps_takeAll functions harmless fits) fun _ _ _ => ?_
      refine Request.keeps_bind_call fun _ _ _ => ⟨harmless trivial, ?_⟩
      intro begun _ later _ _ answer after returned
      refine ⟨harmless trivial, ?_⟩
      cases answer with
      | ok content =>
          refine Request.keeps_pure fun last passage _ honest => ?_
          exact Except.ok.inj (honest.answer returned passage.suffix)
      | error failure =>
          refine Request.keeps_fail fun last passage _ honest => ?_
          cases honest.answer returned passage.suffix

/-- What the functions lead to goes on to hold. -/
theorem idling_honest {good : Prop} :
    Idling rely guar id fun moment => moment.Honest functions → good :=
  .of_lasting (fun grows holds honest => holds (honest.mono grows)) fun _ _ idle =>
    harmless idle.making

/-- An idle request stays excused. -/
theorem idling_excused :
    Idling rely guar id fun moment => moment.Honest functions → moment.Excused id scope :=
  .of_lasting (fun grows excused honest => (excused (honest.mono grows)).mono grows) fun _ _ idle =>
    harmless idle.making

/-- An instance is what the constructor makes of the services among its arguments, and there is
one unless the context was done or the scope closed. -/
theorem keeps_construct {recipe : Recipe U} {arguments : List (Argument U)}
    (context : ContextId) (flag : FlagId) (closeMade : Bool)
    (fits : List.Forall₂ (Fits Typed) recipe.params arguments)
    (listed : ∀ item, recipe.source = .list item →
      itemsOf item arguments = (servicesOf arguments).map Value.content) :
    Request.Keeps rely guar id
      (functions.Ends id scope fun value : Value U =>
        value.content = functions.created ⟨scope, recipe⟩ (servicesOf arguments))
      (Provision.construct scope context recipe arguments flag closeMade) start := by
  refine Request.keeps_construct (idling_honest functions harmless)
    (keeps_ensureUsable functions harmless context)
    (fun _ _ => keeps_produce functions harmless fits listed)
    (Idling.keeps_raise (fun _ => idling_honest functions harmless)
      fun _ => idling_excused functions harmless) ?_ ?_ fun _ _ _ content => content
  · exact fun value _ content =>
      keeps_known content (keeps_ensureUsable functions harmless context) fun _ same _ => same
  · exact fun _ value _ _ content => keeps_known content
      (keeps_attachCloser functions harmless context recipe value) fun _ same _ => same

/-! ## Finishing -/

/-- Converting a value ends with what the conversion makes of it. -/
theorem keeps_convert {binding : Binding U} (wanted : Key) {value : Value U}
    (typed : value.type = binding.recipe.produces) :
    Request.Keeps rely guar id
      (functions.Ends id scope fun converted : Value U =>
        converted.content = functions.viewed ⟨scope, binding.recipe⟩ binding value.content)
      (binding.convert scope wanted value) start := by
  unfold Binding.convert viewed
  cases binding.cast with
  | none => exact Request.keeps_pure fun _ _ _ _ => rfl
  | some cast =>
      simp only [typed, if_true]
      refine Request.keeps_bind_call fun _ _ _ => ⟨harmless trivial, ?_⟩
      intro begun _ later _ _ answer after returned
      refine ⟨harmless trivial, Request.keeps_pure fun last passage _ honest => ?_⟩
      exact honest.answer returned passage.suffix

variable {site : Site U} {stage : Stage U} {stages : List (Stage U)}

/-- Applying a decorator ends with what it makes of the value. -/
theorem keeps_apply {value : Value U} (typed : value.type = stage.decorator.target.type)
    (fits : List.Forall₂ (Fits Typed) stage.decorator.params stage.arguments) :
    Request.Keeps rely guar id
      (functions.Ends id scope fun decorated : Value U =>
        decorated.content = functions.applied site [stage] value.content)
      (stage.apply site value) start := by
  unfold Stage.apply
  simp only [typed, if_true]
  refine keeps_bind (keeps_takeAll functions harmless fits) fun _ _ _ => ?_
  refine Request.keeps_bind_call fun _ _ _ => ⟨harmless trivial, ?_⟩
  intro begun _ later _ _ answer after returned
  refine ⟨harmless trivial, ?_⟩
  cases answer with
  | ok content =>
      refine Request.keeps_pure fun last passage _ honest => ?_
      exact Except.ok.inj (honest.answer returned passage.suffix)
  | error failure =>
      refine Request.keeps_fail fun last passage _ honest => ?_
      cases honest.answer returned passage.suffix

/-- The decorators that are still to come make a value what it is to become. -/
structure Leads (functions : Functions U) (site : Site U) (type : ServiceType)
    (final : Content U) (stages : List (Stage U)) (value : Value U) (moment : Moment U) : Prop where
  typed : value.type = type
  targets : ∀ stage ∈ stages, stage.decorator.target.type = type
  fits : ∀ stage ∈ stages, List.Forall₂ (Fits Typed) stage.decorator.params stage.arguments
  leads : moment.Honest functions → functions.applied site stages value.content = final

omit harmless in
variable {functions} in

theorem Leads.mono {type : ServiceType} {final : Content U} {value : Value U} {moment next : Moment U}
    (leads : functions.Leads site type final stages value moment)
    (grows : moment.history <:+ next.history) :
    functions.Leads site type final stages value next :=
  { leads with leads := fun honest => leads.leads (honest.mono grows) }

/-- Applying all decorators ends with what they make of the value. -/
theorem keeps_decorateAll {value : Value U} {type : ServiceType} (typed : value.type = type)
    (targets : ∀ stage ∈ stages, stage.decorator.target.type = type)
    (fits : ∀ stage ∈ stages, List.Forall₂ (Fits Typed) stage.decorator.params stage.arguments) :
    Request.Keeps rely guar id
      (functions.Ends id scope fun result : Value U =>
        result.content = functions.applied site stages value.content)
      (decorateAll site stages value) start := by
  refine (Request.keeps_decorateAll
    (functions.Leads site type (functions.applied site stages value.content))
    (fun _ moment => moment.Honest functions → moment.Excused id scope) ?_ ?_ ?_
    ⟨typed, targets, fits, fun _ => rfl⟩).mono ?_
  · intro stage stages value moment leads
    have isTarget := leads.targets stage List.mem_cons_self
    have applies : Request.Keeps rely guar id
        (functions.Ends id scope fun decorated : Value U =>
          decorated.content = functions.applied site [stage] value.content)
        (stage.apply site value) moment :=
      keeps_apply functions harmless (leads.typed.trans isTarget.symm)
        (leads.fits stage List.mem_cons_self)
    refine ((only_apply stage site value).along applies.grows).mono ?_
    rintro (error | decorated) last _ ⟨⟨grown, ends⟩, makes, _⟩
    · exact ends
    · refine ⟨(makes.type trivial decorated rfl).trans isTarget,
        fun other member => leads.targets other (List.mem_cons_of_mem _ member),
        fun other member => leads.fits other (List.mem_cons_of_mem _ member), fun honest => ?_⟩
      rw [ends honest]
      exact leads.leads (honest.mono grown)
  · exact fun _ stages => Idling.keeps_raise
      (fun _ => .of_lasting (fun grows leads => Leads.mono leads grows)
        fun _ _ idle => harmless idle.making) fun _ => idling_excused functions harmless
  · exact fun value _ _ passage leads => leads.mono passage.suffix
  · rintro (error | result) last _ ends
    · exact ends
    · exact ends.leads

/-- What is shown for a key is the instance, converted and decorated, and there is a value to show
unless the scope was closed. -/
theorem keeps_finish {binding : Binding U} (context : ContextId) (wanted : Key) {made : Value U}
    (typed : made.type = binding.recipe.produces)
    (uncast : binding.cast = none → binding.recipe.produces = binding.registered.type)
    (targets : ∀ stage ∈ stages, stage.decorator.target.type = binding.registered.type)
    (fits : ∀ stage ∈ stages, List.Forall₂ (Fits Typed) stage.decorator.params stage.arguments) :
    Request.Keeps rely guar id
      (functions.Ends id scope fun value : Value U =>
        value.content = functions.applied ⟨scope, binding.recipe⟩ stages
          (functions.viewed ⟨scope, binding.recipe⟩ binding made.content))
      (finish scope context wanted binding stages made) start := by
  refine Request.keeps_finish _ (keeps_convert functions harmless wanted typed) ?_ ?_
    fun _ _ _ content => content
  · intro converted moment isConverted viewed
    have type := isConverted.type (fun none => typed.trans (uncast none)) converted rfl
    refine keeps_known viewed (keeps_decorateAll functions harmless type targets fits) ?_
    intro value viewed content
    rw [content, viewed]
  · exact fun _ value _ content => keeps_known content
      (keeps_attachCloser functions harmless context binding.recipe _) fun _ same _ => same

end Requests

end Functions

end Provision
