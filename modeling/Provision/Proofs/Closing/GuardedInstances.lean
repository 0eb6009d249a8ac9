import Provision.Proofs.Closing.InstanceCustody

/-!
# Requests guard their instances

The proof that requests keep to `Conduct.custody`, along the text of resolution.  While parameters
are resolved a request has no instance.  It gets one from a constructor or, if the instance is kept,
by entering the cell of the value to show, and hands its closer over before it goes on.

Main statement: `kept_custody`.
-/

namespace Provision

open Moment

variable {U : Client}

/-- The events that mean nothing to instances, as long as the request has none: no turns, losses,
and closers of fixed values. -/
def Event.Light (event : Event U) : Prop :=
  event.GoesOn ∧
    match event.turn? with
    | none => True
    | some (.lose _) => True
    | some (.close _ closer) => closer.recipe.isFactory = false
    | some _ => False

theorem Event.Idle.light {event : Event U} (idle : event.Idle) : event.Light := by
  cases event with
  | performed operation answer =>
      refine ⟨trivial, ?_⟩
      cases operation with
      | contextError _ => cases answer <;> exact trivial
      | _ => first | exact trivial | exact idle.elim
  | called call => exact ⟨trivial, trivial⟩
  | returned call answer =>
      refine ⟨trivial, ?_⟩
      cases call with
      | accepts _ => cases answer <;> exact trivial
      | _ => first | exact trivial | exact idle.elim
  | started demand => exact idle.elim
  | finished reply => exact idle.elim

/-- Events of requests that do not resolve are light. -/
theorem Event.Tending.light {event : Event U} (tending : event.Tending) : event.Light := by
  cases event with
  | performed operation answer =>
      cases operation with
      | attach scope closer =>
          obtain ⟨content, source⟩ := tending
          refine ⟨trivial, ?_⟩
          simp only [turn?, Recipe.isFactory, source]
      | newScope => exact ⟨trivial, trivial⟩
      | shut _ => exact ⟨trivial, trivial⟩
      | discard _ => exact ⟨trivial, trivial⟩
      | _ => exact Event.Idle.light tending
  | called call => exact ⟨trivial, trivial⟩
  | returned call answer =>
      cases call with
      | close _ _ _ _ => exact ⟨trivial, trivial⟩
      | _ => exact Event.Idle.light tending
  | started demand => exact tending.elim
  | finished reply => exact tending.elim

section Requests

variable {rely : Conduct U} {id : RequestId} {start moment next : Moment U} {site : Site U}

/-! ## Requests that have nothing -/

/-- Whoever holds nothing keeps to the conduct by light events. -/
theorem Conduct.custody_of_light {event : Event U} (light : event.Light)
    (empty : moment.heldBy id = []) : Conduct.custody moment ⟨id, event⟩ := by
  refine ⟨fun turn turns => ?_, fun reply ended => absurd ended (light.1.unfinished reply)⟩
  have light := light.2
  rw [show event.turn? = some turn from turns] at light
  cases turn with
  | lose cause =>
      intro holding held
      rw [show moment.heldBy id = [] from empty] at held
      cases held
  | close scope closer =>
      have fixed : closer.recipe.isFactory = false := light
      refine ⟨fun factory => absurd (fixed.symm.trans factory) Bool.false_ne_true, ?_⟩
      rw [fixed]
      exact empty
  | gain _ _ => exact light.elim
  | renew _ _ _ => exact light.elim
  | store _ _ _ => exact light.elim
  | recover _ _ _ => exact light.elim

/-- Light events bring nothing to hold. -/
theorem Moment.Records.heldBy_of_light {event : Event U} (recorded : moment.Records ⟨id, event⟩ next)
    (light : event.Light) (empty : moment.heldBy id = []) : next.heldBy id = [] := by
  have light := light.2
  rcases recorded.books_cases with ⟨_, books⟩ | ⟨turn, turns, books⟩ <;> rw [heldBy, books]
  · exact empty
  rw [show event.turn? = some turn from turns] at light
  cases turn with
  | lose cause => exact Books.filter_heldByOthers_self
  | close scope closer => exact Books.filter_heldByOthers_self
  | gain _ _ => exact light.elim
  | renew _ _ _ => exact light.elim
  | store _ _ _ => exact light.elim
  | recover _ _ _ => exact light.elim

/-- Whoever holds nothing goes on holding nothing, whatever others do. -/
theorem stable_empty : Stable rely id Event.Light fun moment => moment.heldBy id = [] := by
  intro moment next passage empty
  induction passage with
  | refl => exact empty
  | contexts _ _ ih => exact ih
  | foreign _ recorded differs _ ih => exact (recorded.heldBy_of_ne differs).trans ih
  | own _ recorded light ih => exact recorded.heldBy_of_light light ih

/-- Whoever is free stays free, whatever others do. -/
theorem stable_free : Stable rely id Event.Light fun moment => moment.Free id := by
  intro moment next passage free
  refine ⟨stable_empty passage free.held, fun holding stored mine => ?_⟩
  refine free.unstored holding (passage.mem_stored ?_ stored mine) mine
  rintro event ⟨_, light⟩ scope recipe outcome turns
  rw [turns] at light
  exact light

/-- Requests that have no instance and make none. -/
theorem keeps_light {α : Type} {yields : α → Prop} {program : Program U α}
    (only : program.Only Event.Light yields) (empty : start.heldBy id = []) :
    program.Keeps rely Conduct.custody id
      (fun result moment => yields result ∧ moment.heldBy id = []) start :=
  only.upholds stable_empty (fun _ _ empty light => Conduct.custody_of_light light empty) empty

/-- A program of light events keeps to the conduct, and ends holding nothing. -/
theorem keeps_light_end {α : Type} {program : Program U α}
    (only : program.Only Event.Light fun _ => True) (empty : start.heldBy id = []) :
    program.Keeps rely Conduct.custody id (fun _ moment => moment.heldBy id = []) start :=
  (keeps_light only empty).mono fun _ _ _ reached => reached.2

/-- A program of light events keeps to the conduct, and ends free. -/
theorem keeps_free {α : Type} {yields : α → Prop} {program : Program U α}
    (only : program.Only Event.Light yields) (free : start.Free id) :
    program.Keeps rely Conduct.custody id
      (fun result moment => yields result ∧ moment.Free id) start :=
  only.upholds stable_free (fun _ _ free light => Conduct.custody_of_light light free.held) free

/-! ## Requests that have an instance -/

/-- A request has the one instance of a site with its present content, if it has to be closed. -/
abbrev Moment.Carries (moment : Moment U) (id : RequestId) (closes : Bool) (site : Site U)
    (content : Content U) : Prop :=
  Holding.Single closes site content (moment.heldBy id)

/-- All that is held while one instance is carried is that instance, as it is now. -/
theorem Moment.Carries.of_mem {closes : Bool} {content : Content U} {holding : Holding U}
    (carries : moment.Carries id closes site content) (held : holding ∈ moment.heldBy id) :
    closes = true ∧ holding.site = site ∧ holding.current = content := by
  cases closes with
  | false =>
      rw [show moment.heldBy id = [] from carries] at held
      cases held
  | true =>
      obtain ⟨only, mine, rest⟩ := carries
      rw [mine] at held
      obtain rfl := List.mem_singleton.mp held
      exact ⟨rfl, rest⟩

theorem Moment.Carries.later {closes : Bool} {content : Content U}
    (carries : moment.Carries id closes site content)
    (passage : Interference rely id moment next) : next.Carries id closes site content := by
  rw [Carries, passage.ofInterference.heldBy]
  exact carries

theorem Moment.Carries.after {closes : Bool} {content : Content U} {event : Event U}
    (carries : moment.Carries id closes site content)
    (recorded : moment.Records ⟨id, event⟩ next) (quiet : event.turn? = none) :
    next.Carries id closes site content := by
  rw [Carries, heldBy, recorded.books, Entry.keepBooks_of_none quiet]
  exact carries

/-- A turn of a request that has an instance. -/
theorem Conduct.custody_of_turn {event : Event U} {turn : Turn U} (turns : event.turn? = some turn)
    (may : moment.MayTurn id turn) : Conduct.custody moment ⟨id, event⟩ := by
  refine ⟨fun other turns' => ?_, fun reply ended => ?_⟩
  · cases turns.symm.trans turns'
    exact may
  · have ended : event = .finished reply := ended
    rw [ended] at turns
    cases turns

/-- What a request holds after a turn is what the turn leaves it. -/
theorem Moment.Records.heldBy_of_turn {event : Event U} {turn : Turn U}
    (recorded : moment.Records ⟨id, event⟩ next) (turns : event.turn? = some turn) :
    next.heldBy id = (moment.books.turn id turn).heldBy id := by
  rw [heldBy, recorded.books, Entry.keepBooks_of_turn turns]

/-- No turn of a request that holds something stores more than there was. -/
theorem Moment.Records.mem_stored_of_turn {event : Event U} {turn : Turn U} {holding : Holding U}
    (recorded : moment.Records ⟨id, event⟩ next) (turns : event.turn? = some turn)
    (stored : holding ∈ next.books.stored) :
    holding ∈ moment.books.stored ∨ holding ∈ moment.heldBy id := by
  rw [recorded.books, Entry.keepBooks_of_turn turns] at stored
  exact (Books.mem_stored_turn stored).imp_right And.left

/-- A request that loses what it has. -/
theorem Moment.Records.heldBy_of_lose {event cause : Event U}
    (recorded : moment.Records ⟨id, event⟩ next) (turns : event.turn? = some (.lose cause)) :
    next.heldBy id = [] :=
  (recorded.heldBy_of_turn turns).trans Books.filter_heldByOthers_self

/-- Taking an argument loses an instance only if the argument is refused. -/
theorem keeps_takeAll {params : List Param} {arguments : List (Argument U)} {closes : Bool}
    {content : Content U} (carries : start.Carries id closes site content)
    (fits : List.Forall₂ (Fits Typed) params arguments) :
    Request.Keeps rely Conduct.custody id
      (Ends (fun _ moment => moment.Carries id closes site content)
        fun _ moment => moment.heldBy id = [])
      (takeAll params arguments) start := by
  induction fits generalizing start with
  | nil => exact Request.keeps_pure fun moment passage _ => carries.later passage
  | cons fit _ ih =>
      have rest := ih carries
      cases fit with
      | context context => exact rest
      | scope handle => exact rest
      | @service key value typed =>
          simp only [takeAll, takes, typed]
          refine Request.keeps_bind_call fun called passage _ => ?_
          refine ⟨Conduct.custody_of_none rfl trivial, ?_⟩
          intro begun began later passage' _ accepted after returned
          have carries := ((carries.later passage).after began rfl).later passage'
          cases accepted with
          | true =>
              refine ⟨Conduct.custody_of_none rfl trivial, ?_⟩
              exact ih (carries.after returned rfl)
          | false =>
              refine ⟨Conduct.custody_of_turn rfl fun _ _ => trivial, ?_⟩
              have empty := returned.heldBy_of_lose rfl
              exact Request.keeps_fail fun last passage _ =>
                stable_empty passage.ofInterference empty

/-- Handing over the closer of the instance that a request has, if there is one. -/
theorem keeps_handOver {scope : ScopeId} {recipe : Recipe U} {subject : Value U}
    (context : ContextId) (typed : subject.type = recipe.produces)
    (made : recipe.closer.isSome = true → recipe.isFactory = true)
    (carries : start.Carries id recipe.closer.isSome ⟨scope, recipe⟩ subject.content) :
    Request.Keeps rely Conduct.custody id (fun _ moment => moment.heldBy id = [])
      (attachCloser scope context recipe subject) start := by
  unfold attachCloser Recipe.closerFor?
  cases closer : recipe.closer with
  | none =>
      rw [closer] at carries
      exact Request.keeps_pure fun moment passage _ => stable_empty passage.ofInterference carries
  | some close =>
      have closes : recipe.closer.isSome = true := by rw [closer]; rfl
      simp only [typed, if_true]
      refine Request.keeps_bind_act fun moment attached after passage _ recorded => ?_
      have carries := carries.later passage
      rw [closes, ← made closes] at carries
      refine ⟨Conduct.custody_of_turn rfl ⟨fun _ => closer, carries⟩, ?_⟩
      have empty : after.heldBy id = [] :=
        (recorded.heldBy_of_turn rfl).trans Books.filter_heldByOthers_self
      have called : ∀ call : Call U, (Event.called call).Light := fun _ => ⟨trivial, trivial⟩
      refine keeps_light_end ?_ empty
      cases attached with
      | true => exact ⟨called _, fun _ => ⟨Event.Idle.light trivial, trivial⟩⟩
      | false =>
          refine ⟨called _, fun failure => ⟨⟨trivial, trivial⟩, ?_⟩⟩
          cases failure with
          | none => exact trivial
          | some failure => exact ⟨called _, fun _ => ⟨Event.Idle.light trivial, trivial⟩⟩

/-! ## Constructing -/

/-- A request has the instance that a constructor has just returned, if it has to be closed. -/
def Moment.Gained (moment : Moment U) (id : RequestId) (site : Site U) (content : Content U) :
    Prop :=
  moment.heldBy id =
    if site.recipe.closer.isSome = true then [⟨id, site, content, content⟩] else []

/-- An instance that was gained is carried, if it has a closer. -/
theorem Moment.Gained.carries {content : Content U} (gained : moment.Gained id site content) :
    moment.Carries id site.recipe.closer.isSome site content := by
  unfold Gained at gained
  cases closes : site.recipe.closer.isSome with
  | false =>
      rw [closes, if_neg Bool.false_ne_true] at gained
      exact gained
  | true =>
      rw [closes, if_pos rfl] at gained
      exact ⟨_, gained, rfl, rfl⟩

/-- What was gained just now is still as it was made. -/
theorem Moment.Gained.fresh {content : Content U} (gained : moment.Gained id site content)
    {holding : Holding U} (held : holding ∈ moment.heldBy id) :
    holding.current = holding.origin := by
  rw [show moment.heldBy id = _ from gained] at held
  split at held
  · obtain rfl := List.mem_singleton.mp held
    rfl
  · cases held

theorem Moment.Gained.later {content : Content U} (gained : moment.Gained id site content)
    (passage : Passage rely id (fun event => event.turn? = none) moment next) :
    next.Gained id site content :=
  passage.heldBy.trans gained

/-- Producing an instance gains it, if it has a closer. -/
theorem keeps_gain {recipe : Recipe U} (scope : ScopeId) (arguments : List (Argument U))
    (closes : recipe.closer.isSome = true → recipe.isFactory = true)
    (empty : start.heldBy id = []) :
    Request.Keeps rely Conduct.custody id
      (Ends (fun value moment => moment.Gained id ⟨scope, recipe⟩ value.content)
        fun _ moment => moment.heldBy id = [])
      (recipe.produce scope arguments) start := by
  unfold Recipe.isFactory at closes
  have nothing : ∀ value : Value U, (recipe.closer.isSome = true → False) →
      Request.Keeps rely Conduct.custody id
        (Ends (fun value moment => moment.Gained id ⟨scope, recipe⟩ value.content)
          fun _ moment => moment.heldBy id = []) (pure value) start :=
    fun value unclosed => Request.keeps_pure fun moment passage _ =>
      (stable_empty passage.ofInterference empty).trans (if_neg unclosed).symm
  unfold Recipe.produce
  cases source : recipe.source with
  | value content =>
      rw [source] at closes
      exact nothing _ fun closed => Bool.false_ne_true (closes closed)
  | list item =>
      rw [source] at closes
      exact nothing _ fun closed => Bool.false_ne_true (closes closed)
  | factory make =>
      have takes := (only_takeAll recipe.params arguments).mono
        (fun _ taking => taking.idle.light) fun _ _ => trivial
      refine Request.keeps_bind (keeps_light_end takes empty) (fun _ _ _ empty => empty) ?_
      intro _ taken _ empty
      refine Request.keeps_bind_call fun called passage _ => ?_
      refine ⟨Conduct.custody_of_none rfl trivial, ?_⟩
      intro begun began later passage' _ answer after returned
      have called := stable_empty passage.ofInterference empty
      have began := began.heldBy_of_light ⟨trivial, trivial⟩ called
      have empty := stable_empty passage'.ofInterference began
      cases answer with
      | error failure =>
          refine ⟨Conduct.custody_of_none rfl trivial, Request.keeps_fail fun last passage _ => ?_⟩
          exact stable_empty passage.ofInterference
            (returned.heldBy_of_light ⟨trivial, trivial⟩ empty)
      | ok content =>
          have gained : after.Gained id ⟨scope, recipe⟩ content := by
            unfold Gained
            by_cases closed : recipe.closer.isSome = true
            · rw [if_pos closed, returned.heldBy_of_turn (if_pos closed)]
              change List.filter _ (_ :: later.books.held) = _
              rw [List.filter_cons_of_pos (by simp)]
              exact congrArg _ empty
            · have quiet : (Event.returned (.construct ⟨scope, recipe⟩ make arguments)
                  (.ok content)).turn? = none := if_neg closed
              rw [if_neg closed, heldBy, returned.books, Entry.keepBooks_of_none quiet]
              exact empty
          refine ⟨⟨fun turn turns => ?_, fun _ ended => (by cases ended)⟩, ?_⟩
          · obtain ⟨_, same⟩ := Option.ite_none_right_eq_some.mp turns
            cases same
            trivial
          · exact Request.keeps_pure fun last passage _ => gained.later passage.ofInterference

/-- A context that is found done right after a constructor loses the instance. -/
theorem keeps_usable_gained {content : Content U} (context : ContextId)
    (gained : start.Gained id site content) :
    Request.Keeps rely Conduct.custody id
      (Ends (fun _ moment => moment.Gained id site content) fun _ moment => moment.heldBy id = [])
      (ensureUsable context) start := by
  refine Request.keeps_bind_act fun moment found after passage _ recorded => ?_
  have gained := gained.later passage.ofInterference
  cases found with
  | none =>
      refine ⟨Conduct.custody_of_none rfl trivial, ?_⟩
      exact Request.keeps_pure fun last passage _ =>
        gained.later (.trans (.own (.refl _) recorded rfl) passage.ofInterference)
  | some reason =>
      refine ⟨Conduct.custody_of_turn rfl fun _ held => gained.fresh held, ?_⟩
      exact Request.keeps_fail fun last passage _ =>
        stable_empty passage.ofInterference (recorded.heldBy_of_lose rfl)

/-- A request that has nothing may idle. -/
theorem idling_empty : Idling rely Conduct.custody id fun moment => moment.heldBy id = [] where
  stable := fun passage => stable_empty (passage.mono fun _ => Event.Idle.light)
  harmless := fun _ _ empty idle => Conduct.custody_of_light idle.light empty

/-- Raising a flag leaves a request what it has. -/
theorem keeps_raise_held {α : Type} {flag : FlagId} {result : α → Moment U → Prop}
    (stays : ∀ value, Stable rely id (fun event => event.turn? = none) (result value))
    (outcome : Except Error α) (moment : Moment U)
    (ends : Ends result (fun _ moment => moment.heldBy id = []) outcome moment) :
    (Program.act (.raise flag)).Keeps rely Conduct.custody id
      (fun _ => Ends result (fun _ moment => moment.heldBy id = []) outcome) moment := by
  intro before passage _ answer after recorded
  refine ⟨Conduct.custody_of_none rfl trivial, fun last passage' _ => ?_⟩
  have quiet : Passage rely id (fun event => event.turn? = none) moment last :=
    .trans (.own passage.ofInterference recorded rfl) passage'.ofInterference
  cases outcome with
  | ok value => exact stays value quiet ends
  | error error => exact quiet.heldBy.trans ends

/-- What is left in the hands of a request that constructed an instance: nothing if the closer was
for the instance as it was made. -/
theorem keeps_construct_gained {recipe : Recipe U} (scope : ScopeId) (context : ContextId)
    (arguments : List (Argument U)) (flag : FlagId) (closeMade : Bool)
    (closes : recipe.closer.isSome = true → recipe.isFactory = true)
    (empty : start.heldBy id = []) :
    Request.Keeps rely Conduct.custody id
      (Ends (fun value moment =>
          moment.Carries id (!closeMade && recipe.closer.isSome) ⟨scope, recipe⟩ value.content)
        fun _ moment => moment.heldBy id = [])
      (construct scope context recipe arguments flag closeMade) start := by
  refine Request.keeps_construct idling_empty ?_
    (fun _ empty => keeps_gain scope arguments closes empty)
    (keeps_raise_held fun _ _ _ passage gained => Gained.later gained passage)
    (fun _ _ gained => keeps_usable_gained context gained) ?_ ?_
  · exact idling_empty.keeps_ends (only_ensureUsable context) (fun _ _ empty => empty) empty
  · rintro rfl value moment typed gained
    refine (keeps_handOver context typed closes (Gained.carries gained)).mono ?_
    rintro (error | _) _ _ empty
    · exact empty
    · exact empty
  · rintro rfl value moment gained
    exact Gained.carries gained

/-! ## Finishing -/

/-- A decorator makes something else of the instance, or loses it. -/
theorem keeps_apply_carried {stage : Stage U} {value : Value U} {closes : Bool}
    (carries : start.Carries id closes site value.content)
    (typed : value.type = stage.decorator.target.type)
    (fits : List.Forall₂ (Fits Typed) stage.decorator.params stage.arguments) :
    Request.Keeps rely Conduct.custody id
      (Ends (fun decorated moment => moment.Carries id closes site decorated.content)
        fun _ moment => moment.heldBy id = [])
      (stage.apply site value) start := by
  unfold Stage.apply
  simp only [typed, if_true]
  refine Request.keeps_bind (keeps_takeAll carries fits) (fun _ _ _ empty => empty) ?_
  intro _ taken _ carries
  have carries : taken.Carries id closes site value.content := carries
  refine Request.keeps_bind_call fun called passage _ => ?_
  refine ⟨Conduct.custody_of_none rfl trivial, ?_⟩
  intro begun began later passage' _ answer after returned
  have carries := ((carries.later passage).after began rfl).later passage'
  cases answer with
  | error failure =>
      refine ⟨Conduct.custody_of_turn rfl fun _ held => (carries.of_mem held).2, ?_⟩
      exact Request.keeps_fail fun last passage _ =>
        stable_empty passage.ofInterference (returned.heldBy_of_lose rfl)
  | ok content =>
      refine ⟨Conduct.custody_of_turn rfl fun _ held => (carries.of_mem held).2, ?_⟩
      refine Request.keeps_pure fun last passage _ => Carries.later ?_ passage
      have renewed : after.heldBy id =
          (later.books.heldBy id).map fun holding => { holding with current := content } := by
        rw [returned.heldBy_of_turn rfl]
        change List.filter _ (List.map _ _ ++ _) = _
        rw [List.filter_append, Books.filter_heldByOthers_self, List.append_nil,
          List.filter_eq_self]
        intro holding member
        obtain ⟨before, held, rfl⟩ := List.mem_map.mp member
        have mine : before.request = id := Books.request_of_mem_heldBy held
        exact decide_eq_true mine
      rw [Carries, renewed]
      cases closes with
      | false => exact congrArg _ carries
      | true =>
          obtain ⟨holding, mine, isSite, _⟩ := carries
          exact ⟨_, congrArg _ mine, isSite, rfl⟩

/-- What is known while decorators make something else of the instance that a request has. -/
structure Moment.Reworks (moment : Moment U) (id : RequestId) (closes : Bool) (site : Site U)
    (type : ServiceType) (stages : List (Stage U)) (value : Value U) : Prop where
  carries : moment.Carries id closes site value.content
  typed : value.type = type
  targets : ∀ stage ∈ stages, stage.decorator.target.type = type
  fits : ∀ stage ∈ stages, List.Forall₂ (Fits Typed) stage.decorator.params stage.arguments

theorem Moment.Reworks.later {closes : Bool} {type : ServiceType} {stages : List (Stage U)}
    {value : Value U} (reworks : moment.Reworks id closes site type stages value)
    (passage : Passage rely id (fun event => event.turn? = none) moment next) :
    next.Reworks id closes site type stages value :=
  { reworks with carries := by rw [Carries, passage.heldBy]; exact reworks.carries }

/-- Decorating all the way carries the instance along. -/
theorem keeps_decorateAll_carried {stages : List (Stage U)} {value : Value U} {closes : Bool}
    {type : ServiceType} (reworks : start.Reworks id closes site type stages value) :
    Request.Keeps rely Conduct.custody id
      (Ends (fun result moment => moment.Reworks id closes site type [] result)
        fun _ moment => moment.heldBy id = [])
      (decorateAll site stages value) start := by
  refine Request.keeps_decorateAll
    (fun stages value moment => moment.Reworks id closes site type stages value)
    (fun _ moment => moment.heldBy id = []) ?_
    (fun _ _ => keeps_raise_held fun _ _ _ passage reworks => Reworks.later reworks passage)
    (fun _ _ _ passage reworks => Reworks.later reworks passage.ofInterference) reworks
  intro stage stages value moment reworks
  have target := reworks.targets stage List.mem_cons_self
  refine ((only_apply stage site value).along (keeps_apply_carried reworks.carries
    (reworks.typed.trans target.symm) (reworks.fits stage List.mem_cons_self))).mono ?_
  rintro (error | decorated) last _ ⟨ends, makes, _⟩
  · exact ends
  · exact ⟨ends, (makes.type trivial decorated rfl).trans target,
      fun other member => reworks.targets other (List.mem_cons_of_mem _ member),
      fun other member => reworks.fits other (List.mem_cons_of_mem _ member)⟩

/-- A closer binds what was made, unless it was made into something of another type. -/
theorem Recipe.closeSubject_of_type {recipe : Recipe U} {decorated : Value U} (made : Value U)
    (typed : decorated.type = recipe.produces) : recipe.closeSubject made decorated = decorated := by
  unfold Recipe.closeSubject Recipe.closerFor?
  cases recipe.closer with
  | none => rfl
  | some close => simp [typed]

/-- Whatever becomes of it, a request that finishes an instance has none in the end. -/
theorem keeps_finish_carried {binding : Binding U} {stages : List (Stage U)} {made : Value U}
    (scope : ScopeId) (context : ContextId) (wanted : Key)
    (closes : binding.recipe.closer.isSome = true → binding.recipe.isFactory = true)
    (produces : binding.cast = none → binding.recipe.produces = binding.registered.type)
    (typed : made.type = binding.recipe.produces)
    (targets : ∀ stage ∈ stages, stage.decorator.target.type = binding.registered.type)
    (fits : ∀ stage ∈ stages, List.Forall₂ (Fits Typed) stage.decorator.params stage.arguments)
    (carries : start.Carries id binding.closesShown ⟨scope, binding.recipe⟩ made.content) :
    Request.Keeps rely Conduct.custody id (fun _ moment => moment.heldBy id = [])
      (finish scope context wanted binding stages made) start := by
  have converts : Request.Keeps rely Conduct.custody id
      (Ends (fun converted moment =>
          moment.Carries id binding.closesShown ⟨scope, binding.recipe⟩ converted.content)
        fun _ moment => moment.heldBy id = [])
      (binding.convert scope wanted made) start := by
    unfold Binding.convert Binding.closesShown at *
    cases cast : binding.cast with
    | none =>
        rw [cast] at carries
        exact Request.keeps_pure fun moment passage _ => carries.later passage
    | some cast' =>
        rw [cast] at carries
        have light : Request.Only Event.Light (fun _ => True)
            (do
              let content ← Request.callClient
                (.convert ⟨scope, binding.recipe⟩ binding.registered cast' made.content)
              pure { type := binding.registered.type, content } : Request U (Value U)) :=
          ⟨⟨trivial, trivial⟩, fun _ => ⟨⟨trivial, trivial⟩, trivial⟩⟩
        simp only [typed, if_true]
        refine (keeps_light_end light carries).mono ?_
        rintro (error | converted) moment _ empty
        · exact empty
        · exact empty
  have finishes : Request.Keeps rely Conduct.custody id
      (Ends (fun _ moment => moment.heldBy id = []) fun _ moment => moment.heldBy id = [])
      (finish scope context wanted binding stages made) start := by
    refine Request.keeps_finish _ converts (fun converted moment isConverted carries =>
      keeps_decorateAll_carried ⟨carries, isConverted.type (fun uncast => typed.trans
        (produces uncast)) converted rfl, targets, fits⟩) ?_ ?_
    · intro cast value moment reworks
      have subject := reworks.typed.trans (produces cast).symm
      have carries := reworks.carries
      rw [Binding.closesShown, cast] at carries
      rw [Recipe.closeSubject_of_type made subject]
      refine (keeps_handOver context subject closes carries).mono ?_
      rintro (error | _) _ _ empty
      · exact empty
      · exact empty
    · intro cast value moment reworks
      obtain ⟨cast', isCast⟩ := Option.ne_none_iff_exists'.mp cast
      have carries := reworks.carries
      rw [Binding.closesShown, isCast] at carries
      exact carries
  refine finishes.mono ?_
  rintro (error | _) _ _ empty
  · exact empty
  · exact empty

end Requests

/-! ## Cells -/

section Cells

variable {rely : Conduct U} {id : RequestId} {start : Moment U}
  (within : ∀ moment entry, rely moment entry →
    (Conduct.orderly.and (Conduct.growing.and (Conduct.keeping.and Conduct.custody))) moment entry)

theorem Moment.Unstored.later {moment next : Moment U} (unstored : moment.Unstored id)
    (passage : Passage rely id Event.Making moment next) : next.Unstored id := by
  intro holding stored mine
  refine unstored holding (passage.mem_stored ?_ stored mine) mine
  intro event making scope recipe outcome turns
  obtain rfl : event = _ := Event.turn?_of turns
  exact making

/-- What a request has of an instance that is ready to be finished: the instance itself, or if it is
kept, at most what is stored of it. -/
structure Moment.Readied (moment : Moment U) (id : RequestId) (binding : Binding U)
    (home : Scope U) (made : Value U) : Prop where
  held : moment.Carries id (!binding.recipe.lifetime.isKept && binding.closesShown)
    ⟨home.id, binding.recipe⟩ made.content
  stored : ∀ holding ∈ moment.books.stored, holding.request = id →
    binding.recipe.lifetime.isKept = true ∧ holding.site.scope = home.id ∧
      holding.site.recipe.id = binding.recipe.id

section Produce

variable {key : Key} {binding : Binding U} {home : Scope U} {inputs : Inputs U}

theorem Moment.Readied.later {moment next : Moment U} {made : Value U}
    (readied : moment.Readied id binding home made)
    (passage : Interference rely id moment next) : next.Readied id binding home made where
  held := readied.held.later passage
  stored := fun holding stored mine =>
    readied.stored holding (passage.mem_stored (fun _ => False.elim) stored mine) mine

/-- An instance that could not be made is stored nowhere. -/
theorem Moment.Unstored.free_of_failed {moment next : Moment U} {error : Error}
    (unstored : moment.Unstored id) (none : moment.heldBy id = [])
    (recorded : moment.Records
      ⟨id, .performed (.settle home.id (.made binding.recipe.id) (.error error)) ()⟩ next) :
    next.Free id := by
  refine ⟨(recorded.heldBy_of_turn rfl).trans Books.filter_heldByOthers_self,
    fun holding stored => ?_⟩
  rcases recorded.mem_stored_of_turn rfl stored with before | held
  · exact unstored holding before
  · rw [none] at held
    cases held

/-- An instance that is made is stored in its cell, and nothing else of the request is. -/
theorem Moment.Unstored.readied {moment next : Moment U} {made : Value U}
    (unstored : moment.Unstored id) (kept : binding.recipe.lifetime.isKept = true)
    (carries : moment.Carries id binding.closesShown ⟨home.id, binding.recipe⟩ made.content)
    (recorded : moment.Records
      ⟨id, .performed (.settle home.id (.made binding.recipe.id) (.ok made)) ()⟩ next) :
    next.Readied id binding home made := by
  refine ⟨?_, fun holding stored mine => ?_⟩
  · rw [kept]
    exact (recorded.heldBy_of_turn rfl).trans Books.filter_heldByOthers_self
  · rcases recorded.mem_stored_of_turn rfl stored with before | held
    · exact absurd mine (unstored holding before)
    · obtain ⟨_, isSite, _⟩ := carries.of_mem held
      rw [isSite]
      exact ⟨kept, rfl, rfl⟩

/-- Making an instance, by its cell if it is kept, readies it. -/
theorem keeps_prepare_guarded (context : ContextId) (homes : start.Homes key binding home)
    (closes : binding.recipe.closer.isSome = true → binding.recipe.isFactory = true)
    (free : start.Free id) :
    Request.Keeps rely Conduct.custody id
      (Ends (fun made moment => moment.Readied id binding home made) fun _ moment => moment.Free id)
      (keepIf binding.recipe.lifetime.isKept home.id (.made binding.recipe.id)
        (construct home.id context binding.recipe inputs.arguments inputs.flag
          binding.cast.isSome)) start := by
  have shown : (!binding.cast.isSome && binding.recipe.closer.isSome) = binding.closesShown := by
    unfold Binding.closesShown
    cases binding.cast <;> rfl
  have makes := only_construct home.id context binding.recipe inputs.arguments inputs.flag
    binding.cast.isSome
  have constructs : ∀ begin : Moment U, begin.heldBy id = [] → Request.Keeps rely Conduct.custody id
      (fun outcome moment => Ends (fun value moment =>
          moment.Carries id binding.closesShown ⟨home.id, binding.recipe⟩ value.content)
        (fun _ moment => moment.heldBy id = []) outcome moment ∧
          Passage rely id Event.Making begin moment)
      (construct home.id context binding.recipe inputs.arguments inputs.flag
        binding.cast.isSome) begin := by
    intro begin empty
    rw [← shown]
    exact (makes.along (keeps_construct_gained home.id context inputs.arguments inputs.flag
      binding.cast.isSome closes empty)).mono fun _ _ _ ends => ⟨ends.1, ends.2.2⟩
  refine Request.keeps_keepIf ?_ ?_ ?_ ?_
  · intro unkept
    refine (constructs start free.held).mono ?_
    rintro (error | made) moment _ ⟨ends, passage⟩
    · exact ⟨ends, free.unstored.later passage⟩
    · refine ⟨by rw [unkept]; exact ends, fun holding stored mine => ?_⟩
      exact absurd mine (free.unstored.later passage holding stored)
  · exact fun _ before found _ _ => Conduct.custody_of_none rfl trivial
  · intro kept before outcome after passage _ recorded last passage' _
    have free : last.Free id := stable_free
      (.trans (.own passage.ofInterference recorded ⟨trivial, trivial⟩) passage'.ofInterference) free
    cases outcome with
    | error error => exact free
    | ok made =>
        refine ⟨by rw [kept]; exact free.held, fun holding stored mine => ?_⟩
        exact absurd mine (free.unstored holding stored)
  · intro kept before after passage _ recorded
    have entered := stable_free (.own passage.ofInterference recorded ⟨trivial, trivial⟩) free
    refine (constructs after entered.held).mono ?_
    rintro outcome settling _ ⟨ends, since⟩
    have unstored := entered.unstored.later since
    have grown := passage.suffix.trans (recorded.suffix.trans since.suffix)
    cases outcome with
    | error error =>
        refine ⟨Conduct.custody_of_turn rfl ends, fun settled recorded' last passage' _ => ?_⟩
        exact stable_free passage'.ofInterference (unstored.free_of_failed ends recorded')
    | ok value =>
        have may : settling.MayStore id home.id binding.recipe.id (.ok value) :=
          ⟨key, binding, home, homes.mono grown, rfl, rfl, kept, ends⟩
        refine ⟨Conduct.custody_of_turn rfl may, fun settled recorded' last passage' _ => ?_⟩
        exact (unstored.readied kept ends recorded').later passage'

include within

/-- Whoever enters the cell of a value to show takes the instance that is stored. -/
theorem Moment.Readied.recovered {before after : Moment U} {made : Value U}
    (readied : before.Readied id binding home made) (homes : before.Homes key binding home)
    (lawful : before.Lawful rely) (kept : binding.recipe.lifetime.isKept = true)
    (settled : before.Settled home.id (.made binding.recipe.id) (.ok made))
    (nobody : ∀ other,
      ¬ before.Entered other home.id (.shown binding.recipe.id binding.registered))
    (recorded : before.Records
      ⟨id, .performed (.enter home.id (.shown binding.recipe.id binding.registered)) none⟩ after) :
    after.Carries id binding.closesShown ⟨home.id, binding.recipe⟩ made.content ∧
      after.Unstored id := by
  have empty : before.heldBy id = [] := by
    have held := readied.held
    rw [kept] at held
    exact held
  obtain ⟨wanted, other, above, homes', named, isRecipe, _, stored⟩ :=
    lawful.deposited within settled
  have grow := lawful.grow (Conduct.keeps_of_custody within)
  have closes := homes.closesShown_eq grow homes' named.symm isRecipe.symm kept
  obtain ⟨same, alike⟩ := homes.agree grow homes' named.symm isRecipe.symm kept
  have single : Holding.Single binding.closesShown ⟨home.id, binding.recipe⟩ made.content
      (before.storedAt home.id binding.recipe.id) := by
    rw [← same, ← closes] at stored
    refine stored fun closed id => ?_
    have uncast := Option.isNone_iff_eq_none.mp (Bool.and_eq_true_iff.mp closed).1
    rw [← (alike uncast).2]
    exact nobody id
  have taken : after.heldBy id = (before.storedAt home.id binding.recipe.id).map
      fun holding => { holding with request := id } := by
    rw [recorded.heldBy_of_turn rfl]
    change List.filter _ (List.map _ _ ++ _) = _
    have none : before.books.held.filter (fun holding => decide (holding.request = id)) = [] := empty
    rw [List.filter_append, none, List.append_nil, List.filter_eq_self]
    intro holding member
    obtain ⟨_, _, rfl⟩ := List.mem_map.mp member
    exact decide_eq_true rfl
  refine ⟨?_, fun holding stored mine => ?_⟩
  · rw [Carries, taken]
    cases closes' : binding.closesShown with
    | false =>
        rw [closes'] at single
        exact congrArg _ single
    | true =>
        rw [closes'] at single
        obtain ⟨holding, only, rest⟩ := single
        exact ⟨_, congrArg _ only, rest⟩
  · rw [recorded.books, Entry.keepBooks_of_turn rfl] at stored
    obtain ⟨before, elsewhere⟩ := List.mem_filter.mp stored
    obtain ⟨_, here⟩ := readied.stored holding before mine
    rw [decide_eq_true here] at elsewhere
    cases elsewhere

/-- What is shown already is not stored any more. -/
theorem Moment.Readied.shown {before : Moment U} {made : Value U} {outcome : Outcome U}
    (readied : before.Readied id binding home made) (lawful : before.Lawful rely)
    (shown : before.Settled home.id (.shown binding.recipe.id binding.registered) outcome) :
    before.Unstored id := by
  intro holding stored mine
  obtain ⟨_, scope, recipe⟩ := readied.stored holding stored mine
  obtain ⟨other, did⟩ := shown
  have entered := ((lawful.cell (Conduct.keeps_of_custody within) _ _).settled did).1
  rw [← scope, ← recipe] at entered
  exact (lawful.stored within stored).2 other _ entered

omit within in

/-- Finishing a value hands over the closer of its instance, or loses it. -/
theorem keeps_finish_guarded (context : ContextId) (wanted : Key) {made : Value U}
    (proper : binding.Proper key)
    (closes : binding.recipe.closer.isSome = true → binding.recipe.isFactory = true)
    (suit : inputs.Suit (origin.Yields home) binding home
      (Recalls id home.id binding.recipe origin))
    (typed : made.type = binding.recipe.produces)
    (carries : start.Carries id binding.closesShown ⟨home.id, binding.recipe⟩ made.content)
    (unstored : start.Unstored id) :
    Request.Keeps rely Conduct.custody id (fun _ last => last.Free id)
      (finish home.id context wanted binding inputs.stages made) start := by
  have fits : ∀ stage ∈ inputs.stages, List.Forall₂ (Fits Typed)
      stage.decorator.params stage.arguments := fun stage member =>
    (suit.stages stage member).imp fun _ _ fit => fit.mono fun _ _ yields => yields.type
  have targets : ∀ stage ∈ inputs.stages,
      stage.decorator.target.type = binding.registered.type :=
    fun stage member => by rw [suit.targets stage member]
  refine ((only_finish home.id context wanted binding inputs.stages made).along
    (keeps_finish_carried home.id context wanted closes proper.produces typed targets fits
      carries)).mono ?_
  rintro outcome last _ ⟨empty, _, passage⟩
  exact ⟨empty, unstored.later passage⟩

/-- Showing an instance hands over its closer, or loses it, or finds it shown. -/
theorem keeps_show_guarded (context : ContextId) (wanted : Key) {made : Value U}
    (homes : start.Homes key binding home)
    (closes : binding.recipe.closer.isSome = true → binding.recipe.isFactory = true)
    (suit : inputs.Suit (start.Yields home) binding home
      (Recalls id home.id binding.recipe start))
    (prepared : start.Prepared binding home inputs.arguments made)
    (readied : start.Readied id binding home made) :
    Request.Keeps rely Conduct.custody id (fun _ moment => moment.Free id)
      (keepIf binding.recipe.lifetime.isKept home.id
        (.shown binding.recipe.id binding.registered)
        (finish home.id context wanted binding inputs.stages made)) start := by
  have light : ∀ operation : Operation U, ∀ answer, (Event.performed operation answer).Light →
      ∀ {first middle last : Moment U}, first.Records ⟨id, .performed operation answer⟩ middle →
        Interference rely id middle last → first.Free id → last.Free id :=
    fun _ _ isLight _ _ _ recorded passage free =>
      stable_free (.trans (.own (.refl _) recorded isLight) passage.ofInterference) free
  refine Request.keeps_keepIf ?_ ?_ ?_ ?_
  · intro unkept
    have held := readied.held
    rw [unkept] at held
    refine keeps_finish_guarded context wanted homes.proper closes suit prepared.type held
      fun holding stored mine => ?_
    cases unkept.symm.trans (readied.stored holding stored mine).1
  · intro kept before found passage lawful
    cases found with
    | some outcome => exact Conduct.custody_of_none rfl trivial
    | none =>
        exact Conduct.custody_of_turn rfl ⟨⟨made, (prepared.kept kept).mono passage.suffix⟩,
          key, binding, home, homes.mono passage.suffix, rfl, rfl, rfl⟩
  · intro kept before outcome after passage lawful recorded last passage' _
    have shown := (lawful.cell (Conduct.keeps_of_custody within) _ _).filled
      (Operation.perform_enter_some recorded.state).1
    have readied := readied.later passage
    have held := readied.held
    rw [kept] at held
    exact light _ _ ⟨trivial, trivial⟩ recorded passage'
      ⟨held, readied.shown within lawful shown⟩
  · intro kept before after passage lawful recorded
    have nobody := (lawful.cell (Conduct.keeps_of_custody within) home.id
      (.shown binding.recipe.id binding.registered)).empty
        (Operation.perform_enter_none recorded.state).1
    obtain ⟨carries, unstored⟩ := (readied.later passage).recovered within
      (homes.mono passage.suffix) lawful kept ((prepared.kept kept).mono passage.suffix) nobody
        recorded
    refine (keeps_finish_guarded context wanted homes.proper closes suit prepared.type carries
      unstored).mono fun outcome settling _ free => ⟨Conduct.custody_of_none rfl trivial, ?_⟩
    exact fun settled recorded' last passage' _ =>
      light _ _ ⟨trivial, trivial⟩ recorded' passage' free

end Produce

/-- Only what a constructor makes has to be closed, among all that is made. -/
theorem Binding.Proper.isFactory {key : Key} {binding : Binding U} (proper : binding.Proper key)
    (made : ¬ binding.IsValue) (closes : binding.recipe.closer.isSome = true) :
    binding.recipe.isFactory = true := by
  have unclosed := proper.unclosed
  unfold Recipe.isFactory
  unfold Recipe.isList at unclosed
  cases source : binding.recipe.source with
  | factory make => rfl
  | value content => exact absurd ⟨content, source⟩ made
  | list item =>
      rw [source] at unclosed
      rw [unclosed rfl] at closes
      cases closes

/-- Between requests for keys a request has nothing. -/
def guarding {origin : Moment U}
    (lawful : origin.Lawful (Conduct.orderly.and Conduct.growing)) (id : RequestId) :
    Upkeep rely (Conduct.keeping.and Conduct.custody) id where
  holds := fun moment => origin.history <:+ moment.history ∧ moment.Free id
  among := origin.IsScope
  yields := Moment.Yields
  failed := fun moment _ _ _ _ => moment.Free id
  stable := fun passage holds => ⟨Moment.stable_suffix rely origin id passage holds.1,
    stable_free (passage.mono fun _ => Event.Idle.light) holds.2⟩
  harmless := fun _ _ holds idle =>
    ⟨idle.keeping, Conduct.custody_of_light idle.light holds.2.held⟩
  ancestor := @IsScope.ancestor _ _ lawful
  lasts := fun grows => Yields.mono grows
  plain := fun holds _ => holds.2
  cycle := fun holds _ _ => holds.2
  dependency := fun _ _ _ free => free
  recalled := by
    intro moment next scope key binding home outcome active isScope finds kept lawful' holds found
      passage later
    have ends := (safekeeping (Conduct.keeps_of_custody within) lawful id).recalled active isScope
      finds kept lawful' holds.1 found passage later
    cases outcome with
    | ok value => exact ends
    | error error => exact stable_free (passage.mono fun _ => Event.Idle.light) holds.2
  convert := by
    intro start scope key binding content active isScope bound source lawful' holds
    have keeps := (safekeeping (Conduct.keeps_of_custody within) lawful id).convert active isScope
      bound source lawful' holds.1
    have light : Request.Only Event.Light (fun _ => True)
        (binding.convert scope.id key { type := binding.recipe.produces, content }) := by
      unfold Binding.convert
      cases binding.cast with
      | none => exact trivial
      | some cast =>
          simp only [if_true]
          exact ⟨⟨trivial, trivial⟩, fun _ => ⟨⟨trivial, trivial⟩, trivial⟩⟩
    refine (keeps.and (keeps_free light holds.2)).mono ?_
    rintro (error | value) moment _ ⟨reached, _, free⟩
    · exact free
    · exact ⟨⟨reached.1, free⟩, reached.2⟩
  produce := by
    intro start scope key binding home inputs context active isScope finds _ holds suit
    obtain ⟨grown, free⟩ := holds
    have homes := (isScope.homes lawful finds).mono grown
    have closes := homes.proper.isFactory finds.made
    have prepares := (keeps_prepare (Conduct.keeps_of_custody within) context homes suit).and
      (keeps_prepare_guarded context homes closes free)
    refine Request.keeps_bind prepares.grows ?_ ?_
    · exact fun _ _ _ reached => reached.2.2
    rintro made moment _ ⟨grown', prepared, readied⟩
    have suit := suit.later grown'
    have homes := homes.mono grown'
    have shows := (keeps_show (Conduct.keeps_of_custody within) context key homes suit prepared).and
      (keeps_show_guarded within context key homes closes suit prepared readied)
    refine shows.grows.mono ?_
    rintro (error | value) last _ ⟨grown'', finished, free⟩
    · exact free
    · exact ⟨⟨grown.trans (grown'.trans grown''), free⟩,
        Finished.yields finished finds homes.proper (suit.later grown'')⟩

include within in
/-- All requests keep to the conduct. -/
theorem kept_custody : Conduct.Kept rely Conduct.custody where
  started := fun _ _ _ _ _ => Conduct.custody_of_none rfl trivial
  follows := by
    intro moment id demand after lawful orderly recorded
    have free : after.Free id := by
      have starts : Passage rely id Event.Light moment after :=
        .own (.refl _) recorded ⟨trivial, trivial⟩
      exact stable_free starts (free_of_unknown orderly.1)
    have finishes : ∀ {last : Moment U} (reply : Except Error (Reply U)), last.Free id →
        Conduct.custody last ⟨id, .finished reply⟩ :=
      fun reply free => ⟨fun _ turns => (by cases turns), fun _ _ => free⟩
    by_cases resolves : demand.Resolves
    · obtain ⟨origin, named⟩ :=
        (lawful.grow (Conduct.keeps_of_custody within)).starts orderly recorded
      refine (((guarding within origin id).asking resolves named
        ⟨List.suffix_refl _, free⟩).mono_guar fun _ _ both => both.2).mono ?_
      rintro (error | reply) last _ ends
      · rcases ends with ⟨holds, _⟩ | ⟨_, _, _, free⟩
        · exact finishes _ holds.2
        · exact finishes _ free
      · exact finishes _ ends.1.2
    · refine (keeps_free ((Demand.only_tending resolves).mono (fun _ => Event.Tending.light)
        fun _ _ => trivial) free).mono ?_
      exact fun reply last _ reached => finishes reply reached.2

end Cells

end Provision
