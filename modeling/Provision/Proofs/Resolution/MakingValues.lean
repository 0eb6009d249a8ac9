import Provision.Proofs.Resolution.ResolutionUpkeep

/-!
# Making and finishing values

The part of resolution that calls the functions of the client: constructing an instance,
converting and decorating it, and promising its closer.  None of it looks at cells or resolves
anything, its errors are errors of creation itself, and a value that it makes has the type it
should.
-/

namespace Provision

open Moment

variable {U : Client}

/-- Idle operations and all calls but those of closers. -/
def Event.Serving : Event U → Prop
  | .performed operation _ => operation.Idle
  | .called (.close _ _ _ _) => False
  | .returned (.close _ _ _ _) _ => False
  | .called _ => True
  | .returned _ _ => True
  | .started _ => False
  | .finished _ => False

theorem Event.Idle.serving {event : Event U} (idle : event.Idle) : event.Serving := by
  cases event with
  | performed operation answer => exact idle
  | called call => cases call <;> first | exact trivial | exact idle.elim
  | returned call answer => cases call <;> first | exact trivial | exact idle.elim
  | started demand => exact idle.elim
  | finished reply => exact idle.elim

/-- The events that neither fill cells nor concern a scope as such, among them all of making and
finishing a value. -/
def Event.Making : Event U → Prop
  | .performed (.enter _ _) _ => False
  | .performed (.settle _ _ _) _ => False
  | .performed (.shut _) _ => False
  | .performed (.discard _) _ => False
  | .performed .newScope _ => False
  | .performed _ _ => True
  | .called _ => True
  | .returned _ _ => True
  | .started _ => False
  | .finished _ => False

/-- Events that serve make values. -/
theorem Event.Serving.making {event : Event U} (serving : event.Serving) : event.Making := by
  cases event with
  | performed operation answer => cases operation <;> first | exact trivial | exact serving.elim
  | called call => trivial
  | returned call answer => trivial
  | started demand => exact serving.elim
  | finished reply => exact serving.elim

theorem Event.Idle.making {event : Event U} (idle : event.Idle) : event.Making :=
  idle.serving.making

/-- Besides idle events, handing closers over and running them. -/
def Event.Attending : Event U → Prop
  | .performed (.attach _ _) _ => True
  | .called (.close _ _ _ _) => True
  | .returned (.close _ _ _ _) _ => True
  | event => event.Idle

theorem Event.Idle.attending {event : Event U} (idle : event.Idle) : event.Attending := by
  cases event with
  | performed operation answer => cases operation <;> first | exact trivial | exact idle
  | called call => cases call <;> first | exact trivial | exact idle
  | returned call answer => cases call <;> first | exact trivial | exact idle
  | started demand => exact idle
  | finished reply => exact idle

/-- Events that attend make values. -/
theorem Event.Attending.making {event : Event U} (attending : event.Attending) : event.Making := by
  cases event with
  | performed operation answer =>
      cases operation <;> first | exact trivial | exact attending.elim
  | called call => trivial
  | returned call answer => trivial
  | started demand => exact attending.elim
  | finished reply => exact attending.elim

/-- An error of creation itself, or a value that is of a type if something else was typed. -/
structure Makes (typed : Prop) (type : ServiceType) (outcome : Outcome U) : Prop where
  creates : Creates outcome
  type : typed → ∀ value, outcome = .ok value → value.type = type

theorem Makes.ok {typed : Prop} {type : ServiceType} {value : Value U}
    (hasType : typed → value.type = type) : Makes typed type (.ok value) :=
  ⟨Creates.ok _, fun holds _ same => Except.ok.inj same ▸ hasType holds⟩

theorem Makes.error {typed : Prop} {type : ServiceType} {error : Error}
    (creation : error.OfCreation) : Makes typed type (.error error : Outcome U) :=
  ⟨Creates.error creation, fun _ => nofun⟩

/-- What is made comes from no cycle. -/
theorem Makes.acyclic {typed : Prop} {type : ServiceType} {outcome : Outcome U}
    (makes : Makes typed type outcome) : Acyclic outcome :=
  makes.creates.acyclic

/-- The calls that hand arguments to parameters. -/
def Event.Taking : Event U → Prop
  | .called (.accepts _) => True
  | .returned (.accepts _) _ => True
  | _ => False

/-- Taking an argument is idle. -/
theorem Event.Taking.idle {event : Event U} (taking : event.Taking) : event.Idle := by
  cases event with
  | called call => cases call <;> first | exact trivial | exact taking.elim
  | returned call answer => cases call <;> first | exact trivial | exact taking.elim
  | performed operation answer => exact taking.elim
  | started demand => exact taking.elim
  | finished reply => exact taking.elim

/-- An argument is taken, or refused as a mismatch of types. -/
theorem only_takes (param : Param) (argument : Argument U) :
    Request.Only Event.Taking Creates (takes param argument) := by
  cases param with
  | context => cases argument <;> exact Creates.ok _
  | scope => cases argument <;> exact Creates.ok _
  | service key =>
      cases argument with
      | context context => exact Creates.ok _
      | scope handle => exact Creates.ok _
      | service value =>
          by_cases typed : value.type = key.type
          · simp only [takes, typed]
            exact ⟨trivial, fun answer => ⟨trivial, Creates.ok _⟩⟩
          · simp only [takes, typed]
            exact Creates.ok _

/-- Arguments are only taken if there is one for every parameter. -/
theorem only_takeAll (params : List Param) (arguments : List (Argument U)) :
    Request.Only Event.Taking
      (fun outcome => Creates outcome ∧ (outcome = .ok () → params.length ≤ arguments.length))
      (takeAll params arguments) := by
  induction params generalizing arguments with
  | nil => exact ⟨Creates.ok _, fun _ => Nat.zero_le _⟩
  | cons param params ih =>
      cases arguments with
      | nil => exact ⟨Creates.error trivial, nofun⟩
      | cons argument arguments =>
          refine Request.only_bind (only_takes param argument) ?_ ?_
          · exact fun error creates => ⟨Creates.error (creates error rfl), nofun⟩
          · intro taken _
            cases taken with
            | false => exact ⟨Creates.error trivial, nofun⟩
            | true =>
                refine (ih arguments).mono (fun _ taking => taking) ?_
                exact fun outcome reached =>
                  ⟨reached.1, fun taken => Nat.succ_le_succ (reached.2 taken)⟩

/-- Attaching a closer attends, and fails only as a creation. -/
theorem only_attachCloser (scope : ScopeId) (context : ContextId) (recipe : Recipe U)
    (subject : Value U) :
    Request.Only Event.Attending Creates (attachCloser scope context recipe subject) := by
  unfold attachCloser
  cases recipe.closerFor? subject with
  | none => exact Creates.ok _
  | some closer =>
      refine Request.only_bind_act fun attached => ⟨trivial, ?_⟩
      cases attached with
      | true => exact ⟨trivial, fun _ => ⟨trivial, Creates.ok _⟩⟩
      | false =>
          refine Request.only_bind_call trivial fun failure => ⟨trivial, ?_⟩
          cases failure with
          | none => exact Creates.error trivial
          | some failure => exact ⟨trivial, fun _ => ⟨trivial, Creates.error trivial⟩⟩

/-- Producing an instance makes a value of the type that the recipe says. -/
theorem only_produce (recipe : Recipe U) (scope : ScopeId) (arguments : List (Argument U)) :
    Request.Only Event.Serving (Makes True recipe.produces) (recipe.produce scope arguments) := by
  unfold Recipe.produce
  cases recipe.source with
  | value content => exact Makes.ok fun _ => rfl
  | list item => exact Makes.ok fun _ => rfl
  | factory make =>
      refine Request.only_bind ((only_takeAll recipe.params arguments).mono
        (fun _ taking => taking.idle.serving) fun _ reached => reached) ?_ ?_
      · exact fun error reached => Makes.error (reached.1 error rfl)
      · intro _ _
        refine Request.only_bind_call trivial fun answer => ⟨trivial, ?_⟩
        cases answer with
        | ok content => exact Makes.ok fun _ => rfl
        | error failure => exact Makes.error trivial

/-- Constructing an instance makes a value of the type that the recipe says. -/
theorem only_construct (scope : ScopeId) (context : ContextId) (recipe : Recipe U)
    (arguments : List (Argument U)) (flag : FlagId) (closeMade : Bool) :
    Request.Only Event.Making (Makes True recipe.produces)
      (construct scope context recipe arguments flag closeMade) := by
  have usable : Request.Only (@Event.Making U) Creates (ensureUsable context) :=
    (only_ensureUsable context).mono (fun _ => Event.Idle.making) fun _ creates => creates
  refine Request.only_bind usable ?_ ?_
  · exact fun error creates => Makes.error (creates error rfl)
  intro _ _
  refine Request.only_bind_call trivial fun _ => ⟨trivial, ?_⟩
  refine Request.only_bind_lift ((only_produce recipe scope arguments).mono
    (fun _ => Event.Serving.making) fun _ makes => makes) fun outcome made => ?_
  refine Request.only_bind_act fun _ => ⟨trivial, ?_⟩
  refine Request.only_bind_ofExcept ?_ fun value succeeds => ?_
  · exact fun error fails => Makes.error (made.creates error fails)
  refine Request.only_bind usable ?_ ?_
  · exact fun error creates => Makes.error (creates error rfl)
  intro _ _
  cases closeMade with
  | false => exact Makes.ok fun _ => made.type trivial value succeeds
  | true =>
      refine Request.only_bind ((only_attachCloser scope context recipe value).mono
        (fun _ => Event.Attending.making) fun _ creates => creates) ?_ ?_
      · exact fun error creates => Makes.error (creates error rfl)
      · exact fun _ _ => Makes.ok fun _ => made.type trivial value succeeds

/-- Converting a value makes one of the type that it is bound under. -/
theorem only_convert (binding : Binding U) (scope : ScopeId) (key : Key) (value : Value U) :
    Request.Only Event.Serving
      (Makes (binding.cast = none → value.type = binding.registered.type) binding.registered.type)
      (binding.convert scope key value) := by
  unfold Binding.convert
  cases binding.cast with
  | none => exact Makes.ok fun typed => typed rfl
  | some cast =>
      by_cases produced : value.type = binding.recipe.produces
      · simp only [produced, if_true]
        exact ⟨trivial, fun content => ⟨trivial, Makes.ok fun _ => rfl⟩⟩
      · simp only [produced, if_false]
        exact Makes.error trivial

/-- Applying a decorator makes a value of the type that it decorates. -/
theorem only_apply (stage : Stage U) (site : Site U) (value : Value U) :
    Request.Only Event.Serving (Makes True stage.decorator.target.type)
      (stage.apply site value) := by
  unfold Stage.apply
  by_cases typed : value.type = stage.decorator.target.type
  · simp only [typed, if_true]
    refine Request.only_bind ((only_takeAll stage.decorator.params stage.arguments).mono
      (fun _ taking => taking.idle.serving) fun _ reached => reached) ?_ ?_
    · exact fun error reached => Makes.error (reached.1 error rfl)
    · intro _ _
      refine Request.only_bind_call trivial fun answer => ⟨trivial, ?_⟩
      cases answer with
      | ok content => exact Makes.ok fun _ => rfl
      | error failure => exact Makes.error trivial
  · simp only [typed, if_false]
    exact Makes.error trivial

/-- Applying decorators of a type makes a value of the type. -/
theorem only_decorateAll (site : Site U) (stages : List (Stage U)) (value : Value U)
    (type : ServiceType) :
    Request.Only Event.Serving
      (Makes ((∀ stage ∈ stages, stage.decorator.target.type = type) ∧ value.type = type) type)
      (decorateAll site stages value) := by
  induction stages generalizing value with
  | nil => exact Makes.ok fun typed => typed.2
  | cons stage stages ih =>
      refine Request.only_bind_lift (only_apply stage site value) fun outcome applied => ?_
      refine Request.only_bind_act fun _ => ⟨trivial, ?_⟩
      refine Request.only_bind_ofExcept ?_ fun decorated succeeds => ?_
      · exact fun error fails => Makes.error (applied.creates error fails)
      · refine (ih decorated).mono (fun _ serving => serving) fun outcome rest => ?_
        refine ⟨rest.creates, fun typed => rest.type ⟨?_, ?_⟩⟩
        · exact fun other member => typed.1 other (List.mem_cons_of_mem _ member)
        · exact (applied.type trivial decorated succeeds).trans (typed.1 stage List.mem_cons_self)

/-- Finishing an instance makes a value of the type that it is bound under. -/
theorem only_finish (scope : ScopeId) (context : ContextId) (key : Key) (binding : Binding U)
    (stages : List (Stage U)) (made : Value U) :
    Request.Only Event.Making
      (Makes ((∀ stage ∈ stages, stage.decorator.target.type = binding.registered.type) ∧
          (binding.cast = none → made.type = binding.registered.type))
        binding.registered.type)
      (finish scope context key binding stages made) := by
  refine Request.only_bind ((only_convert binding scope key made).mono
    (fun _ => Event.Serving.making) fun _ makes => makes) ?_ ?_
  · exact fun error reached => Makes.error (reached.creates error rfl)
  intro converted isConverted
  refine Request.only_bind ((only_decorateAll _ stages converted binding.registered.type).mono
    (fun _ => Event.Serving.making) fun _ makes => makes) ?_ ?_
  · exact fun error reached => Makes.error (reached.creates error rfl)
  intro value decorated
  have typed : ((∀ stage ∈ stages, stage.decorator.target.type = binding.registered.type) ∧
      (binding.cast = none → made.type = binding.registered.type)) →
        value.type = binding.registered.type := fun typed =>
    decorated.type ⟨typed.1, isConverted.type typed.2 converted rfl⟩ value rfl
  by_cases uncast : binding.cast.isNone = true
  · simp only [uncast, if_true]
    refine Request.only_bind ((only_attachCloser scope context binding.recipe _).mono
      (fun _ => Event.Attending.making) fun _ creates => creates) ?_ ?_
    · exact fun error creates => Makes.error (creates error rfl)
    · exact fun _ _ => Makes.ok typed
  · simp only [uncast]
    exact Makes.ok typed

/-- Through a cell a request does what it does to create the value, besides entering the cell and
settling it. -/
theorem only_keepIf {own : Event U → Prop} {yields : Outcome U → Prop} {kept : Bool}
    {scope : ScopeId} {cell : CacheKey} {create : Request U (Value U)}
    (creates : Request.Only own yields create)
    (enters : kept = true → ∀ found, own (.performed (.enter scope cell) found))
    (settles : kept = true → ∀ outcome, yields outcome →
      own (.performed (.settle scope cell outcome) ())) :
    Request.Only own (fun _ => True) (keepIf kept scope cell create) := by
  cases kept with
  | false => exact creates.mono (fun _ allowed => allowed) fun _ _ => trivial
  | true =>
      refine Request.only_bind_act fun found => ⟨enters rfl found, ?_⟩
      cases found with
      | some outcome => exact trivial
      | none =>
          refine Request.only_bind_lift creates fun outcome reached => ?_
          exact Request.only_bind_act fun _ => ⟨settles rfl outcome reached, trivial⟩

/-! ## What requests keep to meanwhile -/

section Keeps

variable {rely guar : Conduct U} {id : RequestId} {start : Moment U}

/-- A statement that goes on to hold while a request idles, which the conduct of the request allows
as long as the statement holds. -/
structure Idling (rely guar : Conduct U) (id : RequestId) (holds : Moment U → Prop) : Prop where
  stable : Stable rely id Event.Idle holds
  harmless : ∀ moment event, holds moment → event.Idle → guar moment ⟨id, event⟩

/-- Statements about the history so far go on to hold. -/
theorem Idling.of_lasting {holds : Moment U → Prop}
    (lasts : ∀ {moment next : Moment U}, moment.history <:+ next.history → holds moment →
      holds next)
    (harmless : ∀ moment event, event.Idle → guar moment ⟨id, event⟩) :
    Idling rely guar id holds where
  stable := fun passage => lasts passage.suffix
  harmless := fun moment event _ => harmless moment event

/-- If all results and all errors allow to idle, so does an outcome. -/
theorem Idling.ends {α : Type} {result : α → Moment U → Prop} {failed : Error → Moment U → Prop}
    (results : ∀ value, Idling rely guar id (result value))
    (errors : ∀ error, Idling rely guar id (failed error)) (outcome : Except Error α) :
    Idling rely guar id (Ends result failed outcome) := by
  cases outcome with
  | ok value => exact results value
  | error error => exact errors error

/-- An idle program keeps what idle events do not change. -/
theorem Idling.keeps {α : Type} {holds : Moment U → Prop} {yields : α → Prop}
    {program : Program U α} (idling : Idling rely guar id holds)
    (only : program.Only Event.Idle yields) (initially : holds start) :
    program.Keeps rely guar id (fun result moment => yields result ∧ holds moment) start :=
  only.upholds idling.stable idling.harmless initially

/-- However a request ends that only idles, the statement holds. -/
theorem Idling.keeps_ends {α : Type} {holds : Moment U → Prop} {failed : Error → Moment U → Prop}
    {yields : Except Error α → Prop} {request : Request U α} (idling : Idling rely guar id holds)
    (only : Request.Only Event.Idle yields request)
    (fails : ∀ error moment, holds moment → failed error moment) (initially : holds start) :
    Request.Keeps rely guar id (Ends (fun _ moment => holds moment) failed) request start := by
  refine (idling.keeps only initially).mono ?_
  rintro (error | value) moment _ ⟨_, now⟩
  · exact fails error moment now
  · exact now

/-- An idle operation, after which the statement holds as before. -/
theorem Idling.keeps_act {holds : Moment U → Prop} {operation : Operation U}
    (idling : Idling rely guar id holds) (idle : operation.Idle) (initially : holds start) :
    (Program.act operation).Keeps rely guar id (fun _ moment => holds moment) start := by
  have only : (Program.act operation).Only Event.Idle fun _ => True := fun _ => ⟨idle, trivial⟩
  exact (idling.keeps only initially).mono fun _ _ _ reached => reached.2

/-- A flag is raised, whatever the outcome of the request before that. -/
theorem Idling.keeps_raise {α : Type} {flag : FlagId} {result : α → Moment U → Prop}
    {failed : Error → Moment U → Prop} (results : ∀ value, Idling rely guar id (result value))
    (errors : ∀ error, Idling rely guar id (failed error)) (outcome : Except Error α)
    (moment : Moment U) (ends : Ends result failed outcome moment) :
    (Program.act (.raise flag)).Keeps rely guar id (fun _ => Ends result failed outcome) moment :=
  (Idling.ends results errors outcome).keeps_act trivial ends

namespace Request

/-- A request, the flag that is raised as soon as it has ended, and what follows unless it failed.
-/
theorem keeps_raising {α β : Type} {own : Event U → Prop} {yields : Except Error α → Prop}
    {middle : Except Error α → Moment U → Prop} {post : Except Error β → Moment U → Prop}
    {request : Request U α} {flag : FlagId} {next : α → Request U β}
    (only : Only own yields request) (first : Keeps rely guar id middle request start)
    (raises : ∀ outcome moment, middle outcome moment →
      (Program.act (.raise flag)).Keeps rely guar id (fun _ => middle outcome) moment)
    (failed : ∀ error moment, middle (.error error) moment → post (.error error) moment)
    (goesOn : ∀ value moment, yields (.ok value) → middle (.ok value) moment →
      Keeps rely guar id post (next value) moment) :
    Keeps rely guar id post
      (do
        let outcome ← ExceptT.lift request.run
        act (.raise flag)
        let value ← ofExcept outcome
        next value) start := by
  refine keeps_bind_lift (only.along first) fun outcome moment _ ⟨ends, sort, _⟩ => ?_
  refine keeps_bind_lift (raises outcome moment ends).always fun _ after lawful now => ?_
  refine keeps_bind_ofExcept ?_ ?_
  · rintro error rfl last passage lawful'
    exact failed error last (now last passage lawful')
  · rintro value rfl
    exact goesOn value after sort (now after (.refl _) lawful)

/-- Making an instance: `ready` holds until the constructor is called, `made` from its return until
a closer is handed over, and `finished` in the end. -/
theorem keeps_construct {scope : ScopeId} {context : ContextId} {recipe : Recipe U}
    {arguments : List (Argument U)} {flag : FlagId} {closeMade : Bool}
    {ready : Moment U → Prop} {made finished : Value U → Moment U → Prop}
    {failed : Error → Moment U → Prop} (idles : Idling rely guar id ready)
    (usable : Keeps rely guar id (Ends (fun _ moment => ready moment) failed)
      (ensureUsable context) start)
    (produces : ∀ moment, ready moment →
      Keeps rely guar id (Ends made failed) (recipe.produce scope arguments) moment)
    (raises : ∀ outcome moment, Ends made failed outcome moment →
      (Program.act (.raise flag)).Keeps rely guar id (fun _ => Ends made failed outcome) moment)
    (checks : ∀ value moment, made value moment →
      Keeps rely guar id (Ends (fun _ => made value) failed) (ensureUsable context) moment)
    (attaches : closeMade = true → ∀ value moment, value.type = recipe.produces →
      made value moment → Keeps rely guar id (Ends (fun _ => finished value) failed)
        (attachCloser scope context recipe value) moment)
    (plain : closeMade = false → ∀ value moment, made value moment → finished value moment) :
    Keeps rely guar id (Ends finished failed)
      (construct scope context recipe arguments flag closeMade) start := by
  refine keeps_bind usable (fun _ _ _ fails => fails) fun _ found _ now => ?_
  have reports : (Program.callClient
      (.report (.constructing (.of recipe.produces) recipe.lifetime scope)) :
        Program U Unit).Only Event.Idle fun _ => True := ⟨trivial, fun _ => ⟨trivial, trivial⟩⟩
  refine keeps_bind_lift (idles.keeps reports now) ?_
  rintro _ reported _ ⟨_, now⟩
  refine keeps_raising (only_produce recipe scope arguments) (produces reported now) raises
    (fun _ _ fails => fails) fun value raised sort now => ?_
  refine keeps_bind (checks value raised now).always ?_ fun _ moment lawful now => ?_
  · exact fun error moment lawful fails => fails moment (.refl _) lawful
  cases closeMade with
  | false => exact keeps_pure fun last passage lawful => plain rfl value last (now last passage lawful)
  | true =>
      refine keeps_bind (attaches rfl value moment (sort.type trivial value rfl)
        (now moment (.refl _) lawful)).always ?_ ?_
      · exact fun error moment lawful fails => fails moment (.refl _) lawful
      · exact fun _ _ _ finished => keeps_pure finished

/-- Decorating a value: `good` says what holds of it while some decorators are still to come. -/
theorem keeps_decorateAll {site : Site U} {stages : List (Stage U)} {value : Value U}
    (good : List (Stage U) → Value U → Moment U → Prop) (failed : Error → Moment U → Prop)
    (applies : ∀ stage stages value moment, good (stage :: stages) value moment →
      Keeps rely guar id (Ends (good stages) failed) (stage.apply site value) moment)
    (raises : ∀ flag stages outcome moment, Ends (good stages) failed outcome moment →
      (Program.act (.raise flag)).Keeps rely guar id (fun _ => Ends (good stages) failed outcome)
        moment)
    (lasts : ∀ value, Stable rely id (fun _ => False) (good [] value))
    (initially : good stages value start) :
    Keeps rely guar id (Ends (good []) failed) (decorateAll site stages value) start := by
  induction stages generalizing value start with
  | nil => exact keeps_pure fun _ passage _ => lasts value passage initially
  | cons stage stages ih =>
      exact keeps_raising (only_apply stage site value) (applies stage stages value start initially)
        (raises stage.flag stages) (fun _ _ fails => fails) fun _ _ _ now => ih now

/-- Finishing an instance: `converted` holds of the value as the type of its key, `decorated` once
all decorators were applied, and `finished` in the end. -/
theorem keeps_finish {scope : ScopeId} {context : ContextId} {key : Key} {binding : Binding U}
    {stages : List (Stage U)} {made : Value U}
    {converted finished : Value U → Moment U → Prop} {failed : Error → Moment U → Prop}
    (decorated : Value U → Moment U → Prop)
    (converts : Keeps rely guar id (Ends converted failed) (binding.convert scope key made) start)
    (decorates : ∀ value moment, Makes (binding.cast = none → made.type = binding.registered.type)
        binding.registered.type (.ok value) → converted value moment →
      Keeps rely guar id (Ends decorated failed)
        (decorateAll ⟨scope, binding.recipe⟩ stages value) moment)
    (attaches : binding.cast = none → ∀ value moment, decorated value moment →
      Keeps rely guar id (Ends (fun _ => finished value) failed)
        (attachCloser scope context binding.recipe (binding.recipe.closeSubject made value)) moment)
    (plain : binding.cast ≠ none → ∀ value moment, decorated value moment →
      finished value moment) :
    Keeps rely guar id (Ends finished failed)
      (finish scope context key binding stages made) start := by
  refine keeps_bind ((only_convert binding scope key made).along converts)
    (fun _ _ _ reached => reached.1) ?_
  rintro value moment _ ⟨now, sort, _⟩
  refine keeps_bind (decorates value moment sort now).always ?_ ?_
  · exact fun error moment lawful fails => fails moment (.refl _) lawful
  intro shown last lawful now
  by_cases uncast : binding.cast.isNone = true
  · simp only [uncast, if_true]
    refine keeps_bind (attaches (Option.isNone_iff_eq_none.mp uncast) shown last
      (now last (.refl _) lawful)).always ?_ ?_
    · exact fun error moment lawful fails => fails moment (.refl _) lawful
    · exact fun _ _ _ finished => keeps_pure finished
  · simp only [uncast]
    refine keeps_pure fun later passage lawful' => plain ?_ shown later (now later passage lawful')
    exact fun none => uncast (Option.isNone_iff_eq_none.mpr none)

/-- Going through a cell: the request finds what the cell holds, or it creates what it settles. -/
theorem keeps_keepIf {kept : Bool} {scope : ScopeId} {cell : CacheKey}
    {create : Request U (Value U)} {post : Outcome U → Moment U → Prop}
    (plain : kept = false → Keeps rely guar id post create start)
    (enters : kept = true → ∀ before found, Interference rely id start before →
      before.Lawful rely → guar before ⟨id, .performed (.enter scope cell) found⟩)
    (recalls : kept = true → ∀ before outcome after, Interference rely id start before →
      before.Lawful rely →
        before.Records ⟨id, .performed (.enter scope cell) (some outcome)⟩ after →
          ∀ last, Interference rely id after last → last.Lawful rely → post outcome last)
    (creates : kept = true → ∀ before after, Interference rely id start before →
      before.Lawful rely → before.Records ⟨id, .performed (.enter scope cell) none⟩ after →
        Keeps rely guar id
          (fun outcome settling =>
            guar settling ⟨id, .performed (.settle scope cell outcome) ()⟩ ∧
              ∀ settled,
                settling.Records ⟨id, .performed (.settle scope cell outcome) ()⟩ settled →
                  ∀ last, Interference rely id settled last → last.Lawful rely →
                    post outcome last) create after) :
    Keeps rely guar id post (keepIf kept scope cell create) start := by
  cases kept with
  | false => exact plain rfl
  | true =>
      refine keeps_bind_act fun before found after passage lawful recorded => ?_
      refine ⟨enters rfl before found passage lawful, ?_⟩
      cases found with
      | some outcome =>
          exact keeps_ofExcept (recalls rfl before outcome after passage lawful recorded)
      | none =>
          refine keeps_bind_lift (creates rfl before after passage lawful recorded).always ?_
          intro outcome made _ ends
          refine keeps_bind_act fun settling _ settled passage' lawful' recorded' => ?_
          obtain ⟨allowed, holds⟩ := ends settling passage' lawful'
          exact ⟨allowed, keeps_ofExcept (holds settled recorded')⟩

end Request

end Keeps

end Provision
