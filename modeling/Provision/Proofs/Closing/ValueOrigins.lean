import Provision.Proofs.Closing.InstanceDisposal

/-!
# Where values come from

A value is what became of one part: of an instance, a fixed value or a list, converted and decorated
for a key.  What constructors and decorators were given on the way came from other parts.  `Stems`
is the account of that, all the way down.  Every argument in it is traced to the service that the
key of its parameter leads to, and every part but the first is a known one.

Main statements: `Stems.mono`, that an account stays valid, and `Secured`, what is to be known of
the parts that a value is made of.
-/

namespace Provision

open Moment

variable {U : Client}

/-- A part of a value: where it came about, and what it was to begin with, which is what the
constructor returned, the fixed value, or the list of the items. -/
structure Part (U : Client) where
  site : Site U
  origin : Content U

/-- A parameter that asks for a key is given a service. -/
def Gives (params : List Param) (arguments : List (Argument U)) (key : Key) (value : Value U) :
    Prop :=
  ∃ index : Nat, params[index]? = some (.service key) ∧
    arguments[index]? = some (.service value)

/-- A part is of the service that a key leads to in a scope. -/
def Answers (home : Scope U) (key : Key) (part : Part U) : Prop :=
  ∃ binding, home.registry.find? key = some binding ∧ part.site.recipe = binding.recipe ∧
    ∀ keeper, home.Finds key binding keeper → part.site.scope = keeper.id

/-- What is given for a key is what the argument yields. -/
theorem Gives.of_fits {yields : Key → Value U → Prop} {params : List Param}
    {arguments : List (Argument U)} {key : Key} {value : Value U}
    (gives : Gives params arguments key value)
    (fits : List.Forall₂ (Fits yields) params arguments) : yields key value := by
  obtain ⟨index, isKey, isValue⟩ := gives
  induction fits generalizing index with
  | nil => cases isKey
  | cons fit _ ih =>
      cases index with
      | zero =>
          cases isKey
          cases isValue
          cases fit with
          | service yields => exact yields
      | succ index => exact ih index isKey isValue

namespace Moment

/-- The scope that instances of a registration are made in. -/
structure MadeIn (moment : Moment U) (site : Site U) (home : Scope U) : Prop where
  isScope : moment.IsScope home
  finds : ∃ key binding, home.Finds key binding home ∧ site = ⟨home.id, binding.recipe⟩

/-- An account of where a value came from: what became of one part, with everything that went into
it coming from known parts, namely of the services that the keys of the parameters lead to. -/
inductive Stems (moment : Moment U) (known : Part U → Prop) : Part U → Content U → Prop where
  | fixed {site : Site U} {content : Content U} : site.recipe.source = .value content →
      Stems moment known ⟨site, content⟩ content
  | made {id : RequestId} {site : Site U} {home : Scope U} {make : U.Constructor}
      {arguments : List (Argument U)} {content : Content U}
      (source : ∀ key value, Gives site.recipe.params arguments key value → Part U) :
      moment.MadeIn site home →
        moment.Did id (.returned (.construct site make arguments) (.ok content)) →
          (∀ key value gives, Answers home key (source key value gives)) →
            (∀ key value gives, known (source key value gives)) →
              (∀ key value gives, Stems moment known (source key value gives) value.content) →
                Stems moment known ⟨site, content⟩ content
  | list {site : Site U} {home : Scope U} {item : ServiceType} {arguments : List (Argument U)}
      (source : ∀ key value, Gives site.recipe.params arguments key value → Part U) :
      moment.MadeIn site home → site.recipe.source = .list item →
        site.recipe.params.length = arguments.length →
          (∀ key value gives, Answers home key (source key value gives)) →
            (∀ key value gives, known (source key value gives)) →
              (∀ key value gives, Stems moment known (source key value gives) value.content) →
                Stems moment known ⟨site, .list (itemsOf item arguments)⟩
                  (.list (itemsOf item arguments))
  | converted {id : RequestId} {part : Part U} {caller : ScopeId} {key : Key} {cast : U.Cast}
      {content converted : Content U} : Stems moment known part content →
        (caller = part.site.scope ∨ ∃ fixed, part.site.recipe.source = .value fixed) →
          moment.Did id
            (.returned (.convert ⟨caller, part.site.recipe⟩ key cast content) converted) →
            Stems moment known part converted
  | decorated {id : RequestId} {part : Part U} {home : Scope U} {key : Key}
      {decorator : Decorator U} {content decorated : Content U} {arguments : List (Argument U)}
      (source : ∀ key value, Gives decorator.params arguments key value → Part U) :
      Stems moment known part content → moment.MadeIn part.site home →
        decorator ∈ home.registry.decoratorsOf key →
          moment.Did id (.returned
            (.decorate part.site key decorator.transform content arguments) (.ok decorated)) →
            (∀ key value gives, Answers home key (source key value gives)) →
              (∀ key value gives, known (source key value gives)) →
                (∀ key value gives, Stems moment known (source key value gives) value.content) →
                  Stems moment known part decorated

/-- What a key of a scope yields comes from the service that the key leads to, and from known parts
alone. -/
def Draws (moment : Moment U) (known : Part U → Prop) (home : Scope U) (key : Key)
    (value : Value U) : Prop :=
  ∃ part, Answers home key part ∧ known part ∧ moment.Stems known part value.content

section Accounts

variable {moment next : Moment U} {known other : Part U → Prop} {part : Part U} {home : Scope U}
  {content : Content U} {arguments : List (Argument U)}

theorem MadeIn.mono {site : Site U} (madeIn : moment.MadeIn site home)
    (grows : moment.history <:+ next.history) : next.MadeIn site home :=
  ⟨madeIn.isScope.mono grows, madeIn.finds⟩

/-- An account stays valid, and with more known parts as well. -/
theorem Stems.mono (stems : moment.Stems known part content)
    (grows : moment.history <:+ next.history) (weaker : ∀ part, known part → other part) :
    next.Stems other part content := by
  induction stems with
  | fixed isValue => exact .fixed isValue
  | made source madeIn did answers knows _ ih =>
      exact .made source (madeIn.mono grows) (grows.mem did) answers
        (fun key value gives => weaker _ (knows key value gives)) ih
  | list source madeIn isList aligned answers knows _ ih =>
      exact .list source (madeIn.mono grows) isList aligned answers
        (fun key value gives => weaker _ (knows key value gives)) ih
  | converted _ here did ih => exact .converted ih here (grows.mem did)
  | decorated source _ madeIn applies did answers knows _ ih ih' =>
      exact .decorated source ih (madeIn.mono grows) applies (grows.mem did) answers
        (fun key value gives => weaker _ (knows key value gives)) ih'

theorem Draws.mono {key : Key} {value : Value U} (draws : moment.Draws known home key value)
    (grows : moment.history <:+ next.history) (weaker : ∀ part, known part → other part) :
    next.Draws other home key value := by
  obtain ⟨part, answers, isKnown, stems⟩ := draws
  exact ⟨part, answers, weaker part isKnown, stems.mono grows weaker⟩

/-- What a constructor returned stems from its arguments. -/
theorem Stems.of_constructed {id : RequestId} {site : Site U} {make : U.Constructor}
    (madeIn : moment.MadeIn site home)
    (did : moment.Did id (.returned (.construct site make arguments) (.ok content)))
    (fits : List.Forall₂ (Fits (moment.Draws known home)) site.recipe.params arguments) :
    moment.Stems known ⟨site, content⟩ content := by
  have draws : ∀ key value, Gives site.recipe.params arguments key value →
      moment.Draws known home key value := fun _ _ gives => gives.of_fits fits
  choose source answers knows stems using draws
  exact .made source madeIn did answers knows stems

/-- A list stems from its items. -/
theorem Stems.of_list {site : Site U} {item : ServiceType} (madeIn : moment.MadeIn site home)
    (isList : site.recipe.source = .list item)
    (fits : List.Forall₂ (Fits (moment.Draws known home)) site.recipe.params arguments) :
    moment.Stems known ⟨site, .list (itemsOf item arguments)⟩
      (.list (itemsOf item arguments)) := by
  have draws : ∀ key value, Gives site.recipe.params arguments key value →
      moment.Draws known home key value := fun _ _ gives => gives.of_fits fits
  choose source answers knows stems using draws
  exact .list source madeIn isList fits.length_eq answers knows stems

/-- What a decorator returned stems from what it decorated and its arguments. -/
theorem Stems.of_decorated {id : RequestId} {key : Key} {decorator : Decorator U}
    {decorated : Content U} (stems : moment.Stems known part content)
    (madeIn : moment.MadeIn part.site home)
    (applies : decorator ∈ home.registry.decoratorsOf key)
    (did : moment.Did id (.returned
      (.decorate part.site key decorator.transform content arguments) (.ok decorated)))
    (fits : List.Forall₂ (Fits (moment.Draws known home)) decorator.params arguments) :
    moment.Stems known part decorated := by
  have draws : ∀ key value, Gives decorator.params arguments key value →
      moment.Draws known home key value := fun _ _ gives => gives.of_fits fits
  choose source answers knows sources using draws
  exact .decorated source stems madeIn applies did answers knows sources

end Accounts

/-! ## What is known of parts -/

/-- The scope that a part belongs to is at or above another: the part was made there, or is a fixed
value that was registered there. -/
structure Holder (moment : Moment U) (home : Scope U) (part : Part U) (keeper : Scope U) :
    Prop where
  above : keeper.Above home
  houses : moment.Houses part.site keeper
  registered : ∀ content, part.site.recipe.source = .value content →
    ∃ index, part.site.recipe.id = .registration keeper.id index

/-- A part belongs to a scope or to one above it. -/
def InLine (moment : Moment U) (home : Scope U) (part : Part U) : Prop :=
  ∃ keeper, moment.Holder home part keeper

/-- A closer is for an instance: for itself, or for what decorators made of it. -/
structure Closes (moment : Moment U) (closer : PendingCloser U) (part : Part U) : Prop where
  recipe : closer.recipe = part.site.recipe
  decorated : moment.Decorated part.site part.origin closer.subject

/-- The closer of an instance is one of several, if it has any. -/
def ClosedBy (moment : Moment U) (closers : List (PendingCloser U)) (part : Part U) : Prop :=
  part.site.recipe.isFactory = true → part.site.recipe.closer.isSome = true →
    ∃ closer ∈ closers, moment.Closes closer part

/-- The closer of an instance was handed over, if it has any. -/
abbrev HandedOver (moment : Moment U) (part : Part U) : Prop :=
  moment.ClosedBy (moment.handed part.site.scope) part

/-- What holds of the parts that a value of a scope is made of. -/
structure Secured (moment : Moment U) (home : Scope U) (part : Part U) : Prop where
  inLine : moment.InLine home part
  handedOver : moment.HandedOver part

section Secured

variable {moment next : Moment U} {home above : Scope U} {part : Part U} {scope : ScopeId}

/-- What was handed to a scope stays handed. -/
theorem mem_handed_of_suffix {closer : PendingCloser U} (member : closer ∈ moment.handed scope)
    (grows : moment.history <:+ next.history) : closer ∈ next.handed scope := by
  obtain ⟨entry, did, hands⟩ := List.mem_flatMap.mp member
  exact List.mem_flatMap.mpr ⟨entry, grows.mem did, hands⟩

theorem InLine.mono (inLine : moment.InLine home part)
    (grows : moment.history <:+ next.history) : next.InLine home part := by
  obtain ⟨keeper, holder⟩ := inLine
  exact ⟨keeper, { holder with houses := holder.houses.mono grows }⟩

theorem ClosedBy.mono {closers more : List (PendingCloser U)}
    (closed : moment.ClosedBy closers part) (grows : moment.history <:+ next.history)
    (subset : closers ⊆ more) : next.ClosedBy more part := by
  intro isFactory closes
  obtain ⟨closer, member, same, decorated⟩ := closed isFactory closes
  exact ⟨closer, subset member, same, decorated.mono grows⟩

theorem HandedOver.mono (handed : moment.HandedOver part)
    (grows : moment.history <:+ next.history) : next.HandedOver part :=
  ClosedBy.mono handed grows fun _ member => mem_handed_of_suffix member grows

theorem Secured.mono (secured : moment.Secured home part)
    (grows : moment.history <:+ next.history) : next.Secured home part where
  inLine := secured.inLine.mono grows
  handedOver := secured.handedOver.mono grows

/-- What is secured above a scope is secured for the scope. -/
theorem Secured.below (secured : moment.Secured above part) (isAbove : above.Above home) :
    moment.Secured home part where
  inLine := by
    obtain ⟨keeper, holder⟩ := secured.inLine
    exact ⟨keeper, { holder with above := holder.above.trans isAbove }⟩
  handedOver := secured.handedOver

/-- What a key of a scope yields comes from secured parts alone. -/
abbrev Provides (moment : Moment U) (home : Scope U) (key : Key) (value : Value U) : Prop :=
  moment.Draws (moment.Secured home) home key value

theorem Stems.later {content : Content U} (stems : moment.Stems (moment.Secured home) part content)
    (grows : moment.history <:+ next.history) : next.Stems (next.Secured home) part content :=
  stems.mono grows fun _ secured => secured.mono grows

theorem Provides.mono {key : Key} {value : Value U} (provides : moment.Provides home key value)
    (grows : moment.history <:+ next.history) : next.Provides home key value :=
  Draws.mono provides grows fun _ secured => secured.mono grows

end Secured

end Moment

end Provision
