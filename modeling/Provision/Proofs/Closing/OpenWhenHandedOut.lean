import Provision.Proofs.Closing.ClosersRunOnce
import Provision.Proofs.Instances.KeptInstances

/-!
# What is handed out is open

A request that resolves a key looks whether the scope that keeps the service is open before it
hands the service out, and for a list it does so for every item.  A closer runs only once its
scope was shut, so at that time none of them has run.  The exception is a fixed value that an
ancestor registered: it is handed out whether or not that ancestor is open.

Main statement: `handed_out_open`.
-/

namespace Provision

open Moment

variable {U : Client}

/-- What a key hands out to a scope: a service with its binding and the scope that closes it, and
for the key of a list what the keys of its items hand out. -/
inductive Scope.Hands : Scope U → Key → Binding U → Scope U → Prop where
  | made {scope : Scope U} {key : Key} {binding : Binding U} {home : Scope U} :
      scope.Finds key binding home → Hands scope key binding home
  | fixed {scope : Scope U} {key : Key} {binding : Binding U} {owner : Scope U} :
      scope.registry.find? key = some binding → binding.IsValue →
        scope.ancestor? binding.owner = some owner → Hands scope key binding owner
  | item {scope : Scope U} {key : Key} {list : Binding U} {home : Scope U} {wanted : Key}
      {binding : Binding U} {keeper : Scope U} :
      scope.Finds key list home → list.recipe.isList = true →
        .service wanted ∈ list.recipe.params → Hands home wanted binding keeper →
          Hands scope key binding keeper

namespace Moment

/-- A request looked at a scope and found it open. -/
def FoundOpen (moment : Moment U) (id : RequestId) (scope : ScopeId) : Prop :=
  moment.Did id (.performed (.isClosed scope) false)

/-- A request found all scopes open that close what a key hands out to a scope, apart from the
fixed values of ancestors. -/
def Checked (moment : Moment U) (id : RequestId) (scope : Scope U) (key : Key) : Prop :=
  ∀ binding keeper, scope.Hands key binding keeper →
    (binding.IsValue → binding.owner = scope.id) → moment.FoundOpen id keeper.id

/-- The same for all keys among parameters. -/
def CheckedAll (moment : Moment U) (id : RequestId) (scope : Scope U) (params : List Param) :
    Prop :=
  ∀ wanted, .service wanted ∈ params → moment.Checked id scope wanted

theorem FoundOpen.mono {moment next : Moment U} {id : RequestId} {scope : ScopeId}
    (found : moment.FoundOpen id scope) (grows : moment.history <:+ next.history) :
    next.FoundOpen id scope :=
  grows.mem found

theorem Checked.mono {moment next : Moment U} {id : RequestId} {scope : Scope U} {key : Key}
    (checked : moment.Checked id scope key) (grows : moment.history <:+ next.history) :
    next.Checked id scope key :=
  fun binding keeper hands own => (checked binding keeper hands own).mono grows

theorem CheckedAll.mono {moment next : Moment U} {id : RequestId} {scope : Scope U}
    {params : List Param} (checked : moment.CheckedAll id scope params)
    (grows : moment.history <:+ next.history) : next.CheckedAll id scope params :=
  fun wanted member => (checked wanted member).mono grows

end Moment

/-- Whoever resolves a key has found open what hands the service out. -/
def Conduct.checking : Conduct U := fun moment entry =>
  match entry.event with
  | .finished (.ok (.resolved _)) => ∀ demand, moment.Did entry.request (.started demand) →
      ∀ scope key, demand.Asks scope key → moment.Checked entry.request scope key
  | _ => True

section Requests

variable {rely : Conduct U} {id : RequestId} {start : Moment U}

/-- Only the end of a request has to be checked. -/
theorem keeps_checking {α : Type} (program : Program U α) :
    program.Keeps rely Conduct.checking id (fun _ _ => True) start := by
  induction program generalizing start with
  | done result => exact fun _ _ _ => trivial
  | perform operation next ih => exact fun _ _ _ answer _ _ => ⟨trivial, ih answer⟩
  | ask call next ih =>
      exact fun _ _ _ => ⟨trivial, fun _ _ _ _ _ answer _ _ => ⟨trivial, ih answer⟩⟩
  | never => trivial

/-- What lasts is not undone by a request. -/
theorem keeps_lasting {α : Type} (request : Request U α) {holds : Moment U → Prop}
    (lasts : ∀ {moment next : Moment U}, moment.history <:+ next.history → holds moment →
      holds next) (initially : holds start) :
    Request.Keeps rely Conduct.checking id (fun _ => holds) request start :=
  (keeps_checking request.run).grows.mono fun _ _ _ reached => lasts reached.1 initially

/-- After a successful look at a scope it was found open. -/
theorem keeps_ensureOpen (scope : ScopeId) :
    Request.Keeps rely Conduct.checking id
      (Ends (fun _ moment => moment.FoundOpen id scope) fun _ _ => True) (ensureOpen scope)
      start := by
  refine Request.keeps_bind_act fun moment closed after _ _ recorded => ⟨trivial, ?_⟩
  cases closed with
  | true => exact Request.keeps_fail fun _ _ _ => trivial
  | false =>
      exact Request.keeps_pure fun last passage _ =>
        passage.suffix.mem recorded.did

/-- The scope that keeps a service was found open before it is used. -/
theorem keeps_effectiveScope {scope : Scope U} (key : Key) (binding : Binding U)
    (opened : start.FoundOpen id scope.id) :
    Request.Keeps rely Conduct.checking id
      (Ends (fun home moment => binding.home? scope = some home ∧ moment.FoundOpen id home.id)
        fun _ _ => True)
      (effectiveScope scope key binding) start := by
  unfold effectiveScope Binding.home?
  cases binding.recipe.lifetime with
  | singleton =>
      cases found : scope.ancestor? binding.owner with
      | none => exact Request.keeps_fail fun _ _ _ => trivial
      | some owner =>
          refine Request.keeps_bind (keeps_ensureOpen owner.id) (fun _ _ _ _ => trivial) ?_
          exact fun _ _ _ opened => Request.keeps_pure fun _ passage _ =>
            ⟨rfl, FoundOpen.mono opened passage.suffix⟩
  | perScope =>
      by_cases owns : scope.id = binding.owner
      · simp only [owns, if_true]
        exact Request.keeps_fail fun _ _ _ => trivial
      · simp only [owns, if_false]
        exact Request.keeps_pure fun _ passage _ => ⟨rfl, opened.mono passage.suffix⟩
  | transient =>
      exact Request.keeps_pure fun _ passage _ => ⟨rfl, opened.mono passage.suffix⟩

/-- What is handed out was checked once its keeper was, and for a list also its items. -/
theorem Moment.FoundOpen.checked {moment : Moment U} {scope home : Scope U} {key : Key}
    {binding : Binding U} (opened : moment.FoundOpen id home.id)
    (finds : scope.Finds key binding home) (proper : binding.Proper key)
    (items : binding.recipe.isList = true → moment.CheckedAll id home binding.recipe.params) :
    moment.Checked id scope key := by
  intro found keeper hands own
  cases hands with
  | made finds' =>
      obtain ⟨rfl, rfl⟩ := finds.unique finds'
      exact opened
  | fixed bound isValue _ =>
      rw [Option.some.inj (bound.symm.trans finds.bound)] at isValue
      exact absurd isValue finds.made
  | item finds' isList member inner =>
      obtain ⟨rfl, rfl⟩ := finds.unique finds'
      -- a list is collected anew in the scope that asks for it
      have isHome := finds.home
      rw [Binding.home?, (proper.list isList).1] at isHome
      have same := Option.some.inj isHome
      exact items isList _ member found keeper inner fun isValue => same ▸ own isValue

/-- A resolver whose results are checked. -/
def Checks (rely : Conduct U) (id : RequestId) (resolver : Resolver U) : Prop :=
  ∀ {start : Moment U} {scope : Scope U} (context : ContextId) (key : Key) (active : List Key),
    scope.Built → Request.Keeps rely Conduct.checking id
      (Ends (fun _ moment => moment.Checked id scope key) fun _ _ => True)
      (resolver scope context key active) start

variable {resolver : Resolver U} {scope home : Scope U} {key : Key} {binding : Binding U}

/-- Resolving parameters checks the scopes of all that they ask for. -/
theorem Checks.arguments (checks : Checks rely id resolver) (built : home.Built)
    (context : ContextId) (service : Key) (active : List Key) (flag : FlagId)
    (params : List Param) :
    Request.Keeps rely Conduct.checking id
      (Ends (fun _ moment => moment.CheckedAll id home params) fun _ _ => True)
      (resolver.arguments home context service active flag params) start := by
  induction params generalizing start with
  | nil => exact Request.keeps_pure fun _ _ _ _ member => absurd member List.not_mem_nil
  | cons param params ih =>
      have first : Request.Keeps rely Conduct.checking id
          (Ends (fun _ moment => ∀ wanted, param = .service wanted →
            moment.Checked id home wanted) fun _ _ => True)
          (wrapDependency service param (resolver.argument home context active flag param))
          start := by
        cases param with
        | context => exact Request.keeps_pure fun _ _ _ _ impossible => nomatch impossible
        | scope => exact Request.keeps_pure fun _ _ _ _ impossible => nomatch impossible
        | service needed =>
            have resolved : Request.Keeps rely Conduct.checking id
                (Ends (fun _ moment => moment.Checked id home needed) fun _ _ => True)
                (resolver.argument home context active flag (.service needed)) start := by
              refine Request.keeps_bind (checks context needed active built)
                (fun _ _ _ _ => trivial) ?_
              exact fun _ _ _ checked => Request.keeps_pure fun _ passage _ =>
                Checked.mono checked passage.suffix
            refine Request.keeps_tryCatch resolved ?_ ?_
            · intro argument moment _ checked wanted same
              exact Param.service.inj same ▸ checked
            · exact fun _ _ _ _ => Request.keeps_fail fun _ _ _ => trivial
      refine Request.keeps_bind first (fun _ _ _ _ => trivial) ?_
      intro argument moment _ checked
      refine Request.keeps_bind ih.grows (fun _ _ _ _ => trivial) ?_
      rintro rest last _ ⟨grown, checkedRest⟩
      refine Request.keeps_pure fun later passage _ wanted member => ?_
      rcases List.mem_cons.mp member with same | below
      · exact (checked wanted same.symm).mono (grown.trans passage.suffix)
      · exact (checkedRest wanted below).mono passage.suffix

/-- The items of a list are checked while its inputs are resolved. -/
theorem Checks.create (checks : Checks rely id resolver) (built : home.Built)
    (context : ContextId) (key : Key) (active : List Key)
    (anew : binding.recipe.lifetime = .transient) :
    Request.Keeps rely Conduct.checking id
      (Ends (fun _ moment => moment.CheckedAll id home binding.recipe.params) fun _ _ => True)
      (resolver.create home context key binding active) start := by
  have unmade : isMade home.id binding.recipe = pure false := by
    rw [isMade, anew]
    rfl
  have inputs : Request.Keeps rely Conduct.checking id
      (Ends (fun _ moment => moment.CheckedAll id home binding.recipe.params) fun _ _ => True)
      (resolver.inputs home context key binding (active ++ [key])) start := by
    unfold Resolver.inputs
    rw [unmade]
    refine Request.keeps_bind_act fun _ flag numbered _ _ _ => ⟨trivial, ?_⟩
    have looked : Request.Keeps rely Conduct.checking id
        (Ends (fun made _ => made = false) fun _ _ => True) (pure false) numbered :=
      Request.keeps_pure fun _ _ _ => rfl
    refine Request.keeps_bind looked (fun _ _ _ _ => trivial) ?_
    rintro _ unmade _ rfl
    refine Request.keeps_bind (checks.arguments built context key (active ++ [key]) flag
      binding.recipe.params) (fun _ _ _ _ => trivial) ?_
    intro arguments moment _ checked
    refine Request.keeps_bind (keeps_lasting _ (fun grows checked => CheckedAll.mono checked grows)
      (show moment.CheckedAll id home binding.recipe.params from checked))
        (fun _ _ _ _ => trivial) ?_
    exact fun _ _ _ checked => Request.keeps_pure fun _ passage _ =>
      CheckedAll.mono checked passage.suffix
  rw [Resolver.create_eq]
  refine Request.keeps_bind inputs (fun _ _ _ _ => trivial) ?_
  intro inputs moment _ checked
  refine (keeps_lasting _ (fun grows checked => CheckedAll.mono checked grows)
    (show moment.CheckedAll id home binding.recipe.params from checked)).mono ?_
  rintro (error | value) last _ checked
  · trivial
  · exact checked

/-- A key that is bound to something that has to be made. -/
theorem Checks.resolveIn (checks : Checks rely id resolver) (built : scope.Built)
    (context : ContextId) (active : List Key) (finds : scope.Finds key binding home)
    (opened : start.FoundOpen id home.id) :
    Request.Keeps rely Conduct.checking id
      (Ends (fun _ moment => moment.Checked id scope key) fun _ _ => True)
      (resolver.resolveIn home context key binding active) start := by
  have proper := built.sound.proper finds.bound
  cases isList : binding.recipe.isList with
  | false =>
      have checked := opened.checked finds proper fun impossible =>
        nomatch isList.symm.trans impossible
      refine (keeps_lasting _ (fun grows checked => Checked.mono checked grows) checked).mono ?_
      rintro (error | value) moment _ checked
      · trivial
      · exact checked
  | true =>
      have anew := (proper.list isList).1
      have same : home = scope := by
        have isHome := finds.home
        rw [Binding.home?, anew] at isHome
        exact (Option.some.inj isHome).symm
      subst same
      have unkept : recallShown home.id binding = pure none := by
        rw [recallShown, anew]
        rfl
      rw [Resolver.resolveIn, unkept]
      change Request.Keeps rely Conduct.checking id _
        (if key ∈ active then Request.fail (.cycle (cycleChain active key))
          else resolver.create home context key binding active) start
      by_cases isActive : key ∈ active
      · rw [if_pos isActive]
        exact Request.keeps_fail fun _ _ _ => trivial
      · rw [if_neg isActive]
        refine (checks.create built context key active anew).grows.mono ?_
        rintro (error | value) moment _ ⟨grown, checked⟩
        · trivial
        · exact (opened.mono grown).checked finds proper fun _ => checked

/-- One level of resolution. -/
theorem Checks.resolve (checks : Checks rely id resolver) : Checks rely id resolver.resolve := by
  intro start scope context key active built
  unfold Resolver.resolve
  refine Request.keeps_bind (keeps_checking _) (fun _ _ _ _ => trivial) ?_
  intro _ usable _ _
  refine Request.keeps_bind (keeps_ensureOpen scope.id) (fun _ _ _ _ => trivial) ?_
  intro _ moment _ opened
  cases bound : scope.registry.find? key with
  | none => exact Request.keeps_fail fun _ _ _ => trivial
  | some binding =>
      have makes : ¬ binding.IsValue → Request.Keeps rely Conduct.checking id
          (Ends (fun _ moment => moment.Checked id scope key) fun _ _ => True)
          (do
            let effective ← effectiveScope scope key binding
            resolver.resolveIn effective context key binding active) moment := by
        intro made
        refine Request.keeps_bind (keeps_effectiveScope key binding opened)
          (fun _ _ _ _ => trivial) ?_
        exact fun home last _ reached =>
          checks.resolveIn built context active ⟨bound, made, reached.1⟩ reached.2
      cases source : binding.recipe.source with
      | value content =>
          have isValue : binding.IsValue := ⟨content, source⟩
          have checked : moment.Checked id scope key := by
            intro found keeper hands own
            cases hands with
            | made finds =>
                rw [Option.some.inj (finds.bound.symm.trans bound)] at finds
                exact absurd isValue finds.made
            | item finds _ _ _ =>
                rw [Option.some.inj (finds.bound.symm.trans bound)] at finds
                exact absurd isValue finds.made
            | fixed bound' _ isOwner =>
                rw [Option.some.inj (bound'.symm.trans bound)] at own isOwner
                rw [(Scope.ancestor?_some isOwner).1, own isValue]
                exact opened
          simp only [source]
          refine (keeps_lasting _ (fun grows checked => Checked.mono checked grows) checked).mono ?_
          rintro (error | value) last _ checked
          · trivial
          · exact checked
      | factory make =>
          simp only [source]
          exact makes fun ⟨_, isValue⟩ => by rw [source] at isValue; cases isValue
      | list item =>
          simp only [source]
          exact makes fun ⟨_, isValue⟩ => by rw [source] at isValue; cases isValue

/-- Resolution checks scopes at every depth. -/
theorem checks_resolveWithin (depth : Nat) :
    Checks rely id (resolveWithin depth : Resolver U) := by
  induction depth with
  | zero => exact fun _ _ _ _ => trivial
  | succ depth ih => exact ih.resolve

/-- A demand that comes down to one key. -/
theorem keeps_resolved {demand : Demand U} {request : Request U (Value U)}
    (only : ∀ other wanted, demand.Asks other wanted → other = scope ∧ wanted = key)
    (keeps : Request.Keeps rely Conduct.checking id
      (Ends (fun _ moment => moment.Checked id scope key) fun _ _ => True) request start) :
    Request.Keeps rely Conduct.checking id
      (Ends (fun _ moment => ∀ other wanted, demand.Asks other wanted →
        moment.Checked id other wanted) fun _ _ => True)
      (do
        let value ← request
        pure (Reply.resolved value)) start := by
  refine Request.keeps_bind keeps (fun _ _ _ _ => trivial) ?_
  intro value moment _ checked
  refine Request.keeps_pure fun last passage _ other wanted asks => ?_
  obtain ⟨rfl, rfl⟩ := only other wanted asks
  exact Checked.mono checked passage.suffix

/-- A request for a key checks the scopes of what it resolves. -/
theorem keeps_resolve (built : scope.Built) (context : ContextId) :
    Request.Keeps rely Conduct.checking id
      (Ends (fun _ moment => moment.Checked id scope key) fun _ _ => True)
      (Provision.resolve scope context key) start :=
  checks_resolveWithin _ context key [] built

/-- A typed request for a key checks the scopes of what it resolves. -/
theorem keeps_resolveTyped (built : scope.Built) (context : ContextId) :
    Request.Keeps rely Conduct.checking id
      (Ends (fun _ moment => moment.Checked id scope key) fun _ _ => True)
      (scope.resolveTyped context key) start := by
  refine Request.keeps_bind (keeps_resolve built context) (fun _ _ _ _ => trivial) ?_
  intro value moment _ checked
  by_cases typed : value.type = key.type
  · simp only [typed, if_true]
    exact Request.keeps_pure fun _ passage _ => Checked.mono checked passage.suffix
  · simp only [typed, if_false]
    exact Request.keeps_fail fun _ _ _ => trivial

/-- What a demand is answered with was checked. -/
theorem Demand.keeps_checked {demand : Demand U} (built : ∀ scope ∈ demand.scopes, scope.Built) :
    Request.Keeps rely Conduct.checking id
      (Ends (fun reply moment => ∀ value, reply = .resolved value → ∀ scope key,
        demand.Asks scope key → moment.Checked id scope key) fun _ _ => True)
      demand.request start := by
  have checked : ∀ {post : Reply U → Moment U → Prop}, (∀ reply moment, post reply moment →
      ∀ value, reply = .resolved value → ∀ scope key, demand.Asks scope key →
        moment.Checked id scope key) →
      Request.Keeps rely Conduct.checking id (Ends post fun _ _ => True) demand.request start →
      Request.Keeps rely Conduct.checking id
        (Ends (fun reply moment => ∀ value, reply = .resolved value → ∀ scope key,
          demand.Asks scope key → moment.Checked id scope key) fun _ _ => True)
        demand.request start := by
    intro post implies keeps
    refine keeps.mono ?_
    rintro (error | reply) moment _ reached
    · trivial
    · exact implies reply moment reached
  cases demand with
  | resolve scope context key =>
      refine checked (fun _ _ all _ _ => all) (keeps_resolved ?_
        (keeps_resolve (built scope (List.mem_singleton_self _)) context))
      rintro _ _ ⟨⟩
      exact ⟨rfl, rfl⟩
  | resolveTyped scope context key =>
      refine checked (fun _ _ all _ _ => all) (keeps_resolved ?_
        (keeps_resolveTyped (built scope (List.mem_singleton_self _)) context))
      rintro _ _ ⟨⟩
      exact ⟨rfl, rfl⟩
  | resolveThrough handle context key =>
      refine checked (fun _ _ all _ _ => all) (keeps_resolved ?_
        (Request.keeps_bind (keeps_checking _) (fun _ _ _ _ => trivial) fun _ _ _ _ =>
          keeps_resolve (built handle.scope (List.mem_singleton_self _)) context))
      rintro _ _ ⟨⟩
      exact ⟨rfl, rfl⟩
  | resolveTypedThrough handle context key =>
      refine checked (fun _ _ all _ _ => all) (keeps_resolved ?_
        (Request.keeps_bind (keeps_checking _) (fun _ _ _ _ => trivial) fun _ _ _ _ =>
          keeps_resolveTyped (built handle.scope (List.mem_singleton_self _)) context))
      rintro _ _ ⟨⟩
      exact ⟨rfl, rfl⟩
  | build parent registrations =>
      exact Request.keeps_bind (keeps_checking _) (fun _ _ _ _ => trivial) fun _ _ _ _ =>
        Request.keeps_pure fun _ _ _ _ impossible => nomatch impossible
  | invoke scope context params routine =>
      exact Request.keeps_bind (keeps_checking _) (fun _ _ _ _ => trivial) fun _ _ _ _ =>
        Request.keeps_pure fun _ _ _ _ impossible => nomatch impossible
  | close scope context =>
      exact Request.keeps_bind (keeps_checking _) (fun _ _ _ _ => trivial) fun _ _ _ _ =>
        Request.keeps_pure fun _ _ _ _ impossible => nomatch impossible
  | discard scope =>
      exact Request.keeps_bind (keeps_checking _) (fun _ _ _ _ => trivial) fun _ _ _ _ =>
        Request.keeps_pure fun _ _ _ _ impossible => nomatch impossible

/-- All requests check what they hand out. -/
theorem kept_checking
    (within : ∀ moment entry, rely moment entry →
      (Conduct.orderly.and Conduct.growing) moment entry) :
    Conduct.Kept rely Conduct.checking where
  started := fun _ _ _ _ _ => trivial
  follows := by
    intro moment id demand after lawful orderly recorded
    have began : after.Did id (.started demand) := recorded.did
    have built : ∀ scope ∈ demand.scopes, scope.Built := fun scope member =>
      ((orderly.2 scope member).grown (lawful.mono within)).built
    refine (Demand.keeps_checked built).grows.mono ?_
    rintro (error | reply) last lawful' ⟨grown, checked⟩
    · trivial
    cases reply with
    | resolved value =>
        intro other began' scope key asks
        have same := (lawful'.mono fun _ _ allowed => (within _ _ allowed).1).started_once
          (grown.mem began) began'
        subst same
        exact checked value rfl scope key asks
    | built _ => trivial
    | invoked _ => trivial
    | nothing => trivial

end Requests

/-! ## Closing -/

/-- No request shuts a scope while it resolves. -/
def Conduct.shutting : Conduct U := fun moment entry =>
  match entry.event with
  | .performed (.shut _) _ =>
      ∀ demand, moment.Did entry.request (.started demand) → ¬ demand.Resolves
  | _ => True

/-- Producing values shuts no scope. -/
theorem Conduct.shutting_of_producing {moment : Moment U} {id : RequestId} {event : Event U}
    (producing : event.Producing) : Conduct.shutting moment ⟨id, event⟩ := by
  cases event with
  | performed operation answer => cases operation <;> first | exact trivial | exact producing.elim
  | called call => trivial
  | returned call answer => trivial
  | started demand => trivial
  | finished reply => trivial

section Shutting

variable {rely : Conduct U} {id : RequestId}

/-- All requests keep to that. -/
theorem kept_shutting (within : ∀ moment entry, rely moment entry → Conduct.orderly moment entry) :
    Conduct.Kept rely Conduct.shutting where
  started := fun _ _ _ _ _ => trivial
  follows := by
    intro moment id demand after _ _ recorded
    have began : after.Did id (.started demand) := recorded.did
    by_cases resolves : demand.Resolves
    · refine ((resolving rely id ?_ ?_).asking resolves (fun _ _ => trivial) trivial).mono
        fun _ _ _ _ => trivial
      · exact fun making => Conduct.shutting_of_producing making.producing
      · exact fun start home context key binding inputs =>
          ((only_produceFrom home context key binding inputs).keeps fun _ _ _ _ =>
            Conduct.shutting_of_producing).mono fun _ _ _ _ => trivial
    · refine ((Demand.only_tending resolves).keeps ?_).mono fun _ _ _ _ => trivial
      intro later event passage lawful tending
      cases event with
      | performed operation answer =>
          cases operation with
          | shut scope =>
              intro other began'
              rw [← (lawful.mono within).started_once (passage.suffix.mem began) began']
              exact resolves
          | _ => trivial
      | called call => trivial
      | returned call answer => trivial
      | started demand => trivial
      | finished reply => trivial

end Shutting

namespace Moment

/-- A scope that was found open was not shut before. -/
theorem Lawful.open_not_shut {conduct : Conduct U} {moment : Moment U}
    (lawful : moment.Lawful conduct) {id : RequestId} {scope : ScopeId}
    {earlier : List (Entry U)}
    (found : ⟨id, .performed (.isClosed scope) false⟩ :: earlier <:+ moment.history)
    (other : RequestId) (closers : List (PendingCloser U)) :
    ⟨other, .performed (.shut scope) (some closers)⟩ ∉ earlier := by
  induction lawful with
  | initial => cases List.suffix_nil.mp found
  | contexts contexts _ ih => exact ih found
  | @records moment next entry lawful recorded _ ih =>
      rw [recorded.history] at found
      rcases List.suffix_cons_iff.mp found with now | before
      · obtain ⟨rfl, rfl⟩ := List.cons.inj now
        intro did
        have closed := ((lawful.closed scope).2 other closers did).1
        have performs : (Operation.isClosed scope).perform moment.state =
            some (false, next.state) := recorded.state
        simp only [Operation.perform, closed] at performs
        cases performs
      · exact ih before

/-- No closer runs before its scope is shut. -/
theorem ClosesOnce.ran_nil {moment : Moment U} {scope : ScopeId}
    (closes : moment.ClosesOnce scope)
    (unshut : ∀ id closers, ¬ moment.Did id (.performed (.shut scope) (some closers))) :
    moment.ran scope = [] := by
  rw [List.eq_nil_iff_forall_not_mem]
  intro closer member
  obtain ⟨⟨id, event⟩, did, runs⟩ := List.mem_flatMap.mp member
  have byId : closer ∈ ranBy moment.history id scope :=
    List.mem_flatMap.mpr ⟨_, did, by rw [if_pos rfl]; exact runs⟩
  obtain ⟨⟨other, taking⟩, did', takes⟩ :=
    List.mem_flatMap.mp ((closes.ranByTaker id).subset byId)
  by_cases same : other = id
  · subst same
    rw [if_pos rfl] at takes
    cases taking with
    | performed operation answer =>
        cases operation with
        | attach target _ =>
            cases answer with
            | true => cases takes
            | false =>
                simp only [Event.takesOver, List.mem_ite_nil_right] at takes
                obtain ⟨rfl, _⟩ := takes
                obtain ⟨⟨closing, closers, shut⟩, _⟩ := closes.refused _ _ did'
                exact unshut closing closers shut
        | shut target =>
            cases answer with
            | none => cases takes
            | some closers =>
                simp only [Event.takesOver, List.mem_ite_nil_right] at takes
                obtain ⟨rfl, _⟩ := takes
                exact unshut _ closers did'
        | _ => cases takes
    | called call => cases takes
    | returned call answer => cases takes
    | started demand => cases takes
    | finished reply => cases takes
  · rw [if_neg same] at takes
    cases takes

end Moment

/-- When a request that resolves a key ends with a value, no closer has run of any scope that
closes what the key handed out, unless another request shut that scope in the meantime.  The fixed
values of ancestors are left out: nobody looks whether these are open. -/
theorem handed_out_open {activity : Activity U} (reachable : activity.Reachable) {id : RequestId}
    {demand : Demand U} {value : Value U} {meanwhile earlier : List (Entry U)}
    (history : activity.moment.history = ⟨id, .finished (.ok (.resolved value))⟩ ::
      (meanwhile ++ ⟨id, .started demand⟩ :: earlier))
    {scope keeper : Scope U} {key : Key} {binding : Binding U} (asks : demand.Asks scope key)
    (hands : scope.Hands key binding keeper) (own : binding.IsValue → binding.owner = scope.id)
    (unshut : ∀ other closers, other ≠ id →
      ⟨other, .performed (.shut keeper.id) (some closers)⟩ ∉ meanwhile) :
    activity.moment.ran keeper.id = [] := by
  have kept : Conduct.Kept
      (Conduct.orderly.and (Conduct.growing.and (Conduct.checking.and Conduct.shutting)))
      ((@Conduct.growing U).and (Conduct.checking.and Conduct.shutting)) :=
    kept_growing.and ((kept_checking fun _ _ all => ⟨all.1, all.2.1⟩).and
      (kept_shutting fun _ _ all => all.1))
  have lawful := reachable.lawful kept
  -- the keeper was found open by the request itself, so after it began
  have finished : ⟨id, .finished (.ok (.resolved value))⟩ ::
      (meanwhile ++ ⟨id, .started demand⟩ :: earlier) <:+ activity.moment.history :=
    ⟨[], history.symm⟩
  obtain ⟨before, _, sofar, _, _, checked, _⟩ := lawful.allowed_at finished
  have began : before.Did id (.started demand) := by
    rw [Did, sofar]
    exact List.mem_append_right _ List.mem_cons_self
  have found := checked demand began scope key asks binding keeper hands own
  have started : ⟨id, .started demand⟩ :: earlier <:+ activity.moment.history := by
    rw [history]
    exact (List.suffix_append _ _).trans (List.suffix_cons _ _)
  obtain ⟨initially, _, unknown, ⟨fresh, _⟩, _⟩ := lawful.allowed_at started
  have inMeanwhile : ⟨id, .performed (.isClosed keeper.id) false⟩ ∈ meanwhile := by
    rw [FoundOpen, Did, sofar] at found
    rcases List.mem_append.mp found with inside | outside
    · exact inside
    · rcases List.mem_cons.mp outside with impossible | too
      · cases impossible
      · have knows : initially.Knows id := ⟨_, unknown.symm ▸ too, rfl⟩
        exact absurd knows fresh
  obtain ⟨later, sooner, split⟩ := List.append_of_mem inMeanwhile
  have looked : ⟨id, .performed (.isClosed keeper.id) false⟩ ::
      (sooner ++ ⟨id, .started demand⟩ :: earlier) <:+ activity.moment.history := by
    rw [history, split, List.append_assoc, List.cons_append]
    exact (List.suffix_append _ _).trans (List.suffix_cons _ _)
  refine (reachable.lawful_paying.closesOnce keeper.id).ran_nil fun other closers shut => ?_
  have shut' := shut
  rw [Did, history] at shut
  rcases List.mem_cons.mp shut with impossible | within
  · cases impossible
  rcases List.mem_append.mp within with inside | outside
  · by_cases same : other = id
    · subst same
      obtain ⟨shutting, _, grows, orderly, _, _, allowed⟩ := lawful.allowed shut'
      obtain ⟨demand', began'⟩ := orderly.1
      have isDemand := (lawful.mono fun _ _ all => all.1).started_once
        (grows.mem began') (started.mem List.mem_cons_self)
      exact absurd (isDemand ▸ asks.resolves) (allowed demand' began')
    · exact unshut other closers same inside
  · exact lawful.open_not_shut looked other closers (List.mem_append_right _ outside)

namespace Lent

open Closed

/-- A scope below the one that keeps the service. -/
def child : Scope Client.obliging :=
  ((Builder.child ⟨2⟩ scope).addAll []).scope

/-- The binding of the service. -/
def binding : Binding Client.obliging where
  recipe :=
    ((Offer.factory key.type () []).closeWith ()).recipe (.registration ⟨1⟩ 0)
  registered := key
  owner := ⟨1⟩
  cast := none

/-- The world once the lower scope is built. -/
def extended : World Client.obliging Unit :=
  (Demand.build (some scope) []).afterwards Behaviour.obliging built

end Lent

/-- A service that a lower scope is handed by the open scope above it. -/
theorem lent_service_not_closed : ∃ activity : Activity Client.obliging,
    activity.Reachable ∧ activity.moment.Did ⟨2⟩ (.finished (.ok (.resolved Closed.value))) ∧
      (activity.moment.state.scope ⟨1⟩).closers.length = 1 ∧ activity.moment.ran ⟨1⟩ = [] := by
  have builds : (Demand.build none Closed.registrations).request.run.run Behaviour.obliging
      { state := {}, memory := () } = some (.ok (.built Closed.scope), Closed.built) := rfl
  have adds : (Demand.build (some Closed.scope) []).request.run.run Behaviour.obliging
      Closed.built = some (.ok (.built Lent.child), Lent.extended) := rfl
  have makes : (Demand.resolve Lent.child ⟨0⟩ Closed.key).request.run.run Behaviour.obliging
      Lent.extended = some (.ok (.resolved Closed.value),
        (Demand.resolve Lent.child ⟨0⟩ Closed.key).afterwards Behaviour.obliging Lent.extended) :=
    rfl
  have detached := Behaviour.obliging_detached
  obtain ⟨_, first, _⟩ := (Activity.Served.initial ()).next detached builds nofun
  obtain ⟨_, second, _⟩ := first.nextOn detached adds rfl List.mem_cons_self
  obtain ⟨activity, third, history⟩ := second.nextOn detached makes rfl
    (List.mem_cons_of_mem _ List.mem_cons_self)
  have unvalued : ¬ Lent.binding.IsValue := by
    rintro ⟨_, impossible⟩
    cases impossible
  have hands : Lent.child.Hands Closed.key Lent.binding Closed.scope :=
    .made ⟨rfl, unvalued, rfl⟩
  refine ⟨activity, third.reachable, (third.did 2 rfl).2, ?_, ?_⟩
  · rw [third.state]
    rfl
  · simp only [Demand.trace, List.map_cons, List.map_append, List.map_nil, List.cons_append,
      List.append_assoc, List.nil_append] at history
    refine handed_out_open third.reachable history (.resolve ..) hands
      (fun isValue => absurd isValue unvalued) fun other closers differs shut => ?_
    obtain ⟨_, _, same⟩ := List.mem_map.mp shut
    exact differs (congrArg Entry.request same).symm

end Provision
