import Provision.Proofs.Resolution.DependencyGraph

/-!
# The meaning of registrations

If the functions of a client only look at the services they are passed, the registrations say by
themselves what a key means: the constructor is applied to what its parameters mean, the result is
converted to the type of the key, and the decorators are applied in order.  Nothing is kept in
between, and nothing depends on what was resolved before.

Main statements: `Functions.Means.unique`, that a key has one meaning, and
`Scope.Grounded.meaning_eq`, that it is found by looking as deep as the rank of the key says.
-/

namespace Provision

variable {U : Client}

/-- What the functions of a client make of the services that they are passed. -/
structure Functions (U : Client) where
  construct : Site U → U.Constructor → List (Value U) → Content U
  decorate : Site U → Key → U.Transform → Content U → List (Value U) → Content U
  convert : Site U → Key → U.Cast → Content U → Content U

/-- The service that an argument is. -/
def Argument.service? : Argument U → Option (Value U)
  | service value => some value
  | _ => none

/-- The services among arguments, in order. -/
def servicesOf (arguments : List (Argument U)) : List (Value U) :=
  arguments.filterMap Argument.service?

/-- Services that are passed as arguments are read back. -/
@[simp] theorem servicesOf_services (values : List (Value U)) :
    servicesOf (values.map .service) = values := by
  induction values with
  | nil => rfl
  | cons value values ih => exact congrArg (value :: ·) ih

namespace Functions

variable (functions : Functions U)

/-- What a call answers if the functions only look at the services they are passed and never fail.
Nothing is said about closers and routines. -/
def Answers : (call : Call U) → call.Answer → Prop
  | .construct site make arguments, answer =>
      answer = .ok (functions.construct site make (servicesOf arguments))
  | .decorate site key transform target arguments, answer =>
      answer = .ok (functions.decorate site key transform target (servicesOf arguments))
  | .convert site key cast content, converted =>
      converted = functions.convert site key cast content
  | .accepts _, answer => answer = true
  | _, _ => True

/-- The services under the keys among parameters, in order, if all these keys mean something. -/
def values (eval : Key → Option (Content U)) : List Param → Option (List (Value U))
  | [] => some []
  | .service key :: params => do
      let content ← eval key
      let rest ← values eval params
      pure ({ type := key.type, content } :: rest)
  | _ :: params => values eval params

/-- What the recipe of a site makes of the services it needs. -/
def created (site : Site U) (services : List (Value U)) : Content U :=
  match site.recipe.source with
  | .value content => content
  | .factory make => functions.construct site make services
  | .list _ => .list (services.map Value.content)

/-- Some content as the binding of its recipe shows it. -/
def viewed (site : Site U) (binding : Binding U) (content : Content U) : Content U :=
  match binding.cast with
  | none => content
  | some cast => functions.convert site binding.registered cast content

/-- Some content after decorators, each with the services it needs. -/
def decorated (eval : Key → Option (Content U)) (site : Site U) :
    List (Decorator U) → Content U → Option (Content U)
  | [], content => some content
  | decorator :: decorators, content => do
      let services ← values eval decorator.params
      decorated eval site decorators
        (functions.decorate site decorator.target decorator.transform content services)

/-- What the recipe of a site makes of what its parameters mean. -/
def made (eval : Key → Option (Content U)) (site : Site U) : Option (Content U) :=
  (values eval site.recipe.params).map (functions.created site)

/-- What a binding comes to in the scope that keeps it: made, converted and decorated. -/
def finished (eval : Key → Option (Content U)) (home : Scope U) (binding : Binding U) :
    Option (Content U) := do
  let site : Site U := { scope := home.id, recipe := binding.recipe }
  let content ← functions.made eval site
  functions.decorated eval site (home.registry.decoratorsOf binding.registered)
    (functions.viewed site binding content)

/-- What a key of a scope means, as far as this shows with dependencies nested no deeper than
`depth`. -/
def meaning : (depth : Nat) → Scope U → Key → Option (Content U)
  | 0, _, _ => none
  | depth + 1, scope, key => do
      let binding ← scope.registry.find? key
      match binding.recipe.source with
      | .value content =>
          pure (functions.viewed { scope := scope.id, recipe := binding.recipe } binding content)
      | _ => do
          let home ← binding.home? scope
          functions.finished (meaning depth home) home binding

/-- A key of a scope means something. -/
def Means (scope : Scope U) (key : Key) (content : Content U) : Prop :=
  ∃ depth, functions.meaning depth scope key = some content

end Functions

/-- A way to give keys a meaning that agrees with another wherever that gives one. -/
def Refines (eval finer : Key → Option (Content U)) : Prop :=
  ∀ key content, eval key = some content → finer key = some content

namespace Functions

variable {functions : Functions U} {eval finer : Key → Option (Content U)}

/-- A list of services begins with the meaning of its first key. -/
theorem values_cons_service {key : Key} {params : List Param} {services : List (Value U)} :
    values eval (.service key :: params) = some services ↔ ∃ content rest,
      eval key = some content ∧ values eval params = some rest ∧
        services = ⟨key.type, content⟩ :: rest := by
  simp only [values, Option.bind_eq_bind, Option.bind_eq_some_iff, Option.pure_def,
    Option.some.injEq]
  constructor
  · rintro ⟨content, found, rest, others, rfl⟩
    exact ⟨content, rest, found, others, rfl⟩
  · rintro ⟨content, rest, found, others, rfl⟩
    exact ⟨content, found, rest, others, rfl⟩

theorem values_mono (refines : Refines eval finer) {params : List Param}
    {services : List (Value U)} (found : values eval params = some services) :
    values finer params = some services := by
  induction params generalizing services with
  | nil => exact found
  | cons param params ih =>
      cases param with
      | context => exact ih found
      | scope => exact ih found
      | service key =>
          obtain ⟨content, rest, means, others, rfl⟩ := values_cons_service.mp found
          exact values_cons_service.mpr ⟨content, rest, refines key content means, ih others, rfl⟩

theorem decorated_mono (refines : Refines eval finer) {site : Site U}
    {decorators : List (Decorator U)} {content result : Content U}
    (found : functions.decorated eval site decorators content = some result) :
    functions.decorated finer site decorators content = some result := by
  induction decorators generalizing content with
  | nil => exact found
  | cons decorator decorators ih =>
      obtain ⟨services, needs, rest⟩ := Option.bind_eq_some_iff.mp found
      exact Option.bind_eq_some_iff.mpr ⟨services, values_mono refines needs, ih rest⟩

theorem made_mono (refines : Refines eval finer) {site : Site U} {content : Content U}
    (found : functions.made eval site = some content) :
    functions.made finer site = some content := by
  obtain ⟨services, needs, rfl⟩ := Option.map_eq_some_iff.mp found
  exact Option.map_eq_some_iff.mpr ⟨services, values_mono refines needs, rfl⟩

theorem finished_mono (refines : Refines eval finer) {home : Scope U} {binding : Binding U}
    {content : Content U} (found : functions.finished eval home binding = some content) :
    functions.finished finer home binding = some content := by
  obtain ⟨made, makes, rest⟩ := Option.bind_eq_some_iff.mp found
  exact Option.bind_eq_some_iff.mpr ⟨made, made_mono refines makes, decorated_mono refines rest⟩

/-- The meaning of a key is that of the fixed value or the service that it is bound to. -/
theorem meaning_succ {depth : Nat} {scope : Scope U} {key : Key} {content : Content U} :
    functions.meaning (depth + 1) scope key = some content ↔
      ∃ binding, scope.registry.find? key = some binding ∧
        ((∃ fixed, binding.recipe.source = .value fixed ∧
            content = functions.viewed ⟨scope.id, binding.recipe⟩ binding fixed) ∨
          ∃ home, scope.Finds key binding home ∧
            functions.finished (functions.meaning depth home) home binding = some content) := by
  unfold meaning
  refine Option.bind_eq_some_iff.trans (exists_congr fun binding => and_congr_right fun bound => ?_)
  have fixed : (∃ fixed, binding.recipe.source = .value fixed ∧
      content = functions.viewed ⟨scope.id, binding.recipe⟩ binding fixed) → binding.IsValue :=
    fun ⟨fixed, source, _⟩ => ⟨fixed, source⟩
  have made (unfixed : ¬ binding.IsValue) :
      ((binding.home? scope).bind fun home =>
          functions.finished (functions.meaning depth home) home binding) = some content ↔
        (∃ fixed, binding.recipe.source = .value fixed ∧
            content = functions.viewed ⟨scope.id, binding.recipe⟩ binding fixed) ∨
          ∃ home, scope.Finds key binding home ∧
            functions.finished (functions.meaning depth home) home binding = some content := by
    rw [Option.bind_eq_some_iff]
    constructor
    · exact fun ⟨home, isHome, finished⟩ => .inr ⟨home, ⟨bound, unfixed, isHome⟩, finished⟩
    · rintro (isValue | ⟨home, finds, finished⟩)
      · exact absurd (fixed isValue) unfixed
      · exact ⟨home, finds.home, finished⟩
  cases source : binding.recipe.source with
  | value content' =>
      simp only
      constructor
      · exact fun same => .inl ⟨content', rfl, (Option.some.inj same).symm⟩
      · rintro (⟨_, ⟨⟩, rfl⟩ | ⟨home, finds, _⟩)
        · rfl
        · exact absurd ⟨content', source⟩ finds.made
  | factory make =>
      simp only [source] at made ⊢
      exact made fun ⟨_, isValue⟩ => by rw [source] at isValue; cases isValue
  | list item =>
      simp only [source] at made ⊢
      exact made fun ⟨_, isValue⟩ => by rw [source] at isValue; cases isValue

theorem meaning_mono {depth more : Nat} (deeper : depth ≤ more) (scope : Scope U) :
    Refines (functions.meaning depth scope) (functions.meaning more scope) := by
  induction depth generalizing more scope with
  | zero => exact fun _ _ impossible => nomatch impossible
  | succ depth ih =>
      obtain ⟨more, rfl⟩ := Nat.exists_eq_succ_of_ne_zero
        (Nat.ne_zero_of_lt (Nat.lt_of_succ_le deeper))
      intro key content found
      obtain ⟨binding, bound, fixed | ⟨home, finds, finished⟩⟩ := meaning_succ.mp found
      · exact meaning_succ.mpr ⟨binding, bound, .inl fixed⟩
      · exact meaning_succ.mpr ⟨binding, bound, .inr ⟨home, finds,
          finished_mono (ih (Nat.le_of_succ_le_succ deeper) home) finished⟩⟩

/-- A key means one thing. -/
theorem Means.unique {scope : Scope U} {key : Key} {content other : Content U}
    (means : functions.Means scope key content) (means' : functions.Means scope key other) :
    content = other := by
  obtain ⟨depth, found⟩ := means
  obtain ⟨more, found'⟩ := means'
  have first := meaning_mono (Nat.le_max_left depth more) scope key content found
  have second := meaning_mono (Nat.le_max_right depth more) scope key other found'
  exact Option.some.inj (first.symm.trans second)

end Functions

/-! ## Dependencies that end -/

/-- What a request for a key of a scope asks for on the way, each key with the scope that it is
looked up in. -/
inductive Scope.Requests (scope : Scope U) (key : Key) : Scope U → Key → Prop where
  | here : Requests scope key scope key
  | step {lower home : Scope U} {wanted needed : Key} {binding : Binding U} :
      Requests scope key lower wanted → lower.Finds wanted binding home →
        binding.Needs home needed → Requests scope key home needed

/-- Whatever a request for a key asks for is registered, and nothing that is kept for each scope is
asked for in the scope that registered it. -/
structure Scope.Supplied (scope : Scope U) (key : Key) : Prop where
  registered : ∀ {lower wanted}, scope.Requests key lower wanted →
    ∃ binding, lower.registry.find? wanted = some binding
  below : ∀ {lower wanted binding}, scope.Requests key lower wanted →
    lower.registry.find? wanted = some binding → ¬ binding.IsValue →
      binding.recipe.lifetime = .perScope → lower.id ≠ binding.owner

/-- Whatever a request for a key asks for is registered, nothing that is kept for each scope is
asked for in the scope that registered it, and a rank of keys falls along dependencies. -/
structure Scope.Grounded (scope : Scope U) (key : Key) (rank : Key → Nat) : Prop where
  registered : ∀ {lower wanted}, scope.Requests key lower wanted →
    ∃ binding, lower.registry.find? wanted = some binding
  below : ∀ {lower wanted binding}, scope.Requests key lower wanted →
    lower.registry.find? wanted = some binding → ¬ binding.IsValue →
      binding.recipe.lifetime = .perScope → lower.id ≠ binding.owner
  falls : ∀ {lower wanted binding home needed}, scope.Requests key lower wanted →
    lower.Finds wanted binding home → binding.Needs home needed → rank needed < rank wanted

namespace Functions

variable {functions : Functions U} {eval : Key → Option (Content U)}

/-- Values exist for parameters whose keys have a meaning. -/
theorem exists_values {params : List Param}
    (needs : ∀ key, .service key ∈ params → ∃ content, eval key = some content) :
    ∃ services, values eval params = some services := by
  induction params with
  | nil => exact ⟨[], rfl⟩
  | cons param params ih =>
      obtain ⟨rest, others⟩ := ih fun key member => needs key (List.mem_cons_of_mem _ member)
      cases param with
      | context => exact ⟨rest, others⟩
      | scope => exact ⟨rest, others⟩
      | service key =>
          obtain ⟨content, found⟩ := needs key List.mem_cons_self
          exact ⟨_, values_cons_service.mpr ⟨content, rest, found, others, rfl⟩⟩

/-- Decorators make something of a value if what they need has a meaning. -/
theorem exists_decorated {site : Site U} {decorators : List (Decorator U)}
    (needs : ∀ decorator ∈ decorators, ∀ key, .service key ∈ decorator.params →
      ∃ content, eval key = some content) (content : Content U) :
    ∃ result, functions.decorated eval site decorators content = some result := by
  induction decorators generalizing content with
  | nil => exact ⟨content, rfl⟩
  | cons decorator decorators ih =>
      obtain ⟨services, found⟩ := exists_values (needs decorator List.mem_cons_self)
      obtain ⟨result, rest⟩ := ih (fun other member => needs other (List.mem_cons_of_mem _ member))
        (functions.decorate site decorator.target decorator.transform content services)
      exact ⟨result, Option.bind_eq_some_iff.mpr ⟨services, found, rest⟩⟩

/-- A binding has a finished value if what it needs has a meaning. -/
theorem exists_finished {home : Scope U} {binding : Binding U}
    (needs : ∀ key, binding.Needs home key → ∃ content, eval key = some content) :
    ∃ content, functions.finished eval home binding = some content := by
  obtain ⟨services, found⟩ := exists_values fun key member => needs key (.inl member)
  have makes : functions.made eval ⟨home.id, binding.recipe⟩ =
      some (functions.created ⟨home.id, binding.recipe⟩ services) :=
    Option.map_eq_some_iff.mpr ⟨services, found, rfl⟩
  obtain ⟨result, rest⟩ := exists_decorated
    (fun decorator member key among => needs key (.inr ⟨decorator, member, among⟩))
    (functions.viewed ⟨home.id, binding.recipe⟩ binding
      (functions.created ⟨home.id, binding.recipe⟩ services))
  exact ⟨result, Option.bind_eq_some_iff.mpr ⟨_, makes, rest⟩⟩

end Functions

namespace Scope

variable {scope lower : Scope U} {key wanted : Key} {rank : Key → Nat}

/-- A key leads to its binding at its home. -/
theorem Finds.leads {binding : Binding U} {home : Scope U}
    (finds : scope.Finds key binding home) : scope.Leads key ⟨home, binding⟩ :=
  ⟨finds.bound, finds.home⟩

/-- What is requested is requested above. -/
theorem Requests.above (requests : scope.Requests key lower wanted) : lower.Above scope := by
  induction requests with
  | here => exact .refl _
  | step _ finds _ ih => exact finds.leads.above.trans ih

/-- Whatever is asked for on the way is a fixed value, or has a home where it is made. -/
theorem Supplied.finds (supplied : scope.Supplied key) (built : scope.Built)
    (requests : scope.Requests key lower wanted) :
    ∃ binding, lower.registry.find? wanted = some binding ∧
      (binding.IsValue ∨ ∃ home, lower.Finds wanted binding home) := by
  obtain ⟨binding, bound⟩ := supplied.registered requests
  refine ⟨binding, bound, ?_⟩
  by_cases isValue : binding.IsValue
  · exact .inl isValue
  suffices ∃ home, binding.home? lower = some home from
    .inr (this.imp fun _ isHome => ⟨bound, isValue, isHome⟩)
  unfold Binding.home?
  cases lifetime : binding.recipe.lifetime with
  | singleton =>
      obtain ⟨owner, isOwner, _⟩ := (built.above requests.above).sound.owner bound
      exact ⟨owner, isOwner⟩
  | perScope =>
      have differs := supplied.below requests bound isValue lifetime
      exact ⟨lower, if_neg differs⟩
  | transient => exact ⟨lower, rfl⟩

/-- Everything that a grounded key needs is bound. -/
theorem Grounded.supplied (grounded : scope.Grounded key rank) : scope.Supplied key :=
  ⟨grounded.registered, grounded.below⟩

/-- If dependencies end, everything on the way means something. -/
theorem Grounded.meaning_of_rank (functions : Functions U) (grounded : scope.Grounded key rank)
    (built : scope.Built) {depth : Nat} (requests : scope.Requests key lower wanted)
    (deep : rank wanted < depth) :
    ∃ content, functions.meaning depth lower wanted = some content := by
  induction depth generalizing lower wanted with
  | zero => exact absurd deep (Nat.not_lt_zero _)
  | succ depth ih =>
      obtain ⟨binding, bound, ⟨fixed, source⟩ | ⟨home, finds⟩⟩ :=
        grounded.supplied.finds built requests
      · exact ⟨_, Functions.meaning_succ.mpr ⟨binding, bound, .inl ⟨fixed, source, rfl⟩⟩⟩
      · have needs : ∀ needed, binding.Needs home needed →
            ∃ content, functions.meaning depth home needed = some content := fun needed needs =>
          ih (requests.step finds needs) (Nat.lt_of_lt_of_le (grounded.falls requests finds needs)
            (Nat.le_of_lt_succ deep))
        obtain ⟨content, finished⟩ := Functions.exists_finished needs
        exact ⟨content, Functions.meaning_succ.mpr ⟨binding, bound, .inr ⟨home, finds, finished⟩⟩⟩

/-- How deep one has to look is known from the rank. -/
theorem Grounded.meaning_eq {functions : Functions U} (grounded : scope.Grounded key rank)
    (built : scope.Built) {content : Content U} (means : functions.Means scope key content) :
    functions.meaning (rank key + 1) scope key = some content := by
  obtain ⟨other, found⟩ := grounded.meaning_of_rank functions built .here (Nat.lt_succ_self _)
  rw [found, Functions.Means.unique ⟨_, found⟩ means]

end Scope

end Provision
