import Provision.Proofs.Meaning.KeyMeaning
import Provision.Proofs.Registries.BuiltRegistries
import Mathlib.Logic.Function.Iterate

/-!
# How deep requests are nested

A request looks up only what the bindings that it finds need, and only as long as it does not meet
a key again.  The keys that are being resolved are then different keys of the scope that the first
request was made of, so there are no more of them than that scope has bound keys.

Main statement: `Scope.Built.nested_eq`, that below a request and as many more as there are bound
keys nothing is asked for, so that it does not matter what would be answered there.
-/

namespace Provision

variable {U : Client} {α β : Type}

/-- What comes after a request matters only for the values that it returns. -/
theorem Request.Only.bind_congr {own : Event U → Prop} {yields : Except Error α → Prop}
    {request : Request U α} {next other : α → Request U β} (only : request.Only own yields)
    (agree : ∀ value, yields (.ok value) → next value = other value) :
    request >>= next = request >>= other := by
  apply Program.Only.andThen_congr only
  intro outcome holds
  cases outcome with
  | ok value => exact agree value holds
  | error error => rfl

/-! ## Resolvers that agree -/

namespace Resolver

variable {first second : Resolver U} {scope home : Scope U} {context : ContextId}
  {key : Key} {binding : Binding U} {active : List Key}

theorem arguments_congr (service : Key) (flag : FlagId) {params : List Param}
    (agree : ∀ needed, .service needed ∈ params →
      first scope context needed active = second scope context needed active) :
    first.arguments scope context service active flag params =
      second.arguments scope context service active flag params := by
  induction params with
  | nil => rfl
  | cons param params ih =>
      have here : first.argument scope context active flag param =
          second.argument scope context active flag param := by
        cases param with
        | context => rfl
        | scope => rfl
        | service needed => simp only [argument, agree needed List.mem_cons_self]
      have rest := ih fun needed member => agree needed (List.mem_cons_of_mem _ member)
      simp only [arguments, here, rest]

theorem stages_congr (service : Key) {decorators : List (Decorator U)}
    (agree : ∀ decorator ∈ decorators, ∀ needed, .service needed ∈ decorator.params →
      first scope context needed active = second scope context needed active) :
    first.stages scope context service active decorators =
      second.stages scope context service active decorators := by
  induction decorators with
  | nil => rfl
  | cons decorator decorators ih =>
      have here (flag : FlagId) := arguments_congr service flag
        (agree decorator List.mem_cons_self)
      have rest := ih fun other member => agree other (List.mem_cons_of_mem _ member)
      unfold stages
      congr 1
      funext flag
      rw [here flag, rest]

theorem inputs_congr (key : Key)
    (agree : ∀ needed, binding.Needs home needed →
      first home context needed active = second home context needed active) :
    first.inputs home context key binding active =
      second.inputs home context key binding active := by
  have arguments (flag : FlagId) := arguments_congr key flag fun needed member =>
    agree needed (.inl member)
  have stages := stages_congr key fun decorator member needed needs =>
    agree needed (.inr ⟨decorator, member, needs⟩)
  unfold inputs
  congr 1
  funext flag
  rw [arguments flag, stages]

/-- Resolvers come to the same for a key of a scope if they do so for all that has to be resolved
for it, as long as the key is not met again. -/
theorem resolve_congr
    (agree : ∀ binding home, scope.Finds key binding home → key ∉ active →
      ∀ needed, binding.Needs home needed →
        first home context needed (active ++ [key]) =
          second home context needed (active ++ [key])) :
    first.resolve scope context key active = second.resolve scope context key active := by
  have inHome : ∀ binding home, scope.Finds key binding home →
      first.resolveIn home context key binding active =
        second.resolveIn home context key binding active := by
    intro binding home finds
    by_cases isActive : key ∈ active
    · simp only [resolveIn, isActive, if_true]
    · have same := inputs_congr key (agree binding home finds isActive)
      simp only [resolveIn, isActive, if_false, create_eq, same]
  unfold resolve
  congr 1; funext _; congr 1; funext _
  cases bound : scope.registry.find? key with
  | none => rfl
  | some binding =>
      have made (unfixed : ¬ binding.IsValue) :
          (do
            let effective ← effectiveScope scope key binding
            first.resolveIn effective context key binding active) =
          (do
            let effective ← effectiveScope scope key binding
            second.resolveIn effective context key binding active) :=
        (only_effectiveScope scope key binding).bind_congr fun home isHome =>
          inHome binding home ⟨bound, unfixed, isHome.1 home rfl⟩
      cases source : binding.recipe.source with
      | value content => simp only [source]
      | factory make =>
          simp only [source]
          exact made fun ⟨_, isValue⟩ => by rw [source] at isValue; cases isValue
      | list item =>
          simp only [source]
          exact made fun ⟨_, isValue⟩ => by rw [source] at isValue; cases isValue

end Resolver

/-! ## The depth that is needed -/

/-- A given depth is that many requests around one that never returns. -/
theorem resolveWithin_eq_iterate (depth : Nat) :
    (resolveWithin depth : Resolver U) = Resolver.resolve^[depth] (resolveWithin 0) := by
  induction depth with
  | zero => rfl
  | succ depth ih => rw [Function.iterate_succ_apply', ← ih, resolveWithin]

namespace Scope

variable {base lower : Scope U} {context : ContextId} {key : Key} {active : List Key} {depth : Nat}

/-- The keys that are being resolved are different keys of a scope, and requests may be nested
deeper for each key that is left. -/
structure DepthLeft (base : Scope U) (depth : Nat) (active : List Key) : Prop where
  distinct : active.Nodup
  contained : ∀ other ∈ active, base.registry.contains other = true
  deep : base.registry.bound < depth + active.length

/-- To begin with there is depth for all bound keys and one more. -/
theorem depthLeft_nil (base : Scope U) : base.DepthLeft (base.registry.bound + 1) [] :=
  ⟨List.nodup_nil, fun _ member => absurd member List.not_mem_nil, Nat.lt_succ_self _⟩

/-- Some depth is left whatever is being resolved. -/
theorem DepthLeft.ne_zero (left : base.DepthLeft depth active) : depth ≠ 0 := by
  have fits := base.registry.length_le_bound left.distinct left.contained
  have deep := left.deep
  omega

/-- A key that is not met again takes one place. -/
theorem DepthLeft.push (left : base.DepthLeft (depth + 1) active) (inactive : key ∉ active)
    (contains : base.registry.contains key = true) : base.DepthLeft depth (active ++ [key]) where
  distinct := by
    rw [← List.concat_eq_append]
    exact left.distinct.concat inactive
  contained := by
    intro other member
    rcases List.mem_append.mp member with before | last
    · exact left.contained other before
    · rwa [List.mem_singleton.mp last]
  deep := by
    have deep := left.deep
    simp only [List.length_append, List.length_singleton]
    omega

/-- What is bound above is bound in the base. -/
theorem Built.contains_of_find (built : base.Built) (isAbove : lower.Above base)
    {binding : Binding U} (bound : lower.registry.find? key = some binding) :
    base.registry.contains key = true :=
  built.contains_of_above isAbove (Option.isSome_iff_exists.mpr ⟨binding, bound⟩)

/-- As long as there is depth left, it does not matter what would be answered below. -/
theorem Built.iterate_resolve_congr (built : base.Built) (isAbove : lower.Above base)
    (left : base.DepthLeft depth active) (first second : Resolver U) :
    Resolver.resolve^[depth] first lower context key active =
      Resolver.resolve^[depth] second lower context key active := by
  induction depth generalizing lower key active with
  | zero => exact absurd rfl left.ne_zero
  | succ depth ih =>
      simp only [Function.iterate_succ_apply']
      apply Resolver.resolve_congr
      intro binding home finds inactive needed _
      apply ih (finds.leads.above.trans isAbove)
      exact left.push inactive (built.contains_of_find isAbove finds.bound)

/-- A request is nested no deeper than one more than there are bound keys: what would be answered
below is never asked. -/
theorem Built.nested_eq (built : base.Built) (context : ContextId) (key : Key)
    (deeper : Resolver U) :
    Resolver.resolve^[base.registry.bound + 1] deeper base context key [] =
      resolve base context key := by
  rw [resolve, resolveWithin_eq_iterate]
  exact built.iterate_resolve_congr (.refl base) base.depthLeft_nil deeper _

end Scope

end Provision
