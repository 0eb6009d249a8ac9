import Provision.Service
import Provision.Table

/-!
# Registries

A registry says what is bound under each key and which decorators apply to it.  Everything
registered for a type is also an item of the list of that type: binding a key adds an item under
the next position and extends the recipe of the list.  A later binding of a key takes the place
of the earlier one, while the list keeps both.
-/

namespace Provision

variable {U : Client}

/-- The bindings and decorators that are visible from one scope. -/
structure Registry (U : Client) where
  bindings : Table Key (Binding U) := {}
  decorators : List (Decorator U) := []

namespace Registry

instance : Inhabited (Registry U) := ⟨{}⟩

/-- What is bound under a key. -/
def find? (registry : Registry U) (key : Key) : Option (Binding U) :=
  registry.bindings.get? key

/-- Whether anything is bound under a key. -/
def contains (registry : Registry U) (key : Key) : Bool :=
  registry.bindings.contains key

/-- The decorators of a key, in the order of their registration. -/
def decoratorsOf (registry : Registry U) (key : Key) : List (Decorator U) :=
  registry.decorators.filter fun decorator => decide (decorator.target = key)

/-- The number of all bound keys, those of list items included. -/
def bound (registry : Registry U) : Nat :=
  registry.bindings.size

/-- The keys a client can ask for by name: all but those of list items. -/
def keys (registry : Registry U) : List Key :=
  registry.bindings.keys.filter fun key => !key.isPosition

/-- The number of keys a client can ask for by name. -/
def size (registry : Registry U) : Nat :=
  registry.keys.length

/-- Whether the list of a type is bound under a key. -/
def isList (registry : Registry U) (key : Key) : Bool :=
  (registry.find? key).any fun binding => binding.recipe.isList

/-- The items of the list of a key's type so far; refused if the key of that list is taken by
something else. -/
def items (registry : Registry U) (key : Key) : Except Issue (List Param) :=
  match registry.find? key.listKey with
  | none => .ok []
  | some binding =>
      if binding.recipe.isList then .ok binding.recipe.params else .error (.reserved key.listKey)

/-- Bind a key, and make the binding the last item of the list of the key's type.  The key of a
list cannot be bound, nor can a key whose list key is bound to something else. -/
def bind (registry : Registry U) (key : Key) (binding : Binding U) :
    Except Issue (Registry U) :=
  if registry.isList key then
    .error (.reserved key)
  else
    match registry.items key with
    | .error issue => .error issue
    | .ok items =>
        let item := Key.item key.type items.length
        let list : Binding U :=
          { recipe := .ofItems key.type (items ++ [.service item])
            registered := key.listKey
            owner := binding.owner
            cast := none }
        .ok { registry with
          bindings := ((registry.bindings.put item binding).put key binding).put key.listKey list }

/-- A registry after a key was bound, the list of whose type had some items before. -/
def extended (registry : Registry U) (key : Key) (binding : Binding U) (items : List Param) :
    Registry U :=
  let item := Key.item key.type items.length
  let list : Binding U :=
    { recipe := .ofItems key.type (items ++ [.service item])
      registered := key.listKey
      owner := binding.owner
      cast := none }
  { registry with
    bindings := ((registry.bindings.put item binding).put key binding).put key.listKey list }

theorem bind_eq_ok_iff {registry bound : Registry U} {key : Key} {binding : Binding U} :
    registry.bind key binding = .ok bound ↔ registry.isList key = false ∧
      ∃ items, registry.items key = .ok items ∧ bound = registry.extended key binding items := by
  unfold bind
  cases registry.isList key with
  | true => simp
  | false => cases registry.items key <;> simp [extended, eq_comm]

/-- Binding a key changes what is found under the key of the list of its type, under the key itself
and under that of the next item. -/
theorem find?_extended (registry : Registry U) (key : Key) (binding : Binding U)
    (items : List Param) (wanted : Key) :
    (registry.extended key binding items).find? wanted =
      if key.listKey = wanted then
        some
          { recipe := .ofItems key.type (items ++ [.service (.item key.type items.length)])
            registered := key.listKey
            owner := binding.owner
            cast := none }
      else if key = wanted then some binding
      else if Key.item key.type items.length = wanted then some binding
      else registry.find? wanted := by
  simp only [find?, extended, Table.get?_put]

@[simp] theorem decorators_extended (registry : Registry U) (key : Key) (binding : Binding U)
    (items : List Param) : (registry.extended key binding items).decorators = registry.decorators :=
  rfl

/-- Add a decorator after those already there. -/
def decorate (registry : Registry U) (decorator : Decorator U) : Registry U :=
  { registry with decorators := registry.decorators ++ [decorator] }

end Registry

end Provision
