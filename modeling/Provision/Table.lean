/-!
# Tables

A finite map that keeps its entries in the order in which their keys first came.  Putting a value
under a key that is present replaces the value where it stands.

Main statements: `get?_put`, `get?_erase` and `get?_mapValues` say what a lookup finds after a
change, `mem_keys` that the keys are those a lookup finds something under, and `nodup_put` and
`nodup_erase` that no key is ever listed twice.
-/

namespace Provision

/-- A finite map as the list of its entries. -/
structure Table (κ α : Type) where
  entries : List (κ × α) := []

namespace Table

variable {κ α : Type}

/-- The empty table. -/
def empty : Table κ α := {}

instance : Inhabited (Table κ α) := ⟨empty⟩

/-- The keys, in the order in which they first came. -/
def keys (table : Table κ α) : List κ :=
  table.entries.map Prod.fst

/-- The values, in the order of their keys. -/
def values (table : Table κ α) : List α :=
  table.entries.map Prod.snd

/-- The number of entries. -/
def size (table : Table κ α) : Nat :=
  table.entries.length

/-- Change every value, keeping the keys. -/
def mapValues {β : Type} (f : α → β) (table : Table κ α) : Table κ β :=
  { entries := table.entries.map fun entry => (entry.1, f entry.2) }

variable [DecidableEq κ]

/-- The first value listed under a key. -/
def find? (key : κ) : List (κ × α) → Option α
  | [] => none
  | entry :: rest => if entry.1 = key then some entry.2 else find? key rest

/-- The entries with a value put under a key: in place if the key is listed, else at the end. -/
def insertEntry (key : κ) (value : α) : List (κ × α) → List (κ × α)
  | [] => [(key, value)]
  | entry :: rest =>
      if entry.1 = key then (key, value) :: rest else entry :: insertEntry key value rest

/-- The value under a key. -/
def get? (table : Table κ α) (key : κ) : Option α :=
  find? key table.entries

/-- Whether there is a value under a key. -/
def contains (table : Table κ α) (key : κ) : Bool :=
  (table.get? key).isSome

/-- Put a value under a key. -/
def put (table : Table κ α) (key : κ) (value : α) : Table κ α :=
  { entries := insertEntry key value table.entries }

/-- Forget what is under a key. -/
def erase (table : Table κ α) (key : κ) : Table κ α :=
  { entries := table.entries.filter fun entry => !decide (entry.1 = key) }

/-- Nothing is found in an empty table. -/
@[simp] theorem get?_empty (key : κ) : (empty : Table κ α).get? key = none := rfl

/-- After an entry was inserted its key leads to it, and others lead where they did. -/
theorem find?_insertEntry (key other : κ) (value : α) (entries : List (κ × α)) :
    find? other (insertEntry key value entries) =
      if key = other then some value else find? other entries := by
  induction entries with
  | nil => simp [insertEntry, find?]
  | cons entry rest ih =>
      by_cases same : entry.1 = key
      · by_cases wanted : key = other <;> simp [insertEntry, find?, same, wanted]
      · rw [show insertEntry key value (entry :: rest) = entry :: insertEntry key value rest from
          if_neg same]
        by_cases here : entry.1 = other
        · have differs : ¬ key = other := fun h => same (here.trans h.symm)
          simp [find?, here, differs]
        · simp [find?, here, ih]

/-- A lookup finds the value just put under its key, and else what was there before. -/
theorem get?_put (table : Table κ α) (key other : κ) (value : α) :
    (table.put key value).get? other = if key = other then some value else table.get? other :=
  find?_insertEntry key other value table.entries

/-- What was put under a key is found there. -/
@[simp] theorem get?_put_self (table : Table κ α) (key : κ) (value : α) :
    (table.put key value).get? key = some value := by
  simp [get?_put]

/-- Putting something under a key changes no other. -/
theorem get?_put_of_ne (table : Table κ α) {key other : κ} (value : α)
    (differs : key ≠ other) :
    (table.put key value).get? other = table.get? other := by
  simp [get?_put, differs]

/-- To insert what is there already changes nothing. -/
theorem insertEntry_self {key : κ} {value : α} {entries : List (κ × α)}
    (found : find? key entries = some value) : insertEntry key value entries = entries := by
  induction entries with
  | nil => cases found
  | cons entry rest ih =>
      by_cases here : entry.1 = key
      · obtain rfl : entry.2 = value := by simpa [find?, here] using found
        subst here
        simp [insertEntry]
      · have later : find? key rest = some value := by simpa [find?, here] using found
        simp [insertEntry, here, ih later]

/-- Putting the value that is there changes nothing. -/
theorem put_self {table : Table κ α} {key : κ} {value : α}
    (found : table.get? key = some value) : table.put key value = table :=
  congrArg Table.mk (insertEntry_self found)

/-- After a key was filtered out it leads nowhere, and others lead where they did. -/
theorem find?_filter_ne (key other : κ) (entries : List (κ × α)) :
    find? other (entries.filter fun entry => !decide (entry.1 = key)) =
      if key = other then none else find? other entries := by
  induction entries with
  | nil => simp [find?]
  | cons entry rest ih =>
      by_cases same : entry.1 = key
      · rw [List.filter_cons_of_neg (by simp [same]), ih]
        by_cases wanted : key = other <;> simp [find?, same, wanted]
      · rw [List.filter_cons_of_pos (by simp [same])]
        by_cases here : entry.1 = other
        · have differs : ¬ key = other := fun h => same (here.trans h.symm)
          simp [find?, here, differs]
        · simp [find?, here, ih]

/-- After a key is forgotten only the other keys are found. -/
theorem get?_erase (table : Table κ α) (key other : κ) :
    (table.erase key).get? other = if key = other then none else table.get? other :=
  find?_filter_ne key other table.entries

/-- Mapping all values maps what is found. -/
theorem find?_mapValues {β : Type} (f : α → β) (key : κ) (entries : List (κ × α)) :
    find? key (entries.map fun entry => (entry.1, f entry.2)) = (find? key entries).map f := by
  induction entries with
  | nil => rfl
  | cons entry rest ih => by_cases here : entry.1 = key <;> simp [find?, here, ih]

/-- A lookup after every value was changed finds the changed value. -/
theorem get?_mapValues {β : Type} (f : α → β) (table : Table κ α) (key : κ) :
    (table.mapValues f).get? key = (table.get? key).map f :=
  find?_mapValues f key table.entries

/-- The keys of entries are those that lead to something. -/
theorem mem_keys_entries {key : κ} {entries : List (κ × α)} :
    key ∈ entries.map Prod.fst ↔ (find? key entries).isSome = true := by
  induction entries with
  | nil => simp [find?]
  | cons entry rest ih =>
      by_cases here : entry.1 = key
      · simp [find?, here]
      · have differs : ¬ key = entry.1 := fun h => here h.symm
        simp [find?, here, differs, ← ih]

/-- The keys are exactly those under which a lookup finds a value. -/
theorem mem_keys {table : Table κ α} {key : κ} :
    key ∈ table.keys ↔ table.contains key = true :=
  mem_keys_entries

/-- Inserting an entry adds its key. -/
theorem mem_insertEntry_keys {key other : κ} {value : α} {entries : List (κ × α)} :
    other ∈ (insertEntry key value entries).map Prod.fst ↔
      other = key ∨ other ∈ entries.map Prod.fst := by
  rw [mem_keys_entries, mem_keys_entries, find?_insertEntry]
  by_cases same : key = other
  · simp [same]
  · have differs : ¬ other = key := fun h => same h.symm
    simp [same, differs]

/-- Inserting an entry keeps keys distinct. -/
theorem nodup_insertEntry {key : κ} {value : α} {entries : List (κ × α)}
    (distinct : (entries.map Prod.fst).Nodup) :
    ((insertEntry key value entries).map Prod.fst).Nodup := by
  induction entries with
  | nil => simp [insertEntry]
  | cons entry rest ih =>
      rw [List.map_cons, List.nodup_cons] at distinct
      by_cases same : entry.1 = key
      · subst same
        simpa [insertEntry] using distinct
      · simp only [insertEntry, same, if_false, List.map_cons, List.nodup_cons]
        refine ⟨fun member => ?_, ih distinct.2⟩
        rcases mem_insertEntry_keys.1 member with here | there
        · exact same here
        · exact distinct.1 there

/-- Putting a value lists no key twice. -/
theorem nodup_put {table : Table κ α} (distinct : table.keys.Nodup) (key : κ) (value : α) :
    (table.put key value).keys.Nodup :=
  nodup_insertEntry distinct

/-- Forgetting a key lists no key twice. -/
theorem nodup_erase {table : Table κ α} (distinct : table.keys.Nodup) (key : κ) :
    (table.erase key).keys.Nodup :=
  List.Nodup.sublist (List.filter_sublist.map _) distinct

end Table

end Provision
