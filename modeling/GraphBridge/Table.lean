/-!
# Ordered tables

A table maps names to values and remembers the order in which names were first entered. Entering a
name again replaces its value and keeps its place. Arguments, parameters, object members and alias
maps are tables.
-/

namespace GraphBridge

/-- Named values in the order of first entry. -/
abbrev Table (α : Type) := List (String × α)

namespace Table

variable {α : Type}

/-- The value under a name. -/
def get? : Table α → String → Option α
  | [], _ => none
  | (name, value) :: rest, key => if name == key then some value else get? rest key

/-- Enters a value: a known name keeps its place and takes the new value, a new name goes last. -/
def insert : Table α → String → α → Table α
  | [], key, value => [(key, value)]
  | (name, old) :: rest, key, value =>
      if name == key then (name, value) :: rest else (name, old) :: insert rest key value

/-- The table that results from entering the given pairs one after the other. -/
def ofList (entries : List (String × α)) : Table α :=
  entries.foldl (fun table entry => table.insert entry.1 entry.2) []

/-- The names of a table in order. -/
def keys (table : Table α) : List String :=
  table.map Prod.fst

/-- A value just entered is the one found. -/
theorem get?_insert_self (table : Table α) (key : String) (value : α) :
    (table.insert key value).get? key = some value := by
  induction table with
  | nil => simp [insert, get?]
  | cons entry rest ih =>
      obtain ⟨name, old⟩ := entry
      by_cases same : name = key
      · simp [insert, get?, same]
      · simp [insert, get?, same, ih]

/-- Entering a value changes no other name. -/
theorem get?_insert_of_ne (table : Table α) {key other : String} (value : α)
    (apart : key ≠ other) : (table.insert key value).get? other = table.get? other := by
  induction table with
  | nil => simp [insert, get?, apart]
  | cons entry rest ih =>
      obtain ⟨name, old⟩ := entry
      by_cases same : name = key
      · subst same
        simp [insert, get?, apart]
      · simp [insert, get?, same, ih]

end Table

end GraphBridge
