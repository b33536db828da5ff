import GraphBridge.Table
import Mathlib.Data.List.Induction
import Mathlib.Data.List.Nodup
import Mathlib.Data.List.Perm.Basic

/-!
# Tables and what is entered into them

A look-up finds the first entry of a name. In a table that is made by entering values one after the
other the names are distinct and stand in the order in which they came first, and each has the value
that was entered last.
-/

namespace GraphBridge.Table

variable {α : Type}

/-! ## Looking up -/

theorem mem_of_get? {table : Table α} {key : String} {value : α}
    (found : table.get? key = some value) : (key, value) ∈ table := by
  induction table with
  | nil => cases found
  | cons entry rest ih =>
      rw [get?] at found
      split at found
      · rename_i same
        obtain rfl : entry.1 = key := by simpa using same
        cases found
        exact List.mem_cons_self
      · exact List.mem_cons_of_mem _ (ih found)

theorem get?_append (first second : Table α) (key : String) :
    get? (first ++ second) key = (first.get? key).or (second.get? key) := by
  induction first with
  | nil => rfl
  | cons entry rest ih =>
      rw [List.cons_append, get?, get?]
      split
      · rfl
      · exact ih

/-- A name that is not found is not in the table. -/
theorem get?_eq_none_iff {table : Table α} {key : String} :
    table.get? key = none ↔ key ∉ table.keys := by
  induction table with
  | nil => simp [get?, keys]
  | cons entry rest ih =>
      rw [get?]
      split
      · rename_i same
        obtain rfl : entry.1 = key := by simpa using same
        simp [keys]
      · rename_i apart
        have other : key ≠ entry.1 := fun equal => apart (by simp [equal])
        rw [ih, keys, keys, List.map_cons, List.mem_cons, not_or]
        exact ⟨fun absent => ⟨other, absent⟩, And.right⟩

/-- A table with a value for each of some names. -/
theorem get?_map (names : List String) (f : String → α) (key : String) :
    get? (names.map fun name => (name, f name)) key
      = if key ∈ names then some (f key) else none := by
  induction names with
  | nil => rfl
  | cons name rest ih =>
      by_cases same : name = key
      · subst same
        simp [get?]
      · have apart : key ≠ name := fun equal => same equal.symm
        simp only [List.map_cons, get?, beq_eq_false_iff_ne.2 same, ih, List.mem_cons, apart,
          false_or]
        rfl

theorem eq_of_get?_map {names : List String} {f : String → α} {key : String}
    {value : α} (found : get? (names.map fun name => (name, f name)) key = some value) :
    key ∈ names ∧ value = f key := by
  rw [get?_map] at found
  split at found
  · rename_i mem
    exact ⟨mem, (Option.some.inj found).symm⟩
  · cases found

/-- A table with distinct names has exactly the values that are found in it. -/
theorem get?_eq_some_iff {table : Table α} (distinct : table.keys.Nodup) {key : String}
    {value : α} : table.get? key = some value ↔ (key, value) ∈ table := by
  induction table with
  | nil => simp [get?]
  | cons entry rest ih =>
      obtain ⟨name, other⟩ := entry
      rw [keys, List.map_cons, List.nodup_cons] at distinct
      by_cases same : name = key
      · subst same
        have absent : (name, value) ∉ rest := fun mem =>
          distinct.1 (List.mem_map.2 ⟨_, mem, rfl⟩)
        simp [get?, absent, eq_comm]
      · have apart : key ≠ name := fun equal => same equal.symm
        simp [get?, same, apart, ih distinct.2]

/-- Look-ups in a table with distinct names do not depend on its order. -/
theorem get?_perm {table other : Table α} (distinct : table.keys.Nodup) (same : other.Perm table)
    (key : String) : other.get? key = table.get? key := by
  have distinct' : other.keys.Nodup := (same.map Prod.fst).nodup_iff.2 distinct
  apply Option.ext
  intro value
  rw [get?_eq_some_iff distinct', get?_eq_some_iff distinct, same.mem_iff]

/-- Tables with the same names in the same order are equal if they agree on each name. -/
theorem ext {table other : Table α} (names : table.map Prod.fst = other.map Prod.fst)
    (agree : ∀ name a b, (name, a) ∈ table → (name, b) ∈ other → a = b) : table = other := by
  induction table generalizing other with
  | nil => exact (List.map_eq_nil_iff.1 names.symm).symm
  | cons entry rest ih =>
      cases other with
      | nil => cases names
      | cons entry' rest' =>
          obtain ⟨name, a⟩ := entry
          obtain ⟨name', b⟩ := entry'
          obtain ⟨rfl, later⟩ := List.cons.inj names
          obtain rfl := agree name a b List.mem_cons_self List.mem_cons_self
          rw [ih later fun name a b mem mem' =>
            agree name a b (List.mem_cons_of_mem _ mem) (List.mem_cons_of_mem _ mem')]

/-! ## Entering -/

/-- A new name goes last. -/
theorem insert_of_absent {table : Table α} {key : String} (value : α) (absent : key ∉ table.keys) :
    table.insert key value = table ++ [(key, value)] := by
  induction table with
  | nil => rfl
  | cons entry rest ih =>
      rw [keys, List.map_cons, List.mem_cons, not_or] at absent
      rw [insert, if_neg (mt beq_iff_eq.1 (Ne.symm absent.1)), ih absent.2]
      rfl

/-- A known name keeps its place. -/
theorem keys_insert_of_mem {table : Table α} {key : String} (value : α) (known : key ∈ table.keys) :
    (table.insert key value).keys = table.keys := by
  induction table with
  | nil => cases known
  | cons entry rest ih =>
      obtain ⟨name, old⟩ := entry
      rw [insert]
      by_cases same : name = key
      · rw [if_pos (beq_iff_eq.2 same)]
        rfl
      · rw [if_neg (mt beq_iff_eq.1 same)]
        rcases List.mem_cons.1 known with equal | later
        · exact absurd equal.symm same
        · exact congrArg (name :: ·) (ih later)

/-- A new name behind distinct ones. -/
theorem nodup_keys_concat {table : Table α} (distinct : table.keys.Nodup) {key : String} (value : α)
    (absent : key ∉ table.keys) : (keys (table ++ [(key, value)])).Nodup := by
  rw [keys, List.map_append]
  refine List.nodup_append.2 ⟨distinct, by simp, ?_⟩
  rintro name mem other last rfl
  obtain rfl := List.mem_singleton.1 last
  exact absent mem

theorem nodup_keys_insert {table : Table α} (distinct : table.keys.Nodup) (key : String)
    (value : α) : (table.insert key value).keys.Nodup := by
  by_cases known : key ∈ table.keys
  · rwa [keys_insert_of_mem value known]
  · rw [insert_of_absent value known]
    exact nodup_keys_concat distinct value known

theorem ofList_concat (entries : List (String × α)) (entry : String × α) :
    ofList (entries ++ [entry]) = (ofList entries).insert entry.1 entry.2 := by
  rw [ofList, List.foldl_append]
  rfl

/-- The names of a table that is made of a list are distinct. -/
theorem nodup_keys_ofList (entries : List (String × α)) : (ofList entries).keys.Nodup := by
  induction entries using List.reverseRecOn with
  | nil => exact List.nodup_nil
  | append_singleton entries entry ih =>
      rw [ofList_concat]
      exact nodup_keys_insert ih entry.1 entry.2

/-- The names of a table that is made of a list stand where they come first. -/
theorem keys_ofList (entries : List (String × α)) :
    (ofList entries).keys = (keys entries).eraseDups := by
  induction entries using List.reverseRecOn with
  | nil => rfl
  | append_singleton entries entry ih =>
      have names : keys (entries ++ [entry]) = keys entries ++ [entry.1] := List.map_append
      rw [ofList_concat, names, List.eraseDups_append]
      by_cases known : entry.1 ∈ keys entries
      · have among : entry.1 ∈ (ofList entries).keys := by rwa [ih, List.mem_eraseDups]
        have none : [entry.1].removeAll (keys entries) = [] := by simp [List.removeAll, known]
        rw [keys_insert_of_mem entry.2 among, none, ih]
        exact (List.append_nil _).symm
      · have absent : entry.1 ∉ (ofList entries).keys := by rwa [ih, List.mem_eraseDups]
        have new : [entry.1].removeAll (keys entries) = [entry.1] := by
          simp [List.removeAll, known]
        rw [insert_of_absent entry.2 absent, new, ← ih]
        exact List.map_append

/-- A list whose names are distinct is a table. -/
theorem ofList_eq_self {entries : List (String × α)} (distinct : (keys entries).Nodup) :
    ofList entries = entries := by
  induction entries using List.reverseRecOn with
  | nil => rfl
  | append_singleton entries entry ih =>
      rw [keys, List.map_append, List.nodup_append] at distinct
      rw [ofList_concat, ih distinct.1, insert_of_absent entry.2]
      exact fun mem => distinct.2.2 _ mem _ List.mem_cons_self rfl

/-- The last value that a list of entries has for a name. -/
def last? (entries : List (String × α)) (name : String) : Option α :=
  (entries.reverse.find? fun entry => entry.1 == name).map Prod.snd

theorem last?_concat (entries : List (String × α)) (entry : String × α) (name : String) :
    last? (entries ++ [entry]) name
      = if entry.1 = name then some entry.2 else last? entries name := by
  rw [last?, List.reverse_concat, List.find?_cons]
  by_cases same : entry.1 = name
  · rw [if_pos same, beq_iff_eq.2 same]
    rfl
  · rw [if_neg same, beq_eq_false_iff_ne.2 same]
    rfl

theorem last?_map {β : Type} (f : α → β) (entries : List (String × α)) (name : String) :
    last? (entries.map fun entry => (entry.1, f entry.2)) name = (last? entries name).map f := by
  unfold last?
  rw [← List.map_reverse, List.find?_map, Option.map_map, Option.map_map]
  rfl

theorem mem_of_last? {entries : List (String × α)} {name : String} {value : α}
    (found : last? entries name = some value) : (name, value) ∈ entries := by
  obtain ⟨entry, first, rfl⟩ := Option.map_eq_some_iff.1 found
  obtain rfl : entry.1 = name := by simpa using List.find?_some first
  exact List.mem_reverse.1 (List.mem_of_find?_eq_some first)

theorem exists_last? {entries : List (String × α)} {name : String} (known : name ∈ keys entries) :
    ∃ value, last? entries name = some value := by
  obtain ⟨entry, mem, rfl⟩ := List.mem_map.1 known
  refine Option.isSome_iff_exists.1 ?_
  rw [last?, Option.isSome_map, List.find?_isSome]
  exact ⟨entry, List.mem_reverse.2 mem, beq_self_eq_true _⟩

/-- A table that is made of a list has the last value of each name. -/
theorem get?_ofList (entries : List (String × α)) (key : String) :
    (ofList entries).get? key = last? entries key := by
  induction entries using List.reverseRecOn with
  | nil => rfl
  | append_singleton entries entry ih =>
      rw [ofList_concat, last?_concat]
      by_cases same : entry.1 = key
      · rw [if_pos same, ← same]
        exact get?_insert_self _ _ _
      · rw [if_neg same, get?_insert_of_ne _ _ same, ih]

/-- A table that is made of a list has no entries but those that were put in. -/
theorem mem_of_mem_ofList {entries : List (String × α)} {entry : String × α}
    (mem : entry ∈ ofList entries) : entry ∈ entries := by
  have found := (get?_eq_some_iff (nodup_keys_ofList entries)).2 mem
  rw [get?_ofList] at found
  exact mem_of_last? found

/-- A value that is entered under a name, and no other value, is found under it. -/
theorem get?_ofList_of_mem {entries : List (String × α)} {key : String} {value : α}
    (mem : (key, value) ∈ entries) (only : ∀ entry ∈ entries, entry.1 = key → entry.2 = value) :
    (ofList entries).get? key = some value := by
  obtain ⟨other, found⟩ : ∃ other, last? entries key = some other :=
    exists_last? (List.mem_map_of_mem mem)
  obtain rfl : other = value := only _ (mem_of_last? found) rfl
  rw [get?_ofList, found]

/-- Every name that is entered has a value. -/
theorem isSome_get?_ofList {entries : List (String × α)} {entry : String × α}
    (mem : entry ∈ entries) : ((ofList entries).get? entry.1).isSome = true := by
  obtain ⟨value, found⟩ := exists_last? (List.mem_map_of_mem mem)
  rw [get?_ofList, found]
  rfl

end GraphBridge.Table
