/-!
# Sets of characters as sorted ranges

The character classes of Unicode are large and mostly contiguous, so each is kept as a list of
inclusive ranges of code points in increasing order. A search stops at the first range that starts
after the code point, so a member of the ASCII block is decided at the head of the list.
-/

namespace GraphBridge.Text

/-- Whether each range is non-empty, starts at `least` or later and ends before the next one
starts. -/
def areSortedFrom (least : Nat) : List (Nat × Nat) → Bool
  | [] => true
  | (first, last) :: rest => least ≤ first && first ≤ last && areSortedFrom (last + 1) rest

/-- Inclusive ranges of code points, in increasing order and apart from each other. -/
structure Ranges where
  entries : List (Nat × Nat)
  sorted : areSortedFrom 0 entries = true

namespace Ranges

/-- Looks a code point up among sorted ranges. -/
def search : List (Nat × Nat) → Nat → Bool
  | [], _ => false
  | (first, last) :: rest, point =>
      if point < first then false
      else if point ≤ last then true
      else search rest point

/-- Whether a code point lies in one of the ranges. -/
def contains (ranges : Ranges) (point : Nat) : Bool :=
  search ranges.entries point

/-- A range of a sorted list starts no earlier than the list does. -/
theorem le_of_mem_of_sorted {least : Nat} {entries : List (Nat × Nat)} {range : Nat × Nat}
    (sorted : areSortedFrom least entries = true) (mem : range ∈ entries) : least ≤ range.1 := by
  induction entries generalizing least with
  | nil => simp at mem
  | cons head rest ih =>
      simp only [areSortedFrom, Bool.and_eq_true, decide_eq_true_eq] at sorted
      rcases List.mem_cons.1 mem with rfl | later
      · exact sorted.1.1
      · have after := ih sorted.2 later
        omega

/-- Among sorted ranges the search finds exactly the code points that some range covers, although it
stops early. -/
theorem search_eq_true_iff {least : Nat} {entries : List (Nat × Nat)} (point : Nat)
    (sorted : areSortedFrom least entries = true) :
    search entries point = true ↔ ∃ range ∈ entries, range.1 ≤ point ∧ point ≤ range.2 := by
  induction entries generalizing least with
  | nil => simp [search]
  | cons head rest ih =>
      obtain ⟨first, last⟩ := head
      simp only [areSortedFrom, Bool.and_eq_true, decide_eq_true_eq] at sorted
      rw [search]
      split
      · rename_i early
        simp only [Bool.false_eq_true, false_iff, not_exists, not_and]
        intro range mem starts
        rcases List.mem_cons.1 mem with rfl | later
        · omega
        · have after := le_of_mem_of_sorted sorted.2 later
          omega
      · split
        · rename_i late inside
          simp only [true_iff]
          exact ⟨(first, last), List.mem_cons_self, by omega, inside⟩
        · rename_i late beyond
          rw [ih sorted.2]
          constructor
          · rintro ⟨range, mem, covers⟩
            exact ⟨range, List.mem_cons_of_mem _ mem, covers⟩
          · rintro ⟨range, mem, covers⟩
            rcases List.mem_cons.1 mem with rfl | later
            · exact absurd covers.2 beyond
            · exact ⟨range, later, covers⟩

theorem contains_eq_true_iff (ranges : Ranges) (point : Nat) :
    ranges.contains point = true
      ↔ ∃ range ∈ ranges.entries, range.1 ≤ point ∧ point ≤ range.2 :=
  search_eq_true_iff point ranges.sorted

end Ranges

end GraphBridge.Text
