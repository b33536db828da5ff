import GraphBridge.Proofs.Builder
import GraphBridge.Proofs.Wording

/-!
# Bound parameters

A supplied value is bound under the first candidate name that is free or already has that value.
One of the candidates always is, because they are distinct and there is one more of them than there
are parameters. So a reference names a parameter with its value, and keeps doing so: a table of
parameters only grows at its end.
-/

namespace GraphBridge.Statement

open Text

/-! ## The name of a parameter -/

namespace Builder

variable (b : Builder) (name : String) (value : Json)

theorem toString_injective {i j : Nat} (same : toString i = toString j) : i = j := by
  rw [Nat.toString_eq_repr, Nat.toString_eq_repr] at same
  have digits : Nat.toDigits 10 i = Nat.toDigits 10 j := by
    rw [← Nat.toList_repr, ← Nat.toList_repr, same]
  rw [← @Nat.ofDigitChars_ten_toDigits i, ← @Nat.ofDigitChars_ten_toDigits j, digits]

/-- No two candidates are the same. -/
theorem candidate_injective {i j : Nat} (same : candidate name i = candidate name j) : i = j := by
  have longer (n : Nat) : name ≠ name ++ "_" ++ toString n := by
    intro equal
    have lengths := congrArg String.length equal
    simp only [String.length_append] at lengths
    have one : "_".length = 1 := by decide
    omega
  unfold candidate at same
  split at same
  · split at same
    · omega
    · exact absurd same (longer _)
  · split at same
    · exact absurd same.symm (longer _)
    · have numbers : i + 1 = j + 1 := by
        apply toString_injective
        apply String.toList_inj.1
        have chars := congrArg String.toList same
        rw [@String.toList_append (name ++ "_"), @String.toList_append (name ++ "_")] at chars
        exact List.append_cancel_left chars
      omega

/-- Among one more candidates than there are parameters one is accepted. -/
theorem exists_accepted :
    ∃ attempt ∈ List.range (b.parameters.length + 1),
      b.accepts (candidate name attempt) value = true := by
  -- otherwise all these candidates are names of parameters, of which there are too few
  by_cases found : ∃ attempt ∈ List.range (b.parameters.length + 1),
      b.accepts (candidate name attempt) value = true
  · exact found
  have taken : (List.range (b.parameters.length + 1)).map (candidate name) ⊆ b.parameters.keys := by
    intro key mem
    obtain ⟨attempt, tried, rfl⟩ := List.mem_map.1 mem
    refine Classical.byContradiction fun free => found ⟨attempt, tried, ?_⟩
    rw [accepts, Table.get?_eq_none_iff.2 free]
  have distinct : ((List.range (b.parameters.length + 1)).map (candidate name)).Nodup :=
    List.Pairwise.map _ (fun i j apart same => apart (candidate_injective name same))
      List.nodup_range
  have few := distinct.length_le_of_subset taken
  rw [List.length_map, List.length_range, Table.keys, List.length_map] at few
  omega

/-- The name of a parameter is the first candidate that is accepted. -/
theorem exists_first_accepted :
    ∃ first, b.parameterName name value = candidate name first
      ∧ b.accepts (candidate name first) value = true
      ∧ ∀ earlier < first, b.accepts (candidate name earlier) value = false := by
  obtain ⟨attempt, tried, accepted⟩ := b.exists_accepted name value
  unfold parameterName
  dsimp only
  cases found : List.find? (fun attempt => b.accepts (candidate name attempt) value)
      (List.range (b.parameters.length + 1)) with
  | none => exact absurd accepted (List.find?_eq_none.1 found attempt tried)
  | some first =>
      obtain ⟨accepted, -, refused⟩ := List.find?_range_eq_some.1 found
      exact ⟨first, rfl, accepted, fun earlier inside => by simpa using refused earlier inside⟩

theorem accepts_parameterName : b.accepts (b.parameterName name value) value = true := by
  obtain ⟨first, same, accepted, -⟩ := b.exists_first_accepted name value
  rwa [same]

theorem parameterName_eq_candidate :
    ∃ attempt, b.parameterName name value = candidate name attempt :=
  ⟨_, rfl⟩

/-- Binding a value under a name: the table has it already, or it is put last. -/
theorem bindParameter_cases :
    (∃ old, b.parameters.get? (b.parameterName name value) = some old ∧ old.same value = true
        ∧ b.bindParameter name value = (b.parameterName name value, b))
      ∨ b.parameters.get? (b.parameterName name value) = none
        ∧ b.bindParameter name value
          = (b.parameterName name value,
            { b with parameters := b.parameters ++ [(b.parameterName name value, value)] }) := by
  have accepted := b.accepts_parameterName name value
  unfold accepts at accepted
  unfold bindParameter
  dsimp only
  split at accepted
  · rename_i old found
    exact .inl ⟨old, found, accepted, rfl⟩
  · rename_i free
    exact .inr ⟨free, rfl⟩

end Builder

/-! ## Bindings -/

/-- A table has the value of a reference, or one equal to it, under its parameter. -/
def Reference.IsBoundIn (parameters : Table Json) (r : Reference) : Prop :=
  ∃ value, parameters.get? r.parameter = some value
    ∧ (value = r.supplied.value ∨ value.same r.supplied.value = true)

/-- What it means for references to take a table of parameters to another: nothing that was bound
changes, each reference is bound, and no parameter is added for anything else. -/
structure Binding (before : Table Json) (references : List Reference) (after : Table Json) :
    Prop where
  kept : ∀ key value, before.get? key = some value → after.get? key = some value
  bound : ∀ r ∈ references, r.IsBoundIn after
  used : ∀ key ∈ after.keys, key ∈ before.keys ∨ ∃ r ∈ references, r.parameter = key

namespace Binding

variable {before between after : Table Json} {references more : List Reference}

theorem nil (table : Table Json) : Binding table [] table where
  kept _ _ found := found
  bound _ mem := by cases mem
  used _ mem := .inl mem

/-- A reference stays bound while others are. -/
theorem isBoundIn {r : Reference} (binding : Binding before references after)
    (earlier : r.IsBoundIn before) : r.IsBoundIn after := by
  obtain ⟨value, found, equal⟩ := earlier
  exact ⟨value, binding.kept _ _ found, equal⟩

theorem append (first : Binding before references between)
    (second : Binding between more after) : Binding before (references ++ more) after where
  kept key value found := second.kept key value (first.kept key value found)
  bound r mem := by
    rcases List.mem_append.1 mem with early | late
    · exact second.isBoundIn (first.bound r early)
    · exact second.bound r late
  used key mem := by
    rcases second.used key mem with old | ⟨r, late, rfl⟩
    · rcases first.used key old with older | ⟨r, early, rfl⟩
      · exact .inl older
      · exact .inr ⟨r, List.mem_append_left _ early, rfl⟩
    · exact .inr ⟨r, List.mem_append_right _ late, rfl⟩

/-- The order in which references are written does not matter. -/
theorem congr (binding : Binding before references after)
    (same : ∀ r, r ∈ more ↔ r ∈ references) : Binding before more after where
  kept := binding.kept
  bound r mem := binding.bound r ((same r).1 mem)
  used key mem := by
    rcases binding.used key mem with old | ⟨r, new, equal⟩
    · exact .inl old
    · exact .inr ⟨r, (same r).2 new, equal⟩

theorem refer (b : Builder) (name : String) (s : Supplied) :
    Binding b.parameters [(b.refer name s).1] (b.refer name s).2.parameters := by
  unfold Builder.refer
  rcases b.bindParameter_cases name s.value with ⟨old, found, equal, shape⟩ | ⟨free, shape⟩
  · rw [shape]
    exact {
      kept := fun _ _ known => known
      bound := fun r mem => by
        obtain rfl := List.mem_singleton.1 mem
        exact ⟨old, found, .inr equal⟩
      used := fun _ mem => .inl mem }
  · rw [shape]
    exact {
      kept := fun key value known => by rw [Table.get?_append, known, Option.some_or]
      bound := fun r mem => by
        obtain rfl := List.mem_singleton.1 mem
        refine ⟨s.value, ?_, .inl rfl⟩
        rw [Table.get?_append, free, Option.none_or, Table.get?, if_pos (by simp)]
      used := fun key mem => by
        simp only [Table.keys, List.map_append, List.map_cons, List.map_nil, List.mem_append,
          List.mem_singleton] at mem
        rcases mem with old | rfl
        · exact .inl old
        · exact .inr ⟨_, List.mem_singleton.2 rfl, rfl⟩ }

theorem referAll (b : Builder) (path : String) (supplied : List Supplied) :
    Binding b.parameters (b.referAll path supplied).1 (b.referAll path supplied).2.parameters := by
  induction supplied generalizing b with
  | nil => exact nil b.parameters
  | cons s rest ih =>
      rw [Builder.referAll_cons]
      exact (refer b _ s).append (ih _)

end Binding

end GraphBridge.Statement
