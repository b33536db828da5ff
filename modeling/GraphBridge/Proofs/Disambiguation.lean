import GraphBridge.Proofs.Equality

/-!
# Parameters that ask for one name

A value is bound under the name it asks for, or under that name with a suffix if another value has
it. Names with suffixes may be asked for as well, so one collision can lead to the next. Still no
value is lost: the search for a name ends, a table of parameters only grows at its end, and in the
final table each name that was given out has a value equal to all those that it was given out for.
-/

namespace GraphBridge.Statement.Builder

variable {b : Builder} {name : String} {value : Json} {calls : List (String × Json)}

/-! ## The search for a name -/

/-- The search for the name of a parameter: one candidate is tried after the other, as long as they
are refused. No bound is set to it. -/
inductive Searches (b : Builder) (name : String) (value : Json) : Nat → String → Prop where
  | stop {attempt : Nat} (accepted : b.accepts (candidate name attempt) value = true) :
      Searches b name value attempt (candidate name attempt)
  | next {attempt : Nat} {chosen : String}
      (refused : b.accepts (candidate name attempt) value = false)
      (later : Searches b name value (attempt + 1) chosen) : Searches b name value attempt chosen

namespace Searches

/-- A search ends with one name. -/
theorem unique {attempt : Nat} {chosen other : String}
    (first : b.Searches name value attempt chosen)
    (second : b.Searches name value attempt other) : other = chosen := by
  induction first with
  | stop accepted =>
      cases second with
      | stop _ => rfl
      | next refused _ => rw [accepted] at refused; cases refused
  | next refused later ih =>
      cases second with
      | stop accepted => rw [accepted] at refused; cases refused
      | next _ later' => exact ih later'

/-- A search ends with the first candidate that is accepted. -/
theorem of_first {more attempt : Nat}
    (refused : ∀ earlier < more, b.accepts (candidate name (attempt + earlier)) value = false)
    (accepted : b.accepts (candidate name (attempt + more)) value = true) :
    b.Searches name value attempt (candidate name (attempt + more)) := by
  induction more generalizing attempt with
  | zero => exact stop accepted
  | succ more ih =>
      refine next (refused 0 more.succ_pos) ?_
      have along (k : Nat) : attempt + 1 + k = attempt + (k + 1) := by omega
      rw [← along more] at accepted ⊢
      refine ih (fun earlier inside => ?_) accepted
      rw [along]
      exact refused _ (Nat.succ_lt_succ inside)

end Searches

/-- The search ends, with the name that a builder chooses. -/
theorem searches_iff {chosen : String} :
    b.Searches name value 0 chosen ↔ chosen = b.parameterName name value := by
  obtain ⟨first, same, accepted, refused⟩ := b.exists_first_accepted name value
  have ends : b.Searches name value 0 (candidate name (0 + first)) := by
    refine Searches.of_first (fun earlier inside => ?_) ?_
    · rw [Nat.zero_add]
      exact refused earlier inside
    · rwa [Nat.zero_add]
  rw [Nat.zero_add, ← same] at ends
  exact ⟨ends.unique, fun same => same ▸ ends⟩

/-- A name is the one asked for, or that name with a suffix from two on. -/
def StemsFrom (name chosen : String) : Prop :=
  chosen = name ∨ ∃ n, 2 ≤ n ∧ chosen = name ++ "_" ++ toString n

theorem stemsFrom_parameterName : StemsFrom name (b.parameterName name value) := by
  obtain ⟨attempt, same⟩ := b.parameterName_eq_candidate name value
  rw [same, candidate]
  split
  · exact .inl rfl
  · exact .inr ⟨attempt + 1, by omega, rfl⟩

/-! ## One call -/

/-- Parameters with distinct names and with values that can be read. -/
structure AreSound (parameters : Table Json) : Prop where
  distinct : parameters.keys.Nodup
  proper : ∀ entry ∈ parameters, entry.2.IsProper

/-- A table has a value for a name that is equal to a given one. -/
def Holds (parameters : Table Json) (chosen : String) (value : Json) : Prop :=
  ∃ bound, parameters.get? chosen = some bound ∧ bound.same value = true

/-- What a table holds it holds with more parameters behind. -/
theorem Holds.mono {before after : Table Json} {chosen : String} (holds : Holds before chosen value)
    (grown : before <+: after) : Holds after chosen value := by
  obtain ⟨bound, found, equal⟩ := holds
  obtain ⟨added, rfl⟩ := grown
  exact ⟨bound, by rw [Table.get?_append, found, Option.some_or], equal⟩

/-- Two values that a table holds under one name are equal. -/
theorem Holds.same {parameters : Table Json} {chosen : String} {other : Json}
    (sound : AreSound parameters) (proper : value.IsProper)
    (holds : Holds parameters chosen value) (holds' : Holds parameters chosen other) :
    value.same other = true := by
  obtain ⟨bound, found, equal⟩ := holds
  obtain ⟨bound', found', equal'⟩ := holds'
  obtain rfl := Option.some.inj (found.symm.trans found')
  have own : bound.IsProper := sound.proper _ (Table.mem_of_get? found)
  exact Json.same_trans proper own (Json.same_symm own proper equal) equal'

theorem fst_bindParameter (b : Builder) (name : String) (value : Json) :
    (b.bindParameter name value).1 = b.parameterName name value := by
  unfold bindParameter
  dsimp only
  split <;> rfl

/-- What one call does: the table holds the value under the name that is given out, with at most one
parameter more at its end. -/
theorem bindParameter_step (sound : AreSound b.parameters) (proper : value.IsProper) :
    b.parameters <+: (b.bindParameter name value).2.parameters
      ∧ Holds (b.bindParameter name value).2.parameters (b.parameterName name value) value
      ∧ AreSound (b.bindParameter name value).2.parameters := by
  rcases b.bindParameter_cases name value with ⟨old, found, equal, shape⟩ | ⟨free, shape⟩
  · rw [shape]
    exact ⟨List.prefix_rfl, ⟨old, found, equal⟩, sound⟩
  · rw [shape]
    refine ⟨List.prefix_append _ _, ⟨value, ?_, Json.same_refl proper⟩, ⟨?_, ?_⟩⟩
    · rw [Table.get?_append, free, Option.none_or, Table.get?, if_pos (beq_self_eq_true _)]
    · exact Table.nodup_keys_concat sound.distinct value (Table.get?_eq_none_iff.1 free)
    · exact List.forall_mem_append.2 ⟨sound.proper, List.forall_mem_singleton.2 proper⟩

/-! ## All calls -/

/-- Binds values one after the other under the names that they ask for, and gives the names that are
given out. -/
def bindAll (b : Builder) : List (String × Json) → List String × Builder
  | [] => ([], b)
  | (name, value) :: rest =>
      let (chosen, b) := b.bindParameter name value
      let (more, b) := b.bindAll rest
      (chosen :: more, b)

theorem bindAll_cons (b : Builder) (name : String) (value : Json) (rest : List (String × Json)) :
    b.bindAll ((name, value) :: rest)
      = (b.parameterName name value :: ((b.bindParameter name value).2.bindAll rest).1,
        ((b.bindParameter name value).2.bindAll rest).2) := by
  rw [← fst_bindParameter]
  rfl

theorem bindAll_append (b : Builder) (first rest : List (String × Json)) :
    b.bindAll (first ++ rest)
      = ((b.bindAll first).1 ++ ((b.bindAll first).2.bindAll rest).1,
        ((b.bindAll first).2.bindAll rest).2) := by
  induction first generalizing b with
  | nil => rfl
  | cons call first ih =>
      obtain ⟨name, value⟩ := call
      rw [List.cons_append, bindAll_cons, bindAll_cons, ih]
      rfl

/-- What all calls do together, by what each of them does. -/
theorem bindAll_run (sound : AreSound b.parameters) (proper : ∀ call ∈ calls, call.2.IsProper) :
    b.parameters <+: (b.bindAll calls).2.parameters
      ∧ AreSound (b.bindAll calls).2.parameters
      ∧ List.Forall₂ (fun call chosen => StemsFrom call.1 chosen
          ∧ Holds (b.bindAll calls).2.parameters chosen call.2) calls (b.bindAll calls).1 := by
  induction calls generalizing b with
  | nil => exact ⟨List.prefix_rfl, sound, .nil⟩
  | cons call rest ih =>
      obtain ⟨name, value⟩ := call
      obtain ⟨own, others⟩ := List.forall_mem_cons.1 proper
      obtain ⟨grown, holds, sound'⟩ := bindParameter_step sound own
      obtain ⟨grown', sound'', bound⟩ := ih sound' others
      rw [bindAll_cons]
      exact ⟨grown.trans grown', sound'',
        .cons ⟨stemsFrom_parameterName, holds.mono grown'⟩ bound⟩

/-- What it means that calls lose no value: of the names that they are given out and of the table at
their end. -/
structure Disambiguates (b : Builder) (calls : List (String × Json)) (names : List String)
    (parameters : Table Json) : Prop where
  /-- The search of each call ends, with the name that is given out for it, and what was bound
  before the call stays as it is, in front of all that is bound later. -/
  ends : ∀ earlier name value later, calls = earlier ++ (name, value) :: later →
    ∃ chosen, names[earlier.length]? = some chosen
      ∧ (∀ other, (b.bindAll earlier).2.Searches name value 0 other ↔ other = chosen)
      ∧ (b.bindAll earlier).2.parameters <+: parameters
  /-- Each name is the one asked for or has a suffix behind it. -/
  named : List.Forall₂ (fun call chosen => StemsFrom call.1 chosen) calls names
  /-- At the end each name has a value that is equal to the one it was given out for. -/
  bound : List.Forall₂ (fun call chosen => Holds parameters chosen call.2) calls names
  /-- No name has two values. -/
  distinct : parameters.keys.Nodup
  /-- Values that are given one name are equal. -/
  shared : ∀ chosen first second, (first, chosen) ∈ calls.zip names →
    (second, chosen) ∈ calls.zip names → first.2.same second.2 = true

/-- No value is lost. However often values are bound, under whatever names, from an empty table on:
every search for a name ends, no parameter is changed or removed, every name has its value at the
end, values that share a name are equal, and every name is the one asked for or has a suffix. -/
theorem bindAll_disambiguates (empty : b.parameters = [])
    (proper : ∀ call ∈ calls, call.2.IsProper) :
    Disambiguates b calls (b.bindAll calls).1 (b.bindAll calls).2.parameters := by
  have start : AreSound b.parameters := by
    rw [empty]
    exact ⟨List.nodup_nil, List.forall_mem_nil _⟩
  obtain ⟨-, sound, each⟩ := bindAll_run start proper
  have bound := each.imp fun _ _ => And.right
  refine ⟨?_, each.imp fun _ _ => And.left, bound, sound.distinct, ?_⟩
  · rintro earlier name value later rfl
    obtain ⟨before, rest⟩ := List.forall_mem_append.1 proper
    obtain ⟨-, sound', named⟩ := bindAll_run start before
    obtain ⟨grown, -, -⟩ := bindAll_run sound' rest
    rw [bindAll_cons] at grown
    rw [bindAll_append, bindAll_cons]
    refine ⟨(b.bindAll earlier).2.parameterName name value, ?_, fun other => searches_iff, grown⟩
    rw [named.length_eq, List.getElem?_append_right (Nat.le_refl _), Nat.sub_self]
    rfl
  · intro chosen first second mem mem'
    obtain ⟨-, holds⟩ := List.forall₂_iff_zip.1 bound
    exact Holds.same sound (proper _ (List.of_mem_zip mem).1) (holds mem) (holds mem')

/-- Values that ask for one name, and for names that look like what others are given. -/
def colliding : List (String × Json) :=
  [("x", .number (.natural 1)), ("x", .number (.natural 2)), ("x_2", .number (.natural 3)),
    ("x", .number (.natural 3)), ("x", .number (.natural 1)), ("x_2", .number (.natural 2))]

theorem bindAll_disambiguates_colliding :
    (({} : Builder).bindAll colliding).1 = ["x", "x_2", "x_2_2", "x_3", "x", "x_2"]
      ∧ Disambiguates {} colliding ["x", "x_2", "x_2_2", "x_3", "x", "x_2"]
          (({} : Builder).bindAll colliding).2.parameters := by
  have names : (({} : Builder).bindAll colliding).1 = ["x", "x_2", "x_2_2", "x_3", "x", "x_2"] := by
    decide +kernel
  have proper : ∀ call ∈ colliding, call.2.IsProper := by
    simp only [colliding, List.forall_mem_cons]
    exact ⟨⟨rfl, rfl⟩, ⟨rfl, rfl⟩, ⟨rfl, rfl⟩, ⟨rfl, rfl⟩, ⟨rfl, rfl⟩, ⟨rfl, rfl⟩,
      List.forall_mem_nil _⟩
  refine ⟨names, ?_⟩
  rw [← names]
  exact bindAll_disambiguates rfl proper

end GraphBridge.Statement.Builder
