import GraphBridge.Compile.Selection

/-!
# Merging is grouping

Fields are merged one after the other into a growing list. What comes out can be said without the
list: the fields of one response key are one field, which stands where the first of them stood and
has the selections of all of them in order.
-/

namespace GraphBridge.Compile

open Operation

/-- A field with the selections of all later fields of its response key behind its own. -/
def absorb (rest : List Field) (f : Field) : Field :=
  { f with selections := f.selections
      ++ (rest.filter fun g => f.responseKey == g.responseKey).flatMap (·.selections) }

/-- The fields of other response keys. -/
def otherFields (f : Field) (rest : List Field) : List Field :=
  rest.filter fun g => g.responseKey != f.responseKey

/-- One field for each response key, in the order in which the keys first occur. -/
def groupFields : List Field → List Field
  | [] => []
  | f :: rest => absorb rest f :: groupFields (otherFields f rest)
termination_by fields => fields.length
decreasing_by exact Nat.lt_succ_of_le (List.length_filter_le _ _)

@[simp] theorem responseKey_absorb (rest : List Field) (f : Field) :
    (absorb rest f).responseKey = f.responseKey := rfl

@[simp] theorem absorb_nil (f : Field) : absorb [] f = f := by
  simp [absorb]

/-- A field of another key is not absorbed. -/
theorem absorb_cons_of_ne {f g : Field} (rest : List Field)
    (apart : f.responseKey ≠ g.responseKey) : absorb (g :: rest) f = absorb rest f := by
  simp [absorb, apart]

/-- A field of the same key adds its selections in front of those of later ones. -/
theorem absorb_cons_of_eq {f g : Field} (rest : List Field)
    (same : f.responseKey = g.responseKey) :
    absorb (g :: rest) f = absorb rest { f with selections := f.selections ++ g.selections } := by
  have key : ({ f with selections := f.selections ++ g.selections } : Field).responseKey
      = f.responseKey := rfl
  simp [absorb, same, key]

/-- Fields of other keys can be left out of what is absorbed. -/
theorem absorb_filter {f : Field} (rest : List Field) (keep : Field → Bool)
    (own : ∀ g ∈ rest, f.responseKey = g.responseKey → keep g = true) :
    absorb (rest.filter keep) f = absorb rest f := by
  unfold absorb
  rw [List.filter_filter]
  congr 3
  apply List.filter_congr
  intro g mem
  cases same : f.responseKey == g.responseKey with
  | false => rfl
  | true => rw [own g mem (by simpa using same)]; rfl

/-- Keys come out in the order of their first occurrence. -/
theorem responseKeys_groupFields (fields : List Field) :
    (groupFields fields).map (·.responseKey) = (fields.map (·.responseKey)).eraseDups := by
  fun_induction groupFields fields with
  | case1 => rfl
  | case2 f rest ih =>
      rw [List.map_cons, ih, List.map_cons, List.eraseDups_cons, List.filter_map]
      rfl

/-- Grouped fields have one response key each. -/
theorem nodup_responseKeys (fields : List Field) :
    ((groupFields fields).map (·.responseKey)).Nodup := by
  fun_induction groupFields fields with
  | case1 => exact List.nodup_nil
  | case2 f rest ih =>
      rw [List.map_cons, List.nodup_cons]
      refine ⟨?_, ih⟩
      intro mem
      rw [responseKeys_groupFields, List.mem_eraseDups] at mem
      obtain ⟨g, other, same⟩ := List.mem_map.1 mem
      have apart := (List.mem_filter.1 other).2
      simp [same] at apart

/-- Where a field goes: into the field of its key, if there is one, or behind all others. -/
theorem mergeField_eq {merged : List Field} (f : Field)
    (distinct : (merged.map (·.responseKey)).Nodup) :
    mergeField merged f
      = if f.responseKey ∈ merged.map (·.responseKey) then merged.map (absorb [f])
        else merged ++ [f] := by
  induction merged with
  | nil => rfl
  | cons g rest ih =>
      rw [List.map_cons, List.nodup_cons] at distinct
      unfold mergeField
      by_cases same : g.responseKey = f.responseKey
      · -- no other field has the key, so the rest absorbs nothing
        have others : rest.map (absorb [f]) = rest := by
          conv => rhs; rw [← List.map_id rest]
          apply List.map_congr_left
          intro other mem
          rw [absorb_cons_of_ne, absorb_nil]
          · rfl
          intro equal
          exact distinct.1 (List.mem_map.2 ⟨other, mem, equal.trans same.symm⟩)
        rw [if_pos (by simpa using same), if_pos (by simp [same]), List.map_cons, others,
          absorb_cons_of_eq _ same, absorb_nil]
      · rw [if_neg (by simpa using same), ih distinct.2, List.map_cons, List.map_cons,
          absorb_cons_of_ne _ same, absorb_nil]
        simp only [List.mem_cons, Ne.symm same, false_or]
        split <;> rfl

/-- Merging fields into merged ones: those absorb what has their keys, and the rest is grouped. -/
theorem foldl_mergeField (fields merged : List Field)
    (distinct : (merged.map (·.responseKey)).Nodup) :
    fields.foldl mergeField merged
      = merged.map (absorb fields)
        ++ groupFields (fields.filter fun f => f.responseKey ∉ merged.map (·.responseKey)) := by
  induction fields generalizing merged with
  | nil =>
      have unchanged : merged.map (absorb []) = merged :=
        List.map_id'' (fun f => absorb_nil f) merged
      simp [unchanged, groupFields]
  | cons f fields ih =>
      rw [List.foldl_cons, mergeField_eq f distinct]
      by_cases known : f.responseKey ∈ merged.map (·.responseKey)
      · have keys : (merged.map (absorb [f])).map (·.responseKey)
            = merged.map (·.responseKey) := by
          rw [List.map_map]
          rfl
        rw [if_pos known, ih _ (by rw [keys]; exact distinct), keys, List.map_map,
          List.filter_cons_of_neg (by simpa using known)]
        congr 1
        apply List.map_congr_left
        intro g _
        by_cases same : g.responseKey = f.responseKey
        · rw [Function.comp, absorb_cons_of_eq _ same, absorb_cons_of_eq _ same, absorb_nil]
        · rw [Function.comp, absorb_cons_of_ne _ same, absorb_cons_of_ne _ same, absorb_nil]
      · have keys : (merged ++ [f]).map (·.responseKey)
            = merged.map (·.responseKey) ++ [f.responseKey] := by simp
        have distinct' : ((merged ++ [f]).map (·.responseKey)).Nodup := by
          rw [keys]
          exact List.nodup_append.2 ⟨distinct, by simp, by simpa using known⟩
        rw [if_neg known, ih _ distinct', keys, List.filter_cons_of_pos (by simpa using known),
          groupFields, List.map_append, List.append_assoc, otherFields, List.filter_filter]
        congr 1
        · apply List.map_congr_left
          intro g mem
          rw [absorb_cons_of_ne]
          intro same
          exact known (List.mem_map.2 ⟨g, mem, same⟩)
        · rw [List.map_singleton, List.singleton_append]
          congr 1
          · rw [absorb_filter]
            intro g _ same
            simpa [same] using known
          · congr 1
            apply List.filter_congr
            intro g _
            by_cases same : g.responseKey = f.responseKey <;> simp [same]

/-- Merging fields is grouping them. -/
theorem mergeFields_eq (fields : List Field) : mergeFields fields = groupFields fields := by
  rw [mergeFields, foldl_mergeField fields [] List.nodup_nil, List.map_nil, List.nil_append,
    List.filter_eq_self.2]
  simp

theorem selectedFields_eq (typeName : String) (fragments : List FragmentDefinition)
    (selections : List Selection) :
    selectedFields typeName fragments selections
      = (collectFields typeName fragments selections).map groupFields := by
  unfold selectedFields
  congr 1
  funext fields
  exact mergeFields_eq fields

end GraphBridge.Compile
