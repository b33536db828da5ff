import GraphBridge.Proofs.Emission

/-!
# Collecting and grouping fields

How the fields of selections are found from the fields of the parts: selections one after the other
give their fields one after the other, a selection that stands among others gives some of theirs,
and fragments that are not looked at do not matter. Grouped fields are then said from the outside:
one for each response key, in the order of first occurrence, with all the selections of the key.
-/

namespace GraphBridge.Operation.FragmentDefinition

/-- Without the fragments of a name, that name is not found, and every other name as before. -/
theorem find?_without (fragments : List FragmentDefinition) (name other : String) :
    find? (without fragments name) other
      = if other = name then none else find? fragments other := by
  unfold find? without
  rw [List.find?_filter]
  split
  · rename_i same
    subst same
    refine List.find?_eq_none.2 fun f _ => ?_
    by_cases equal : f.name = other <;> simp [equal]
  · rename_i apart
    congr 1
    funext f
    by_cases equal : f.name = other
    · simp [equal, apart]
    · simp [equal]

theorem find?_without_of_fewer {fragments others : List FragmentDefinition}
    (more : ∀ other f, find? fragments other = some f → find? others other = some f)
    (name : String) :
    ∀ other f, find? (without fragments name) other = some f →
      find? (without others name) other = some f := by
  intro other f known
  rw [find?_without] at known ⊢
  split at known
  · cases known
  · rename_i apart
    rw [if_neg apart]
    exact more other f known

end GraphBridge.Operation.FragmentDefinition

namespace GraphBridge.Compile

open Operation Schema

theorem ok_bind {ε α β : Type} (a : α) (next : α → Except ε β) :
    ((.ok a : Except ε α) >>= next) = next a := rfl

theorem bind_ok {ε α : Type} (found : Except ε α) : (found >>= fun a => .ok a) = found := by
  cases found <;> rfl

section Collect

variable {typeName : String} {fragments : List FragmentDefinition}

/-! ## Collecting -/

@[simp] theorem collectFields_nil : collectFields typeName fragments [] = .ok [] := by
  rw [collectFields]

/-- The fields of one selection in front of those of the others. -/
theorem collectFields_cons (s : Selection) (rest : List Selection) :
    collectFields typeName fragments (s :: rest) = (do
      let first ← collectFields typeName fragments [s]
      let more ← collectFields typeName fragments rest
      return first ++ more) := by
  cases s with
  | field given? name arguments selections =>
      rw [collectFields, collectFields, collectFields_nil]
      rfl
  | spread name =>
      rw [collectFields, collectFields, collectFields_nil]
      split
      · rfl
      · split
        · simp only [ok_bind, List.append_nil, bind_assoc, pure_bind]
        · rfl
  | inlined condition? selections =>
      rw [collectFields, collectFields, collectFields_nil]
      split
      · simp only [ok_bind, List.append_nil, bind_assoc, pure_bind]
      · rfl

/-- A selected field is collected as it stands. -/
@[simp] theorem collectFields_field (given? : Option String) (name : String)
    (arguments : Table Json) (selections : List Selection) :
    collectFields typeName fragments [.field given? name arguments selections]
      = .ok [⟨given?, name, arguments, selections⟩] := by
  rw [collectFields, collectFields_nil]
  rfl

/-- A spread stands for the fields of its fragment, if the fragment fits the type. -/
theorem collectFields_spread (name : String) :
    collectFields typeName fragments [.spread name]
      = match FragmentDefinition.find? fragments name with
        | none => .error (.unknownFragment name)
        | some f =>
            if f.condition == typeName then
              collectFields typeName (FragmentDefinition.without fragments name) f.selections
            else .ok [] := by
  rw [collectFields, collectFields_nil]
  split
  · rename_i missing
    rw [missing]
  · rename_i f found
    rw [found]
    simp only [ok_bind, List.append_nil, pure, Except.pure, bind_ok]

/-- An inline fragment stands for its fields, if it fits the type. -/
theorem collectFields_inlined (condition? : Option String) (selections : List Selection) :
    collectFields typeName fragments [.inlined condition? selections]
      = if condition?.all (· == typeName) then collectFields typeName fragments selections
        else .ok [] := by
  rw [collectFields, collectFields_nil]
  simp only [ok_bind, List.append_nil, pure, Except.pure, bind_ok]

/-- Selections one after the other give their fields one after the other. -/
theorem collectFields_append (first second : List Selection) :
    collectFields typeName fragments (first ++ second) = (do
      let fields ← collectFields typeName fragments first
      let more ← collectFields typeName fragments second
      return fields ++ more) := by
  induction first with
  | nil =>
      rw [List.nil_append, collectFields_nil]
      cases collectFields typeName fragments second <;> rfl
  | cons s rest ih =>
      rw [List.cons_append, collectFields_cons, ih, collectFields_cons s rest]
      simp only [bind, Except.bind, pure, Except.pure]
      cases collectFields typeName fragments [s] with
      | error e => rfl
      | ok own =>
          cases collectFields typeName fragments rest with
          | error e => rfl
          | ok fields => cases collectFields typeName fragments second <;> simp

/-- A selection comes to nothing but some of the given fields. -/
def ComesWithin (typeName : String) (fragments : List FragmentDefinition) (fields : List Field)
    (s : Selection) : Prop :=
  ∃ part, collectFields typeName fragments [s] = .ok part ∧ part ⊆ fields

/-- A selection comes to fields that the selections come to among which it stands. -/
theorem comesWithin_of_mem {selections : List Selection} {fields : List Field}
    (collected : collectFields typeName fragments selections = .ok fields) :
    ∀ s ∈ selections, ComesWithin typeName fragments fields s := by
  intro s mem
  obtain ⟨before, after, rfl⟩ := List.mem_iff_append.1 mem
  rw [collectFields_append, collectFields_cons] at collected
  obtain ⟨front, -, collected⟩ := bind_eq_ok collected
  obtain ⟨back, behind, made⟩ := bind_eq_ok collected
  obtain ⟨part, own, behind⟩ := bind_eq_ok behind
  obtain ⟨more, -, joined⟩ := bind_eq_ok behind
  cases joined
  cases made
  refine ⟨part, own, ?_⟩
  intro f inside
  exact List.mem_append_right _ (List.mem_append_left _ inside)

/-- If each of some selections comes to given fields only, so do all of them. -/
theorem collectFields_comesWithin {selections : List Selection} {fields : List Field}
    (each : ∀ s ∈ selections, ComesWithin typeName fragments fields s) :
    ∃ all, collectFields typeName fragments selections = .ok all ∧ all ⊆ fields := by
  induction selections with
  | nil => exact ⟨[], collectFields_nil, List.nil_subset _⟩
  | cons s rest ih =>
      obtain ⟨first, others⟩ := List.forall_mem_cons.1 each
      obtain ⟨part, own, inside⟩ := first
      obtain ⟨more, later, within⟩ := ih others
      refine ⟨part ++ more, ?_, List.append_subset.2 ⟨inside, within⟩⟩
      rw [collectFields_cons, own, later]
      rfl

/-- If the fields of one selection and those of the others are found among other fragments too, so
are the fields of all. -/
theorem collectFields_cons_of_fewer {others : List FragmentDefinition} {s : Selection}
    {rest : List Selection} {fields : List Field}
    (own : ∀ part, collectFields typeName fragments [s] = .ok part →
      collectFields typeName others [s] = .ok part)
    (later : ∀ part, collectFields typeName fragments rest = .ok part →
      collectFields typeName others rest = .ok part)
    (collected : collectFields typeName fragments (s :: rest) = .ok fields) :
    collectFields typeName others (s :: rest) = .ok fields := by
  rw [collectFields_cons] at collected ⊢
  obtain ⟨first, found, collected⟩ := bind_eq_ok collected
  obtain ⟨more, found', made⟩ := bind_eq_ok collected
  rw [own first found, later more found']
  exact made

/-- Fields that are found are found among more fragments too. -/
theorem collectFields_of_fewer {others : List FragmentDefinition} {selections : List Selection}
    {fields : List Field}
    (more : ∀ name f, FragmentDefinition.find? fragments name = some f →
      FragmentDefinition.find? others name = some f)
    (collected : collectFields typeName fragments selections = .ok fields) :
    collectFields typeName others selections = .ok fields := by
  induction fragments, selections using collectFields.induct typeName
    generalizing others fields with
  | case1 fragments =>
      rw [collectFields_nil] at collected ⊢
      exact collected
  | case2 fragments given? name arguments inner rest ih =>
      refine collectFields_cons_of_fewer ?_ (fun _ => ih more) collected
      intro part own
      rw [collectFields_field] at own ⊢
      exact own
  | case3 fragments name rest missing =>
      rw [collectFields_cons, collectFields_spread, missing] at collected
      cases collected
  | case4 fragments name rest f found fits ih ihInner =>
      refine collectFields_cons_of_fewer ?_ (fun _ => ih more) collected
      intro part own
      rw [collectFields_spread, found] at own
      rw [collectFields_spread, more name f found]
      dsimp only at own ⊢
      rw [if_pos fits] at own ⊢
      exact ihInner (FragmentDefinition.find?_without_of_fewer more name) own
  | case5 fragments name rest f found misfits ih =>
      refine collectFields_cons_of_fewer ?_ (fun _ => ih more) collected
      intro part own
      rw [collectFields_spread, found] at own
      rw [collectFields_spread, more name f found]
      dsimp only at own ⊢
      rw [if_neg misfits] at own ⊢
      exact own
  | case6 fragments condition? inner rest fits ih ihInner =>
      refine collectFields_cons_of_fewer ?_ (fun _ => ih more) collected
      intro part own
      rw [collectFields_inlined, if_pos fits] at own ⊢
      exact ihInner more own
  | case7 fragments condition? inner rest misfits ih =>
      refine collectFields_cons_of_fewer ?_ (fun _ => ih more) collected
      intro part own
      rw [collectFields_inlined, if_neg misfits] at own ⊢
      exact own

/-- Fields that are found without a fragment are found with it. -/
theorem collectFields_of_without {name : String} {selections : List Selection}
    {fields : List Field}
    (collected : collectFields typeName (FragmentDefinition.without fragments name) selections
      = .ok fields) :
    collectFields typeName fragments selections = .ok fields := by
  refine collectFields_of_fewer ?_ collected
  intro other f known
  rw [FragmentDefinition.find?_without] at known
  split at known
  · cases known
  · exact known

end Collect

/-! ## Grouping -/

/-- The selections of all fields of a response key, one field after the other. -/
def selectionsOf (fields : List Field) (key : String) : List Selection :=
  (fields.filter fun f => f.responseKey == key).flatMap (·.selections)

/-- The first field of each response key that has not been seen, without its selections. -/
def firstFields (seen : List String) : List Field → List Field
  | [] => []
  | f :: rest =>
      if f.responseKey ∈ seen then firstFields seen rest
      else { f with selections := [] } :: firstFields (f.responseKey :: seen) rest

/-- A field with all the selections of its response key. -/
def gather (fields : List Field) (f : Field) : Field :=
  { f with selections := selectionsOf fields f.responseKey }

/-- The selections of the first field of a list belong to its own key only. -/
theorem selectionsOf_cons (f : Field) (rest : List Field) (key : String) :
    selectionsOf (f :: rest) key
      = (if f.responseKey = key then f.selections else []) ++ selectionsOf rest key := by
  by_cases same : f.responseKey = key <;> simp [selectionsOf, same]

/-- Selections of a key stand in one of the fields of the key. -/
theorem mem_selectionsOf {fields : List Field} {key : String} {s : Selection} :
    s ∈ selectionsOf fields key ↔ ∃ f ∈ fields, f.responseKey = key ∧ s ∈ f.selections := by
  simp only [selectionsOf, List.mem_flatMap, List.mem_filter, beq_iff_eq, and_assoc]

/-- Which keys have been seen matters, not in which order. -/
theorem firstFields_congr {seen others : List String} (same : ∀ key, key ∈ seen ↔ key ∈ others)
    (fields : List Field) : firstFields seen fields = firstFields others fields := by
  induction fields generalizing seen others with
  | nil => rfl
  | cons f rest ih =>
      unfold firstFields
      have longer : ∀ key, key ∈ f.responseKey :: seen ↔ key ∈ f.responseKey :: others := by
        intro key
        rw [List.mem_cons, List.mem_cons, same]
      simp only [same, ih same, ih longer]

/-- A key that has been seen is as good as left out. -/
theorem firstFields_cons (key : String) (seen : List String) (fields : List Field) :
    firstFields (key :: seen) fields
      = firstFields seen (fields.filter fun f => f.responseKey != key) := by
  induction fields generalizing seen with
  | nil => rfl
  | cons f rest ih =>
      by_cases same : f.responseKey = key
      · rw [firstFields, if_pos (by simp [same]), List.filter_cons_of_neg (by simp [same]), ih]
      · rw [List.filter_cons_of_pos (by simpa using same)]
        unfold firstFields
        by_cases known : f.responseKey ∈ seen
        · rw [if_pos (List.mem_cons_of_mem _ known), if_pos known, ih]
        · have new : f.responseKey ∉ key :: seen := by simp [same, known]
          have swapped : ∀ other, other ∈ f.responseKey :: key :: seen
              ↔ other ∈ key :: f.responseKey :: seen := by
            intro other
            simp only [List.mem_cons]
            exact or_left_comm
          rw [if_neg new, if_neg known, firstFields_congr swapped, ih]

/-- No key that has been seen is found again. -/
theorem not_mem_of_mem_firstFields {seen : List String} {fields : List Field} {f : Field}
    (mem : f ∈ firstFields seen fields) : f.responseKey ∉ seen := by
  induction fields generalizing seen with
  | nil => cases mem
  | cons g rest ih =>
      unfold firstFields at mem
      split at mem
      · exact ih mem
      · rename_i new
        rcases List.mem_cons.1 mem with rfl | later
        · exact new
        · exact fun old => ih later (List.mem_cons_of_mem _ old)

/-- Grouping finds the first field of each response key and gathers the selections of the key. -/
theorem groupFields_eq (fields : List Field) :
    groupFields fields = (firstFields [] fields).map (gather fields) := by
  fun_induction groupFields fields with
  | case1 => rfl
  | case2 f rest ih =>
      have first : absorb rest f = gather (f :: rest) { f with selections := [] } := by
        have key : ({ f with selections := [] } : Field).responseKey = f.responseKey := rfl
        have sides : (fun g : Field => f.responseKey == g.responseKey)
            = fun g => g.responseKey == f.responseKey := by
          funext g
          exact BEq.comm
        simp [absorb, gather, selectionsOf, key, sides]
      have others : ∀ g ∈ firstFields [] (otherFields f rest),
          gather (otherFields f rest) g = gather (f :: rest) g := by
        intro g mem
        rw [otherFields, ← firstFields_cons] at mem
        have apart : g.responseKey ≠ f.responseKey := by
          simpa using not_mem_of_mem_firstFields mem
        unfold gather
        rw [selectionsOf_cons, if_neg (Ne.symm apart), List.nil_append, selectionsOf, otherFields,
          List.filter_filter]
        congr 3
        funext other
        by_cases same : other.responseKey = g.responseKey
        · simp [same, apart]
        · simp [same]
      rw [firstFields, if_neg List.not_mem_nil, firstFields_cons, List.map_cons, first, ih]
      exact congrArg _ (List.map_congr_left others)

/-! ## Resolving fields -/

/-- Fields of one name and the same arguments resolve alike if their selections do, and those matter
only where the field is an object. -/
theorem resolveField_congr {ctx : Context} {others : List FragmentDefinition}
    {inner inner' : Resolves} {typeName : String} {f : Field}
    {selections selections' : List Selection}
    (same : ∀ d, ctx.index.field typeName f.name = .ok d → d.isObject = true →
      f.name ≠ "__typename" → inner d.graphType selections = inner' d.graphType selections') :
    resolveField ctx inner typeName { f with selections := selections }
      = resolveField { ctx with fragments := others } inner' typeName
          { f with selections := selections' } := by
  unfold resolveField
  split
  · rfl
  rename_i plain
  have named : f.name ≠ "__typename" := by simpa using plain
  dsimp only
  cases looked : ctx.index.field typeName f.name with
  | error e => rfl
  | ok d =>
      simp only [mapError_ok, ok_bind]
      split
      · rename_i object
        rw [same d looked object named]
        rfl
      · rfl

end GraphBridge.Compile
