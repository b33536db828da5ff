import GraphBridge.Proofs.Grounding
import GraphBridge.Proofs.Planning
import Mathlib.Logic.Relation
import Mathlib.Tactic.Choose

/-!
# Fragments are transparent

A selection can be expanded once and for all: on every level, fragments that fit the type give way
to what they select, other fragments are dropped, and fields of one response key become one field.
The expansion is stated here as a relation that knows nothing of how fields are collected. If no
fragment reaches itself, every selection of known fragments has exactly one expansion, and compiling
the expansion comes to the same as compiling the selection, which is expanded level by level.
-/

namespace GraphBridge.Operation

/-! ## Fragments that do not reach themselves -/

mutual

/-- The fragments that a selection names, at any depth. -/
def Selection.spreads : Selection → List String
  | .field _ _ _ inner => Selection.allSpreads inner
  | .spread name => [name]
  | .inlined _ inner => Selection.allSpreads inner

/-- The fragments that selections name, at any depth. -/
def Selection.allSpreads : List Selection → List String
  | [] => []
  | s :: rest => s.spreads ++ Selection.allSpreads rest

end

/-- Selections inside a field are smaller than those among which it stands. -/
theorem Selection.sizeOf_field_lt (given? : Option String) (name : String)
    (arguments : List (String × Json)) (inner rest : List Selection) :
    sizeOf inner < sizeOf (Selection.field given? name arguments inner :: rest) := by
  simp only [List.cons.sizeOf_spec, Selection.field.sizeOf_spec]
  omega

namespace FragmentDefinition

/-- One fragment names another. -/
def Names (fragments : List FragmentDefinition) (name other : String) : Prop :=
  ∃ f, find? fragments name = some f ∧ other ∈ Selection.allSpreads f.selections

/-- No fragment reaches itself. -/
def AreAcyclic (fragments : List FragmentDefinition) : Prop :=
  ∀ name, ¬ Relation.TransGen (Names fragments) name name

/-- Selections reach a fragment: they name it, or a fragment that reaches it. -/
def Reaches (fragments : List FragmentDefinition) (selections : List Selection)
    (name : String) : Prop :=
  ∃ first ∈ Selection.allSpreads selections, Relation.ReflTransGen (Names fragments) first name

variable {fragments : List FragmentDefinition} {selections : List Selection} {name other : String}

theorem reaches_cons {s : Selection} {rest : List Selection} :
    Reaches fragments (s :: rest) name
      ↔ Reaches fragments [s] name ∨ Reaches fragments rest name := by
  simp only [Reaches, Selection.allSpreads, List.append_nil, List.mem_append, or_and_right,
    exists_or]

theorem reaches_field {given? : Option String} {field : String} {arguments : List (String × Json)}
    {inner : List Selection} :
    Reaches fragments [.field given? field arguments inner] name
      ↔ Reaches fragments inner name := by
  simp only [Reaches, Selection.allSpreads, Selection.spreads, List.append_nil]

theorem reaches_inlined {condition? : Option String} {inner : List Selection} :
    Reaches fragments [.inlined condition? inner] name ↔ Reaches fragments inner name := by
  simp only [Reaches, Selection.allSpreads, Selection.spreads, List.append_nil]

theorem reaches_own (name : String) : Reaches fragments [.spread name] name :=
  ⟨name, List.mem_singleton.2 rfl, .refl⟩

/-- What the selections of a fragment reach is reached by its name. -/
theorem Reaches.of_found {f : FragmentDefinition} (found : find? fragments name = some f)
    (reaches : Reaches fragments f.selections other) :
    Relation.TransGen (Names fragments) name other := by
  obtain ⟨first, named, further⟩ := reaches
  exact Relation.TransGen.head' ⟨f, found, named⟩ further

theorem reaches_spread {f : FragmentDefinition} (found : find? fragments name = some f)
    (reaches : Reaches fragments f.selections other) : Reaches fragments [.spread name] other :=
  ⟨name, List.mem_singleton.2 rfl, (Reaches.of_found found reaches).to_reflTransGen⟩

/-- A fragment that does not reach itself is not missed inside of it. -/
theorem AreAcyclic.agree_without (acyclic : AreAcyclic fragments) {f : FragmentDefinition}
    (found : find? fragments name = some f) {visible : List FragmentDefinition}
    (agree : ∀ other, Reaches fragments [.spread name] other →
      find? visible other = find? fragments other) :
    ∀ other, Reaches fragments f.selections other →
      find? (without visible name) other = find? fragments other := by
  intro other reached
  have apart : other ≠ name := by
    rintro rfl
    exact acyclic other (Reaches.of_found found reached)
  rw [find?_without, if_neg apart]
  exact agree other (reaches_spread found reached)

/-- Induction over selections and the fragments they name: what holds of the selections of a
fragment may be used where it is named. -/
theorem AreAcyclic.induction {motive : List Selection → Prop} (acyclic : AreAcyclic fragments)
    (nil : motive [])
    (field : ∀ given? name arguments inner rest, motive inner → motive rest →
      motive (.field given? name arguments inner :: rest))
    (spread : ∀ name rest, (∀ f, find? fragments name = some f → motive f.selections) →
      motive rest → motive (.spread name :: rest))
    (inlined : ∀ condition? inner rest, motive inner → motive rest →
      motive (.inlined condition? inner :: rest))
    (selections : List Selection) : motive selections := by
  -- fragments that have been entered can be left out, because they are not reached again
  have within (size : Nat) : ∀ (visible : List FragmentDefinition) (selections : List Selection),
      weight visible + sizeOf selections = size →
      (∀ name, Reaches fragments selections name → find? visible name = find? fragments name) →
      motive selections := by
    induction size using Nat.strongRecOn with
    | ind size ih =>
        intro visible selections measured agree
        subst measured
        cases selections with
        | nil => exact nil
        | cons s rest =>
            have later : motive rest := by
              refine ih _ ?_ visible rest rfl fun name reached => ?_
              · exact Nat.add_lt_add_left (Selection.sizeOf_rest_lt _ _) _
              · exact agree name (reaches_cons.2 (.inr reached))
            cases s with
            | field given? name arguments inner =>
                refine field _ _ _ _ _ (ih _ ?_ visible inner rfl fun name reached => ?_) later
                · exact Nat.add_lt_add_left (Selection.sizeOf_field_lt ..) _
                · exact agree name (reaches_cons.2 (.inl (reaches_field.2 reached)))
            | inlined condition? inner =>
                refine inlined _ _ _ (ih _ ?_ visible inner rfl fun name reached => ?_) later
                · exact Nat.add_lt_add_left (Selection.sizeOf_inlined_lt _ _ _) _
                · exact agree name (reaches_cons.2 (.inl (reaches_inlined.2 reached)))
            | spread name =>
                refine spread _ _ (fun f found => ?_) later
                have known : find? visible name = some f := by
                  rw [agree name (reaches_cons.2 (.inl (reaches_own name))), found]
                refine ih _ (weight_spread_lt known rest) (without visible name) _ rfl ?_
                exact acyclic.agree_without found fun other reached =>
                  agree other (reaches_cons.2 (.inl reached))
  exact within _ fragments selections rfl fun _ _ => rfl

/-- What selections come upon outside of fields they reach. -/
theorem ComesUpon.reaches (comes : ComesUpon fragments name selections) :
    Reaches fragments selections name := by
  induction comes with
  | named rest => exact reaches_cons.2 (.inl (reaches_own name))
  | spread rest found _ ih => exact reaches_cons.2 (.inl (reaches_spread found ih))
  | inlined condition? rest _ ih => exact reaches_cons.2 (.inl (reaches_inlined.2 ih))
  | later s _ ih => exact reaches_cons.2 (.inr ih)

/-- Fragments that do not reach themselves do not come upon themselves. -/
theorem AreAcyclic.areGrounded (acyclic : AreAcyclic fragments) : AreGrounded fragments :=
  fun name _ found comes => acyclic name (Reaches.of_found found comes.reaches)

/-- Fragments that name only fragments of a lower rank do not reach themselves. -/
theorem areAcyclic_of_rank (rank : String → Nat)
    (lower : ∀ f ∈ fragments, ∀ other ∈ Selection.allSpreads f.selections,
      rank other < rank f.name) : AreAcyclic fragments := by
  have descends : ∀ name other, Relation.TransGen (Names fragments) name other →
      rank other < rank name := by
    have step : ∀ name other, Names fragments name other → rank other < rank name := by
      rintro name other ⟨f, found, named⟩
      have own : f.name = name := by simpa using List.find?_some found
      exact own ▸ lower f (List.mem_of_find?_eq_some found) other named
    intro name other further
    induction further with
    | single names => exact step _ _ names
    | tail _ names ih => exact Nat.lt_trans (step _ _ names) ih
  exact fun name further => Nat.lt_irrefl _ (descends name name further)

/-- Selections are at most so many levels deep, with fragments looked through, all of which are
known. -/
inductive Nests (fragments : List FragmentDefinition) : Nat → List Selection → Prop where
  | nil (depth : Nat) : Nests fragments depth []
  | field (given? : Option String) (name : String) (arguments : List (String × Json))
      {depth : Nat} {inner rest : List Selection} (inside : Nests fragments depth inner)
      (others : Nests fragments (depth + 1) rest) :
      Nests fragments (depth + 1) (.field given? name arguments inner :: rest)
  | spread {name : String} {f : FragmentDefinition} {depth : Nat} {rest : List Selection}
      (found : find? fragments name = some f) (inside : Nests fragments depth f.selections)
      (others : Nests fragments depth rest) : Nests fragments depth (.spread name :: rest)
  | inlined (condition? : Option String) {depth : Nat} {inner rest : List Selection}
      (inside : Nests fragments depth inner) (others : Nests fragments depth rest) :
      Nests fragments depth (.inlined condition? inner :: rest)

theorem Nests.mono {depth more : Nat} (nests : Nests fragments depth selections)
    (le : depth ≤ more) : Nests fragments more selections := by
  induction nests generalizing more with
  | nil _ => exact .nil more
  | field given? name arguments _ _ ihInner ih =>
      obtain ⟨less, rfl⟩ := Nat.exists_eq_succ_of_ne_zero (Nat.ne_zero_of_lt le)
      exact .field given? name arguments (ihInner (Nat.le_of_succ_le_succ le)) (ih le)
  | spread found _ _ ihInner ih => exact .spread found (ihInner le) (ih le)
  | inlined condition? _ _ ihInner ih => exact .inlined condition? (ihInner le) (ih le)

theorem Nests.append {depth : Nat} {first second : List Selection}
    (front : Nests fragments depth first) (back : Nests fragments depth second) :
    Nests fragments depth (first ++ second) := by
  induction front with
  | nil _ => exact back
  | field given? name arguments inside _ _ ih =>
      exact .field given? name arguments inside (ih back)
  | spread found inside _ _ ih => exact .spread found inside (ih back)
  | inlined condition? inside _ _ ih => exact .inlined condition? inside (ih back)

/-- If no fragment reaches itself and all that are reached are known, there is a depth. -/
theorem AreAcyclic.exists_nests (acyclic : AreAcyclic fragments) (selections : List Selection) :
    (∀ name, Reaches fragments selections name → (find? fragments name).isSome = true) →
      ∃ depth, Nests fragments depth selections := by
  induction selections using acyclic.induction with
  | nil => exact fun _ => ⟨0, .nil 0⟩
  | field given? name arguments inner rest ihInner ih =>
      intro known
      obtain ⟨depth, inside⟩ := ihInner fun other reached =>
        known other (reaches_cons.2 (.inl (reaches_field.2 reached)))
      obtain ⟨depth', others⟩ := ih fun other reached =>
        known other (reaches_cons.2 (.inr reached))
      exact ⟨max depth depth' + 1, .field given? name arguments (inside.mono (Nat.le_max_left _ _))
        (others.mono (Nat.le_succ_of_le (Nat.le_max_right _ _)))⟩
  | spread name rest ihInner ih =>
      intro known
      obtain ⟨f, found⟩ := Option.isSome_iff_exists.1
        (known name (reaches_cons.2 (.inl (reaches_own name))))
      obtain ⟨depth, inside⟩ := ihInner f found fun other reached =>
        known other (reaches_cons.2 (.inl (reaches_spread found reached)))
      obtain ⟨depth', others⟩ := ih fun other reached =>
        known other (reaches_cons.2 (.inr reached))
      exact ⟨max depth depth', .spread found (inside.mono (Nat.le_max_left _ _))
        (others.mono (Nat.le_max_right _ _))⟩
  | inlined condition? inner rest ihInner ih =>
      intro known
      obtain ⟨depth, inside⟩ := ihInner fun other reached =>
        known other (reaches_cons.2 (.inl (reaches_inlined.2 reached)))
      obtain ⟨depth', others⟩ := ih fun other reached =>
        known other (reaches_cons.2 (.inr reached))
      exact ⟨max depth depth', .inlined condition? (inside.mono (Nat.le_max_left _ _))
        (others.mono (Nat.le_max_right _ _))⟩

end FragmentDefinition

end GraphBridge.Operation

namespace GraphBridge.Compile

open Operation Schema Statement

/-! ## The expansion of a selection -/

/-- The fields that selections on a type come to: a fragment without a type condition, or with that
of the type, gives way to what it selects, and any other fragment is dropped. -/
inductive Flattening (typeName : String) (fragments : List FragmentDefinition) :
    List Selection → List Field → Prop where
  | nil : Flattening typeName fragments [] []
  | field (given? : Option String) (name : String) (arguments : Table Json)
      (inner : List Selection) {rest : List Selection} {more : List Field}
      (others : Flattening typeName fragments rest more) :
      Flattening typeName fragments (.field given? name arguments inner :: rest)
        (⟨given?, name, arguments, inner⟩ :: more)
  | spread {name : String} {f : FragmentDefinition} {rest : List Selection}
      {inner more : List Field} (found : FragmentDefinition.find? fragments name = some f)
      (fits : f.condition = typeName) (inside : Flattening typeName fragments f.selections inner)
      (others : Flattening typeName fragments rest more) :
      Flattening typeName fragments (.spread name :: rest) (inner ++ more)
  | otherSpread {name : String} {f : FragmentDefinition} {rest : List Selection}
      {more : List Field} (found : FragmentDefinition.find? fragments name = some f)
      (misfits : f.condition ≠ typeName) (others : Flattening typeName fragments rest more) :
      Flattening typeName fragments (.spread name :: rest) more
  | inlined {condition? : Option String} {selections rest : List Selection}
      {inner more : List Field} (fits : condition? = none ∨ condition? = some typeName)
      (inside : Flattening typeName fragments selections inner)
      (others : Flattening typeName fragments rest more) :
      Flattening typeName fragments (.inlined condition? selections :: rest) (inner ++ more)
  | otherInlined {condition : String} {selections rest : List Selection} {more : List Field}
      (misfits : condition ≠ typeName) (others : Flattening typeName fragments rest more) :
      Flattening typeName fragments (.inlined (some condition) selections :: rest) more

/-- The type of a field that the schema says is an object. -/
def objectType? (index : Index) (typeName : String) (f : Field) : Option String :=
  if f.name == "__typename" then none
  else
    match index.field typeName f.name with
    | .ok d => if d.isObject then some d.graphType else none
    | .error _ => none

/-- A field as a selection with the given selections inside. -/
def selecting (f : Field) (inner : List Selection) : Selection :=
  .field f.given? f.name f.arguments inner

/-- The expansion of selections on a type: they are flattened, the fields of one response key become
one field, and the selections of object fields are expanded on their own types. -/
inductive Expansion (index : Index) (fragments : List FragmentDefinition) :
    String → List Selection → List Selection → Prop where
  | mk {typeName : String} {selections : List Selection} {fields : List Field}
      {inner : Field → List Selection} (flat : Flattening typeName fragments selections fields)
      (objects : ∀ f ∈ groupFields fields, ∀ type, objectType? index typeName f = some type →
        Expansion index fragments type f.selections (inner f))
      (scalars : ∀ f ∈ groupFields fields, objectType? index typeName f = none →
        inner f = f.selections) :
      Expansion index fragments typeName selections
        ((groupFields fields).map fun f => selecting f (inner f))

/-! ## Collecting is flattening -/

/-- Selections are collected as they are flattened. -/
theorem Flattening.collectFields_eq {typeName : String} {fragments : List FragmentDefinition}
    (grounded : FragmentDefinition.AreGrounded fragments) {selections : List Selection}
    {fields : List Field} (flat : Flattening typeName fragments selections fields) :
    collectFields typeName fragments selections = .ok fields := by
  induction flat with
  | nil => exact collectFields_nil
  | field given? name arguments inner _ ih =>
      rw [collectFields_cons, collectFields_field, ih]
      rfl
  | spread found fits _ _ ihInner ih =>
      rw [collectFields_cons, collectFields_spread, found, ih]
      simp only [fits, beq_self_eq_true, if_true, collectFields_without grounded found, ihInner]
      rfl
  | otherSpread found misfits _ ih =>
      rw [collectFields_cons, collectFields_spread, found, ih]
      simp only [beq_iff_eq, misfits, if_false]
      rfl
  | @inlined condition? _ _ _ _ fits _ _ ihInner ih =>
      have holds : condition?.all (· == typeName) = true := by
        rcases fits with rfl | rfl
        · rfl
        · exact beq_self_eq_true typeName
      rw [collectFields_cons, collectFields_inlined, if_pos holds, ihInner, ih]
      rfl
  | otherInlined misfits _ ih =>
      rw [collectFields_cons, collectFields_inlined, if_neg (by simpa using misfits), ih]
      rfl

/-- An expansion from its grouped fields, each of which is an object or a scalar. -/
theorem Expansion.of_grouped {index : Index} {fragments : List FragmentDefinition}
    {typeName : String} {selections expanded : List Selection} {fields grouped : List Field}
    (flat : Flattening typeName fragments selections fields) (groups : groupFields fields = grouped)
    (inner : Field → List Selection)
    (each : ∀ f ∈ grouped,
      (∃ type, objectType? index typeName f = some type
        ∧ Expansion index fragments type f.selections (inner f))
      ∨ (objectType? index typeName f = none ∧ inner f = f.selections))
    (made : (grouped.map fun f => selecting f (inner f)) = expanded) :
    Expansion index fragments typeName selections expanded := by
  subst groups made
  refine .mk flat (fun f mem type typed => ?_) fun f mem scalar => ?_
  · obtain ⟨type', typed', expands⟩ | ⟨scalar, -⟩ := each f mem
    · cases typed.symm.trans typed'
      exact expands
    · cases typed.symm.trans scalar
  · obtain ⟨type, typed, -⟩ | ⟨-, same⟩ := each f mem
    · cases scalar.symm.trans typed
    · exact same

/-- What comes to something is something. -/
theorem Expansion.ne_nil {index : Index} {fragments : List FragmentDefinition} {typeName : String}
    {selections expanded : List Selection}
    (expands : Expansion index fragments typeName selections expanded) (nonempty : expanded ≠ []) :
    selections ≠ [] := by
  rintro rfl
  obtain @⟨_, _, _, _, flat, _, _⟩ := expands
  cases flat
  exact nonempty (by rw [groupFields, List.map_nil])

/-! ## Every selection has one expansion -/

/-- What holds of the selections of all fields holds of those of grouped fields. -/
theorem forall_mem_groupFields {motive : List Selection → Prop}
    (append : ∀ first second, motive first → motive second → motive (first ++ second))
    {fields : List Field} (each : ∀ f ∈ fields, motive f.selections) :
    ∀ f ∈ groupFields fields, motive f.selections := by
  have gathered (own : List Selection) (start : motive own) (others : List Field)
      (each : ∀ f ∈ others, motive f.selections) :
      motive (own ++ others.flatMap (·.selections)) := by
    induction others generalizing own with
    | nil => simpa using start
    | cons f others ih =>
        obtain ⟨first, later⟩ := List.forall_mem_cons.1 each
        rw [List.flatMap_cons, ← List.append_assoc]
        exact ih (own ++ f.selections) (append _ _ start first) later
  fun_induction groupFields fields with
  | case1 => exact List.forall_mem_nil _
  | case2 f rest ih =>
      obtain ⟨own, others⟩ := List.forall_mem_cons.1 each
      refine List.forall_mem_cons.2 ⟨?_, ih fun g mem => others g (List.mem_filter.1 mem).1⟩
      exact gathered f.selections own _ fun g mem => others g (List.mem_filter.1 mem).1

/-- Selections of some depth can be flattened, and what their fields select is less deep. -/
theorem exists_flattening (typeName : String) {fragments : List FragmentDefinition} {depth : Nat}
    {selections : List Selection} (nests : FragmentDefinition.Nests fragments depth selections) :
    ∃ fields, Flattening typeName fragments selections fields
      ∧ ∀ f ∈ fields, ∃ less < depth, FragmentDefinition.Nests fragments less f.selections := by
  induction nests with
  | nil _ => exact ⟨[], .nil, List.forall_mem_nil _⟩
  | @field given? name arguments depth inner rest inside _ _ ih =>
      obtain ⟨more, others, less⟩ := ih
      exact ⟨_, .field given? name arguments inner others,
        List.forall_mem_cons.2 ⟨⟨depth, Nat.lt_succ_self depth, inside⟩, less⟩⟩
  | @spread name f depth rest found _ _ ihInner ih =>
      obtain ⟨inner, inside, lessInner⟩ := ihInner
      obtain ⟨more, others, less⟩ := ih
      by_cases fits : f.condition = typeName
      · exact ⟨inner ++ more, .spread found fits inside others,
          List.forall_mem_append.2 ⟨lessInner, less⟩⟩
      · exact ⟨more, .otherSpread found fits others, less⟩
  | @inlined condition? depth inner rest _ _ ihInner ih =>
      obtain ⟨inner, inside, lessInner⟩ := ihInner
      obtain ⟨more, others, less⟩ := ih
      by_cases fits : condition? = none ∨ condition? = some typeName
      · exact ⟨inner ++ more, .inlined fits inside others,
          List.forall_mem_append.2 ⟨lessInner, less⟩⟩
      · cases condition? with
        | none => exact absurd (.inl rfl) fits
        | some condition =>
            have other : condition ≠ typeName := fun equal =>
              fits (.inr (congrArg some equal))
            exact ⟨more, .otherInlined other others, less⟩

/-- Selections of some depth have an expansion. -/
theorem exists_expansion (index : Index) {fragments : List FragmentDefinition} {depth : Nat}
    {selections : List Selection} (nests : FragmentDefinition.Nests fragments depth selections)
    (typeName : String) : ∃ expanded, Expansion index fragments typeName selections expanded := by
  induction depth using Nat.strongRecOn generalizing selections typeName with
  | ind depth ih =>
      obtain ⟨fields, flat, less⟩ := exists_flattening typeName nests
      have grouped : ∀ f ∈ groupFields fields,
          ∃ less < depth, FragmentDefinition.Nests fragments less f.selections := by
        refine forall_mem_groupFields (motive := fun inner =>
          ∃ less < depth, FragmentDefinition.Nests fragments less inner) ?_ less
        intro first second front back
        obtain ⟨m, lower, front⟩ := front
        obtain ⟨n, lower', back⟩ := back
        exact ⟨max m n, Nat.max_lt.2 ⟨lower, lower'⟩,
          (front.mono (Nat.le_max_left m n)).append (back.mono (Nat.le_max_right m n))⟩
      have each : ∀ f, ∃ inner, f ∈ groupFields fields →
          (∃ type, objectType? index typeName f = some type
            ∧ Expansion index fragments type f.selections inner)
          ∨ (objectType? index typeName f = none ∧ inner = f.selections) := by
        intro f
        by_cases mem : f ∈ groupFields fields
        · cases typed : objectType? index typeName f with
          | none => exact ⟨f.selections, fun _ => .inr ⟨rfl, rfl⟩⟩
          | some type =>
              obtain ⟨lower, lt, shallower⟩ := grouped f mem
              obtain ⟨inner, expands⟩ := ih lower lt shallower type
              exact ⟨inner, fun _ => .inl ⟨type, rfl, expands⟩⟩
        · exact ⟨[], fun inside => absurd inside mem⟩
      choose inner expands using each
      exact ⟨_, .of_grouped flat rfl inner expands rfl⟩

/-- Selections have one expansion at most. -/
theorem Expansion.unique {index : Index} {fragments : List FragmentDefinition}
    (acyclic : FragmentDefinition.AreAcyclic fragments) {typeName : String}
    {selections expanded other : List Selection}
    (first : Expansion index fragments typeName selections expanded)
    (second : Expansion index fragments typeName selections other) : expanded = other := by
  induction first generalizing other with
  | @mk typeName selections fields inner flat _ scalars ih =>
      obtain @⟨_, _, fields', inner', flat', objects', scalars'⟩ := second
      have same : fields = fields' := by
        have collected := flat.collectFields_eq acyclic.areGrounded
        rw [flat'.collectFields_eq acyclic.areGrounded] at collected
        exact (Except.ok.inj collected).symm
      subst same
      refine List.map_congr_left fun f mem => congrArg (selecting f) ?_
      cases typed : objectType? index typeName f with
      | none => rw [scalars f mem typed, scalars' f mem typed]
      | some type => exact ih f mem type typed (objects' f mem type typed)

/-! ## An expansion resolves like the selection -/

/-- Fields of one response key each are grouped already. -/
theorem groupFields_of_nodup {fields : List Field}
    (distinct : (fields.map (·.responseKey)).Nodup) : groupFields fields = fields := by
  fun_induction groupFields fields with
  | case1 => rfl
  | case2 f rest ih =>
      rw [List.map_cons, List.nodup_cons] at distinct
      have apart : ∀ g ∈ rest, g.responseKey ≠ f.responseKey := fun g mem same =>
        distinct.1 (List.mem_map.2 ⟨g, mem, same⟩)
      have others : otherFields f rest = rest :=
        List.filter_eq_self.2 fun g mem => by simpa using apart g mem
      have none : rest.filter (fun g => f.responseKey == g.responseKey) = [] :=
        List.filter_eq_nil_iff.2 fun g mem => by simpa using Ne.symm (apart g mem)
      rw [others] at ih ⊢
      rw [ih distinct.2, absorb, none, List.flatMap_nil, List.append_nil]

theorem collectFields_selecting {typeName : String} {fragments : List FragmentDefinition}
    (inner : Field → List Selection) (fields : List Field) :
    collectFields typeName fragments (fields.map fun f => selecting f (inner f))
      = .ok (fields.map fun f => { f with selections := inner f }) := by
  induction fields with
  | nil => exact collectFields_nil
  | cons f fields ih =>
      rw [List.map_cons, collectFields_cons, selecting, collectFields_field, ih]
      rfl

/-- An expansion resolves to the entries of the selections that it expands. -/
theorem Expansion.resolve_eq {ctx : Context}
    (acyclic : FragmentDefinition.AreAcyclic ctx.fragments) {typeName : String}
    {selections expanded : List Selection}
    (expands : Expansion ctx.index ctx.fragments typeName selections expanded) (levels : Nat) :
    resolve ctx levels typeName expanded = resolve ctx levels typeName selections := by
  induction expands generalizing levels with
  | @mk typeName selections fields inner flat _ scalars ih =>
      cases levels with
      | zero => rfl
      | succ levels =>
          have distinct : (((groupFields fields).map fun f =>
              { f with selections := inner f }).map (·.responseKey)).Nodup := by
            rw [List.map_map]
            exact nodup_responseKeys fields
          unfold resolve
          rw [flat.collectFields_eq acyclic.areGrounded, collectFields_selecting]
          simp only [mapError_ok, ok_bind]
          rw [groupFields_of_nodup distinct, List.mapM_map]
          refine mapM_congr fun f mem => resolveField_congr fun d looked object named => ?_
          have typed : objectType? ctx.index typeName f = some d.graphType := by
            simp [objectType?, named, looked, object]
          exact ih f mem _ typed levels

/-! ## What is planned from a selection -/

section Plan

variable {ctx : Context} {root : Root} {field : Field} {selections : List Selection}

theorem projectRoot_congr
    (same : ∀ frame b, projectSelection ctx ctx.config.maxDepth root.returnType root.path frame
        selections b
      = projectSelection ctx ctx.config.maxDepth root.returnType root.path frame
        field.selections b) (b : Builder) :
    projectRoot ctx root { field with selections := selections } b
      = projectRoot ctx root field b := by
  unfold projectRoot
  dsimp only
  rw [same]

theorem projectWritten_congr (empty : selections.isEmpty = field.selections.isEmpty)
    (same : ∀ frame b, projectSelection ctx ctx.config.maxDepth root.returnType root.path frame
        selections b
      = projectSelection ctx ctx.config.maxDepth root.returnType root.path frame
        field.selections b) (b : Builder) :
    projectWritten ctx root { field with selections := selections } b
      = projectWritten ctx root field b := by
  unfold projectWritten
  dsimp only
  rw [same, empty]

/-- A plan knows of a selection whether it is empty and what it projects. -/
theorem planRoot_congr (empty : selections.isEmpty = field.selections.isEmpty)
    (same : ∀ frame b, projectSelection ctx ctx.config.maxDepth root.returnType root.path frame
        selections b
      = projectSelection ctx ctx.config.maxDepth root.returnType root.path frame
        field.selections b) :
    Compiler.planRoot ctx root { field with selections := selections }
      = Compiler.planRoot ctx root field :=
  (planRoot_related (fun _ => rfl) rfl empty (fun start _ => (projectRoot_congr same start).symm)
    fun start _ => (projectWritten_congr empty same start).symm).symm

end Plan

/-- Fragments are transparent: if none of them reaches itself, the selections of a root field have
one expansion, as long as all fragments are known that they reach, and compiling the field with its
expansion comes to the same as compiling the field. -/
theorem compileRoot_expansion (ctx : Context) (root : Root) (field : Field)
    (acyclic : FragmentDefinition.AreAcyclic ctx.fragments) :
    ((∀ name, FragmentDefinition.Reaches ctx.fragments field.selections name →
        (FragmentDefinition.find? ctx.fragments name).isSome = true) →
      ∃ expanded, Expansion ctx.index ctx.fragments root.returnType field.selections expanded)
    ∧ ∀ expanded, Expansion ctx.index ctx.fragments root.returnType field.selections expanded →
        (∀ other, Expansion ctx.index ctx.fragments root.returnType field.selections other →
          other = expanded)
        ∧ (expanded ≠ [] →
          Compiler.compileRoot ctx root { field with selections := expanded }
            = Compiler.compileRoot ctx root field) := by
  constructor
  · intro known
    obtain ⟨depth, nests⟩ := acyclic.exists_nests field.selections known
    exact exists_expansion ctx.index nests root.returnType
  · intro expanded expands
    refine ⟨fun other expands' => expands'.unique acyclic expands, fun nonempty => ?_⟩
    have empty : expanded.isEmpty = field.selections.isEmpty := by
      rw [List.isEmpty_eq_false_iff.2 nonempty,
        List.isEmpty_eq_false_iff.2 (expands.ne_nil nonempty)]
    unfold Compiler.compileRoot
    rw [planRoot_congr empty fun frame b => ?_]
    rw [projectSelection_eq ctx _ _ _ frame [] expanded, expands.resolve_eq acyclic,
      ← projectSelection_eq ctx _ _ _ frame []]

/-- Persons with friends and pets. -/
def keepersIndex : Index := ⟨⟨[
  ⟨"Person", .object, [], [
    ⟨"name", ⟨"String", false, false⟩, [], []⟩,
    ⟨"friends", ⟨"Person", true, false⟩, [], [⟨"relationship", [("type", .string "knows")]⟩]⟩,
    ⟨"pets", ⟨"Pet", true, false⟩, [], [⟨"relationship", [("type", .string "keeps")]⟩]⟩]⟩,
  ⟨"Pet", .object, [], [⟨"name", ⟨"String", false, false⟩, [], []⟩]⟩]⟩⟩

theorem compileRoot_expansion_circle :
    let name : Selection := .field none "name" [] []
    let names : FragmentDefinition := ⟨"Names", "Person", [name]⟩
    let circle : FragmentDefinition :=
      ⟨"Circle", "Person",
        [.field none "friends" [] [.spread "Names", .inlined (some "Pet") [name]], .spread "Names"]⟩
    let ctx : Context := ⟨keepersIndex, {}, [circle, names]⟩
    let root : Root :=
      ⟨.query, "person", "Person", "Person", "person_Person", false, true, none, [], none, none⟩
    let field : Field := ⟨none, "person", [], [
      .spread "Circle",
      .inlined (some "Pet") [name],
      .field none "friends" [] [.field none "pets" [] [name]],
      .inlined none [.spread "Names"]]⟩
    let expanded : List Selection :=
      [.field none "friends" [] [name, .field none "pets" [] [name]], name]
    FragmentDefinition.AreAcyclic ctx.fragments
      ∧ Expansion ctx.index ctx.fragments root.returnType field.selections expanded
      ∧ (Compiler.compileRoot ctx root field).toOption.isSome = true
      ∧ Compiler.compileRoot ctx root { field with selections := expanded }
          = Compiler.compileRoot ctx root field := by
  intro name names circle ctx root field expanded
  have acyclic : FragmentDefinition.AreAcyclic ctx.fragments :=
    FragmentDefinition.areAcyclic_of_rank (fun name => if name = "Circle" then 1 else 0) (by decide)
  have pets : Expansion ctx.index ctx.fragments "Pet" [name] [name] := by
    refine .of_grouped (.field none "name" [] [] .nil) (mergeFields_eq _).symm (·.selections) ?_ rfl
    exact List.forall_mem_singleton.2 (.inr ⟨by decide +kernel, rfl⟩)
  have friends : Expansion ctx.index ctx.fragments "Person"
      [.spread "Names", .inlined (some "Pet") [name], .field none "pets" [] [name]]
      [name, .field none "pets" [] [name]] := by
    refine .of_grouped (.spread rfl rfl (.field none "name" [] [] .nil)
      (.otherInlined (by decide) (.field none "pets" [] [name] .nil))) (mergeFields_eq _).symm
      (·.selections) (List.forall_mem_cons.2 ⟨?_, List.forall_mem_singleton.2 ?_⟩) rfl
    · exact .inr ⟨by decide +kernel, rfl⟩
    · exact .inl ⟨"Pet", by decide +kernel, pets⟩
  have expands : Expansion ctx.index ctx.fragments root.returnType field.selections expanded := by
    have own : Flattening "Person" ctx.fragments [.spread "Names"]
        ([⟨none, "name", [], []⟩] ++ []) :=
      .spread rfl rfl (.field none "name" [] [] .nil) .nil
    refine .of_grouped (.spread rfl rfl (.field none "friends" [] _ own)
      (.otherInlined (by decide) (.field none "friends" [] _ (.inlined (.inl rfl) own .nil))))
      (mergeFields_eq _).symm
      (fun f => if f.name = "friends" then [name, .field none "pets" [] [name]] else f.selections)
      (List.forall_mem_cons.2 ⟨?_, List.forall_mem_singleton.2 ?_⟩) rfl
    · exact .inl ⟨"Person", by decide +kernel, friends⟩
    · exact .inr ⟨by decide +kernel, rfl⟩
  exact ⟨acyclic, expands, by decide +kernel,
    ((compileRoot_expansion ctx root field acyclic).2 expanded expands).2 (List.cons_ne_nil _ _)⟩

end GraphBridge.Compile
