import GraphBridge.Proofs.Outcome
import GraphBridge.Schema.Definition

/-!
# Extensions of types

A schema text may extend a type before it defines it, and other definitions may stand in between.
All definitions of types are taken first, in their order; then the extensions are merged in theirs,
each into the first type of its name. So a document depends only on the order among the types and
on the order among the extensions, and making it fails exactly if something is extended that is not
defined.
-/

namespace GraphBridge.Schema

namespace TypeDefinition

/-- A type with the fields and directives of extensions behind its own. -/
def extendAll (base : TypeDefinition) (extensions : List TypeDefinition) : TypeDefinition :=
  { base with
    fields := base.fields ++ extensions.flatMap (·.fields)
    directives := base.directives ++ extensions.flatMap (·.directives) }

variable (base : TypeDefinition)

@[simp] theorem extendAll_nil : base.extendAll [] = base := by
  simp [extendAll]

@[simp] theorem name_extendAll (extensions : List TypeDefinition) :
    (base.extendAll extensions).name = base.name := rfl

/-- One more extension comes behind those before. -/
theorem extend_extendAll (extensions : List TypeDefinition) (extension : TypeDefinition) :
    (base.extendAll extensions).extend extension = base.extendAll (extensions ++ [extension]) := by
  simp [extendAll, extend]

end TypeDefinition

/-! ## Types with their extensions -/

/-- Types with what extensions add to them. The first type of a name takes all extensions of that
name, in their order; a type whose name has been defined before is left as it is. -/
def extended (types extensions : List TypeDefinition) : List TypeDefinition :=
  types.mapIdx fun place t =>
    if t.name ∈ (types.take place).map (·.name) then t
    else t.extendAll (extensions.filter fun e => e.name == t.name)

/-- What has one name and not another. -/
theorem filter_apart (extensions : List TypeDefinition) (name other : String) :
    (extensions.filter fun e => e.name == name && e.name != other)
      = if name = other then [] else extensions.filter fun e => e.name == name := by
  split
  · next same =>
      rw [List.filter_eq_nil_iff]
      rintro e -
      simp [same]
  · next apart =>
      refine List.filter_congr fun e _ => ?_
      by_cases own : e.name = name
      · simp [own, apart]
      · simp [own]

/-- The first type takes the extensions of its name away from the types behind it. -/
theorem extended_cons (t : TypeDefinition) (rest extensions : List TypeDefinition) :
    extended (t :: rest) extensions
      = t.extendAll (extensions.filter fun e => e.name == t.name)
        :: extended rest (extensions.filter fun e => e.name != t.name) := by
  unfold extended
  rw [List.mapIdx_cons]
  congr 1
  refine List.mapIdx_eq_mapIdx_iff.2 fun place inside => ?_
  simp only [List.take_succ_cons, List.map_cons, List.mem_cons, List.filter_filter]
  rw [filter_apart]
  by_cases same : rest[place].name = t.name
  · -- a later type of the same name finds no extension left
    rw [if_pos (.inl same), if_pos same, TypeDefinition.extendAll_nil, ite_self]
  · simp only [same, false_or, if_false]

/-- Without extensions types are as they were. -/
theorem extended_of_nil (types : List TypeDefinition) : extended types [] = types := by
  induction types with
  | nil => rfl
  | cons t rest ih => rw [extended_cons, List.filter_nil, List.filter_nil, ih, t.extendAll_nil]

/-! ## Merging -/

/-- Merging one more extension into types that have taken some: it goes behind those, or it extends
what is not defined. -/
theorem mergeExtension_extended (types done : List TypeDefinition) (extension : TypeDefinition) :
    mergeExtension extension (extended types done)
      = if extension.name ∈ types.map (·.name) then .ok (extended types (done ++ [extension]))
        else .error (.undefinedExtension extension.name) := by
  induction types generalizing done with
  | nil => rfl
  | cons t rest ih =>
      rw [extended_cons, extended_cons, mergeExtension, TypeDefinition.name_extendAll,
        List.filter_append, List.filter_append]
      by_cases same : t.name = extension.name
      · have taken : ([extension].filter fun e => e.name == t.name) = [extension] := by
          simp [same]
        have left : ([extension].filter fun e => e.name != t.name) = [] := by
          simp [same]
        have known : extension.name ∈ (t :: rest).map (·.name) := same ▸ List.mem_cons_self
        rw [if_pos (beq_iff_eq.2 same), if_pos known, taken, left, List.append_nil,
          TypeDefinition.extend_extendAll]
      · have passed : ([extension].filter fun e => e.name == t.name) = [] := by
          simp [Ne.symm same]
        have left : ([extension].filter fun e => e.name != t.name) = [extension] := by
          simp [Ne.symm same]
        rw [if_neg (mt beq_iff_eq.1 same), ih, passed, left, List.append_nil]
        simp only [List.map_cons, List.mem_cons, Ne.symm same, false_or]
        split <;> rfl

/-- The name of the first extension of what is not defined. -/
def IsFirstUndefined (defined extensions : List String) (name : String) : Prop :=
  ∃ before after, extensions = before ++ name :: after ∧ before ⊆ defined ∧ name ∉ defined

/-- Everything that is extended is defined, or there is a first extension of what is not. -/
theorem subset_or_isFirstUndefined (defined extensions : List String) :
    extensions ⊆ defined ∨ ∃ name, IsFirstUndefined defined extensions name := by
  induction extensions with
  | nil => exact .inl (List.nil_subset _)
  | cons name rest ih =>
      by_cases known : name ∈ defined
      · refine ih.imp (fun others => List.cons_subset.2 ⟨known, others⟩) ?_
        rintro ⟨first, before, after, rfl, others, unknown⟩
        exact ⟨first, name :: before, after, rfl, List.cons_subset.2 ⟨known, others⟩, unknown⟩
      · exact .inr ⟨name, [], rest, rfl, List.nil_subset _, known⟩

section Merge

variable {types extensions : List TypeDefinition}

/-- Merging extensions into types that have taken some before: all of them go behind those. -/
theorem mergeExtensions_of_subset (done : List TypeDefinition)
    (defined : extensions.map (·.name) ⊆ types.map (·.name)) :
    mergeExtensions (extended types done) extensions
      = .ok (extended types (done ++ extensions)) := by
  induction extensions generalizing done with
  | nil => rw [mergeExtensions, List.append_nil]
  | cons extension rest ih =>
      obtain ⟨first, others⟩ := List.cons_subset.1 defined
      rw [mergeExtensions, mergeExtension_extended, if_pos first]
      dsimp only
      rw [ih _ others, List.append_assoc, List.singleton_append]

/-- Merging stops at the first extension of what is not defined. -/
theorem mergeExtensions_of_isFirstUndefined (done : List TypeDefinition) {name : String}
    (first : IsFirstUndefined (types.map (·.name)) (extensions.map (·.name)) name) :
    mergeExtensions (extended types done) extensions = .error (.undefinedExtension name) := by
  obtain ⟨before, after, names, defined, unknown⟩ := first
  induction extensions generalizing before done with
  | nil => simp at names
  | cons extension rest ih =>
      rw [List.map_cons] at names
      rw [mergeExtensions, mergeExtension_extended]
      cases before with
      | nil =>
          obtain ⟨rfl, -⟩ := List.cons.inj names
          rw [if_neg unknown]
      | cons known before =>
          obtain ⟨rfl, later⟩ := List.cons.inj names
          obtain ⟨own, others⟩ := List.cons_subset.1 defined
          rw [if_pos own]
          exact ih _ before later others

/-- When merging extensions succeeds, and with which types. -/
theorem mergeExtensions_eq_ok_iff {merged : List TypeDefinition} :
    mergeExtensions types extensions = .ok merged
      ↔ extensions.map (·.name) ⊆ types.map (·.name) ∧ merged = extended types extensions := by
  have start := extended_of_nil types
  rcases subset_or_isFirstUndefined (types.map (·.name)) (extensions.map (·.name))
    with defined | ⟨name, first⟩
  · have done := mergeExtensions_of_subset [] defined
    rw [start, List.nil_append] at done
    rw [done, Except.ok.injEq, eq_comm]
    exact ⟨fun same => ⟨defined, same⟩, And.right⟩
  · have stopped := mergeExtensions_of_isFirstUndefined [] first
    rw [start] at stopped
    obtain ⟨before, after, names, -, unknown⟩ := first
    refine iff_of_false (fun done => by rw [stopped] at done; cases done) fun both => ?_
    exact unknown (both.1 (names ▸ List.mem_append_right before List.mem_cons_self))

end Merge

/-! ## Texts in which extensions stand anywhere -/

/-- A list of definitions in which types and extensions stand in their two orders, with other
definitions anywhere. -/
inductive Interleaves : List TypeDefinition → List TypeDefinition → List Definition → Prop where
  | nil : Interleaves [] [] []
  | type (t : TypeDefinition) (constants : List Json) {types extensions : List TypeDefinition}
      {rest : List Definition} (later : Interleaves types extensions rest) :
      Interleaves (t :: types) extensions (.type false t constants :: rest)
  | extension (e : TypeDefinition) (constants : List Json) {types extensions : List TypeDefinition}
      {rest : List Definition} (later : Interleaves types extensions rest) :
      Interleaves types (e :: extensions) (.type true e constants :: rest)
  | schema (isExtension : Bool) (directives : List Directive) (roots : List (String × String))
      {types extensions : List TypeDefinition} {rest : List Definition}
      (later : Interleaves types extensions rest) :
      Interleaves types extensions (.schema isExtension directives roots :: rest)
  | directive (arguments : List ArgumentDefinition) {types extensions : List TypeDefinition}
      {rest : List Definition} (later : Interleaves types extensions rest) :
      Interleaves types extensions (.directive arguments :: rest)

namespace Interleaves

variable {types extensions : List TypeDefinition} {definitions : List Definition}

theorem filterMap_baseType? (interleaves : Interleaves types extensions definitions) :
    definitions.filterMap Definition.baseType? = types.map TypeDefinition.tidy := by
  induction interleaves with
  | nil => rfl
  | type t constants later ih => rw [List.filterMap_cons, ih, List.map_cons]; rfl
  | extension e constants later ih => rw [List.filterMap_cons_none rfl, ih]
  | schema isExtension directives roots later ih => rw [List.filterMap_cons_none rfl, ih]
  | directive arguments later ih => rw [List.filterMap_cons_none rfl, ih]

theorem filterMap_extension? (interleaves : Interleaves types extensions definitions) :
    definitions.filterMap Definition.extension? = extensions.map TypeDefinition.tidy := by
  induction interleaves with
  | nil => rfl
  | type t constants later ih => rw [List.filterMap_cons_none rfl, ih]
  | extension e constants later ih => rw [List.filterMap_cons, ih, List.map_cons]; rfl
  | schema isExtension directives roots later ih => rw [List.filterMap_cons_none rfl, ih]
  | directive arguments later ih => rw [List.filterMap_cons_none rfl, ih]

/-- A sound list of definitions has sound types and extensions. -/
theorem isFinite (interleaves : Interleaves types extensions definitions)
    (sound : ∀ d ∈ definitions, d.fault? = none) :
    (∀ t ∈ types, t.isFinite = true) ∧ ∀ e ∈ extensions, e.isFinite = true := by
  have own {isExtension : Bool} {t : TypeDefinition} {constants : List Json}
      (fine : (Definition.type isExtension t constants).fault? = none) : t.isFinite = true := by
    rw [Definition.fault?] at fine
    split at fine
    · next finite => exact (Bool.and_eq_true_iff.1 finite).1
    · cases fine
  induction interleaves with
  | nil => exact ⟨List.forall_mem_nil _, List.forall_mem_nil _⟩
  | type t constants later ih =>
      obtain ⟨first, others⟩ := List.forall_mem_cons.1 sound
      exact ⟨List.forall_mem_cons.2 ⟨own first, (ih others).1⟩, (ih others).2⟩
  | extension e constants later ih =>
      obtain ⟨first, others⟩ := List.forall_mem_cons.1 sound
      exact ⟨(ih others).1, List.forall_mem_cons.2 ⟨own first, (ih others).2⟩⟩
  | schema isExtension directives roots later ih => exact ih (List.forall_mem_cons.1 sound).2
  | directive arguments later ih => exact ih (List.forall_mem_cons.1 sound).2

/-- The document of sound definitions. -/
theorem ofDefinitions_eq (interleaves : Interleaves types extensions definitions)
    (sound : ∀ d ∈ definitions, d.fault? = none) :
    Document.ofDefinitions definitions
      = (mergeExtensions (types.map TypeDefinition.tidy)
          (extensions.map TypeDefinition.tidy)).map Document.mk := by
  unfold Document.ofDefinitions
  rw [List.findSome?_eq_none_iff.2 sound, interleaves.filterMap_baseType?,
    interleaves.filterMap_extension?]

end Interleaves

end GraphBridge.Schema
