import GraphBridge.Proofs.Extensions
import GraphBridge.Proofs.Reshaping
import GraphBridge.Proofs.RootFields

/-!
# Types by name

Of several types of one name a document finds the first and an index the last. Extensions are merged
into the first. So the two look-ups agree on a name that is defined at most once, and then all that
extensions add to a type is seen by the look-ups of fields, roots, labels and aliases. On a name
that is defined more often the index finds the last definition as it was written, and what
extensions add to the name is lost.
-/

namespace GraphBridge.Schema

/-! ## The definitions of a name -/

/-- The types of a name as they are defined, in order. -/
def definedAs (definitions : List Definition) (name : String) : List TypeDefinition :=
  (definitions.filterMap Definition.baseType?).filter fun t => t.name == name

/-- The extensions of a name, in order. -/
def extensionsOf (definitions : List Definition) (name : String) : List TypeDefinition :=
  (definitions.filterMap Definition.extension?).filter fun e => e.name == name

/-- Of the types of a name the first has all extensions of that name, and the others none. -/
theorem filter_extended (types extensions : List TypeDefinition) (name : String) :
    (extended types extensions).filter (fun t => t.name == name)
      = ((types.filter fun t => t.name == name).head?.map
          (·.extendAll (extensions.filter fun e => e.name == name))).toList
        ++ (types.filter fun t => t.name == name).tail := by
  induction types generalizing extensions with
  | nil => rfl
  | cons t rest ih =>
      rw [extended_cons, List.filter_cons, List.filter_cons, TypeDefinition.name_extendAll, ih,
        List.filter_filter, filter_apart]
      by_cases same : t.name = name
      · rw [if_pos (beq_iff_eq.2 same), if_pos (beq_iff_eq.2 same), if_pos same.symm, same]
        cases rest.filter fun t => t.name == name with
        | nil => rfl
        | cons first more => exact congrArg _ (congrArg (· :: more) first.extendAll_nil)
      · rw [if_neg (mt beq_iff_eq.1 same), if_neg (mt beq_iff_eq.1 same), if_neg (Ne.symm same)]

section Made

variable {definitions : List Definition} {document : Document}

/-- The types of the document of definitions. -/
theorem types_of_ofDefinitions (made : Document.ofDefinitions definitions = .ok document) :
    (definitions.filterMap Definition.extension?).map (·.name)
        ⊆ (definitions.filterMap Definition.baseType?).map (·.name)
      ∧ document.types = extended (definitions.filterMap Definition.baseType?)
          (definitions.filterMap Definition.extension?) := by
  unfold Document.ofDefinitions at made
  split at made
  · cases made
  · obtain ⟨types, merged, rfl⟩ := map_eq_ok_iff.1 made
    exact mergeExtensions_eq_ok_iff.1 merged

/-- What is extended is defined. -/
theorem definedAs_ne_nil (made : Document.ofDefinitions definitions = .ok document)
    {name : String} {e : TypeDefinition} (mem : e ∈ extensionsOf definitions name) :
    definedAs definitions name ≠ [] := by
  obtain ⟨extension, named⟩ := List.mem_filter.1 mem
  obtain ⟨t, type, same⟩ :=
    List.mem_map.1 ((types_of_ofDefinitions made).1 (List.mem_map_of_mem extension))
  exact List.ne_nil_of_mem (List.mem_filter.2 ⟨type, by rw [same]; exact named⟩)

/-- The first type of a name has all that the extensions of the name add. -/
theorem type?_of_ofDefinitions (made : Document.ofDefinitions definitions = .ok document)
    (name : String) :
    document.type? name
      = (definedAs definitions name).head?.map (·.extendAll (extensionsOf definitions name)) := by
  rw [Document.type?, ← List.head?_filter, (types_of_ofDefinitions made).2, filter_extended]
  unfold definedAs extensionsOf
  cases (definitions.filterMap Definition.baseType?).filter fun t => t.name == name <;> rfl

/-- The last type of a name is the only one, or it is as it was defined. -/
theorem index_type?_of_ofDefinitions {index : Index}
    (made : Document.ofDefinitions definitions = .ok index.document) (name : String) :
    index.type? name
      = if 1 < (definedAs definitions name).length then (definedAs definitions name).getLast?
        else index.document.type? name := by
  rw [type?_of_ofDefinitions made, Index.type?, (types_of_ofDefinitions made).2, filter_extended]
  unfold definedAs extensionsOf
  cases (definitions.filterMap Definition.baseType?).filter fun t => t.name == name with
  | nil => rfl
  | cons first more =>
      cases more with
      | nil => rfl
      | cons second more => rw [if_pos (by simp)]; rfl

end Made

/-! ## What extensions add -/

/-- What an extension adds to a type is seen by every look-up of that type: its fields by the
look-ups of fields, roots and aliases, its directives by that of the label. A field comes behind
those of the same name that the type has already. -/
structure Index.Shows (index : Index) (t e : TypeDefinition) : Prop where
  found : index.type? e.name = some t
  fields : e.fields ⊆ t.fields
  directives : e.directives ⊆ t.directives
  field : ∀ f ∈ e.fields, ∃ g, t.field? f.name = some g
    ∧ index.field e.name f.name = index.describe t g
  root : ∀ f ∈ e.fields, ∀ kind : OperationKind, kind.rootTypeName = e.name →
    ∃ g, t.field? f.name = some g
      ∧ (index.Prevails kind f.name → index.root f.name = index.rootOf kind t g)
  label : index.label e.name = .ok ((storedName? t.directives).getD t.name)
  aliases : ∀ table, index.aliasMap e.name = .ok table → ∀ f ∈ e.fields, ∃ d,
    index.describe t f = .ok d ∧ ∀ entry ∈ Index.aliasEntry d, (table.get? entry.1).isSome = true

/-- An extension of the type that is found is seen. -/
theorem Index.shows_of_type? {index : Index} {t e : TypeDefinition}
    (found : index.type? e.name = some t) (fields : e.fields ⊆ t.fields)
    (directives : e.directives ⊆ t.directives) : index.Shows t e := by
  have required : index.requireType e.name = .ok t := by rw [requireType, found]
  have first {f : FieldDefinition} (mem : f ∈ e.fields) : ∃ g, t.field? f.name = some g :=
    Option.isSome_iff_exists.1 (List.find?_isSome.2 ⟨f, fields mem, beq_self_eq_true f.name⟩)
  refine ⟨found, fields, directives, fun f mem => ?_, fun f mem kind root => ?_, ?_,
    fun table made f mem => ?_⟩
  · obtain ⟨g, known⟩ := first mem
    refine ⟨g, known, ?_⟩
    simp only [Index.field, required, known, bind, Except.bind]
  · obtain ⟨g, known⟩ := first mem
    refine ⟨g, known, root_of_prevails ?_⟩
    simp only [rootField?, root, found, known, bind, Option.bind, pure]
  · rw [label, required]
    rfl
  · obtain ⟨t', required', made⟩ := Compile.bind_eq_ok made
    obtain rfl := Except.ok.inj (required.symm.trans required')
    obtain ⟨descriptors, described, made⟩ := Compile.bind_eq_ok made
    obtain rfl := Except.ok.inj made
    obtain ⟨d, among, looked⟩ := Compile.exists_mem_of_mapM described (fields mem)
    exact ⟨d, looked, fun entry entered =>
      Table.isSome_get?_ofList (List.mem_flatMap.2 ⟨d, among, entered⟩)⟩

/-- An extension is part of a type that it is merged into. -/
theorem TypeDefinition.subset_extendAll {base e : TypeDefinition} {extensions : List TypeDefinition}
    (mem : e ∈ extensions) :
    e.fields ⊆ (base.extendAll extensions).fields
      ∧ e.directives ⊆ (base.extendAll extensions).directives :=
  ⟨fun _ added => List.mem_append_right _ (List.mem_flatMap.2 ⟨e, mem, added⟩),
    fun _ added => List.mem_append_right _ (List.mem_flatMap.2 ⟨e, mem, added⟩)⟩

/-! ## The two look-ups -/

/-- When the look-ups of types agree. In the index of a schema text the document finds the first
definition of a name with all that the extensions of the name add to it, and the index finds the
same if and only if the name is defined at most once or the last definition happens to be equal to
that; of a name that is defined more often it finds the last definition, without extensions. Where
the two agree, what every extension adds is seen. -/
theorem Index.type?_eq_document_iff {text : String} {index : Index}
    (read : Index.ofText text = .ok index) :
    ∃ definitions rest, Schema.definitions text.toList = some (definitions, rest)
      ∧ ∀ name, let own := definedAs definitions name
        let whole := own.head?.map (·.extendAll (extensionsOf definitions name))
        index.document.type? name = whole
          ∧ (1 < own.length → index.type? name = own.getLast?)
          ∧ (index.type? name = index.document.type? name
            ↔ own.length ≤ 1 ∨ own.getLast? = whole)
          ∧ (index.type? name = index.document.type? name →
            ∀ e ∈ extensionsOf definitions name, ∃ t, index.Shows t e) := by
  obtain ⟨definitions, rest, known, made⟩ := ofText_eq_ok read
  refine ⟨definitions, rest, known, fun name => ?_⟩
  have first := type?_of_ofDefinitions made name
  have last := index_type?_of_ofDefinitions made name
  refine ⟨first, fun often => by rw [last, if_pos often], ?_, fun agree e mem => ?_⟩
  · rw [last]
    split
    · next often => rw [first, or_iff_right (Nat.not_le.2 often)]
    · next once => exact iff_of_true rfl (.inl (Nat.not_lt.1 once))
  · obtain ⟨base, more, own⟩ := List.exists_cons_of_ne_nil (definedAs_ne_nil made mem)
    obtain rfl : e.name = name := beq_iff_eq.1 (List.mem_filter.1 mem).2
    rw [own] at first
    obtain ⟨fields, directives⟩ := TypeDefinition.subset_extendAll mem
    exact ⟨_, shows_of_type? (agree.trans first) fields directives⟩

/-- A person is extended, and a town is defined twice and extended. -/
def repeatedSchema : String :=
  "extend type Person \x7bage: Int\x7d type Person \x7bname: String\x7d
    type Town \x7bname: String\x7d type Town \x7bregion: String\x7d
    extend type Town \x7bpeople: Int\x7d"

/-- The names of the fields of a type. -/
def TypeDefinition.fieldNames (t : TypeDefinition) : List String :=
  t.fields.map (·.name)

theorem Index.type?_eq_document_iff_repeated :
    ∃ index, Index.ofText repeatedSchema = .ok index
      ∧ (∃ t e, index.Shows t e ∧ e.name = "Person" ∧ e.fieldNames = ["age"])
      ∧ index.type? "Town" ≠ index.document.type? "Town" := by
  have shape : ((Index.ofText repeatedSchema).toOption.any fun _ =>
      (Schema.definitions repeatedSchema.toList).any fun parsed =>
        ((definedAs parsed.1 "Person").length ≤ 1
          && (extensionsOf parsed.1 "Person").any fun e => e.fieldNames == ["age"])
        && let own := definedAs parsed.1 "Town"
          let whole := own.head?.map (·.extendAll (extensionsOf parsed.1 "Town"))
          1 < own.length && own.getLast?.map (·.fieldNames) != whole.map (·.fieldNames))
      = true := by
    decide +kernel
  obtain ⟨index, read, shape⟩ := exists_ok_of_any shape
  obtain ⟨definitions, rest, known, looks⟩ := type?_eq_document_iff read
  rw [known, Option.any_some, Bool.and_eq_true, Bool.and_eq_true, Bool.and_eq_true, bne_iff_ne]
    at shape
  obtain ⟨⟨once, extended⟩, often, apart⟩ := shape
  obtain ⟨e, mem, added⟩ := List.any_eq_true.1 extended
  obtain ⟨-, -, agree, seen⟩ := looks "Person"
  obtain ⟨t, shows⟩ := seen (agree.2 (.inl (of_decide_eq_true once))) e mem
  obtain ⟨-, -, agree', -⟩ := looks "Town"
  refine ⟨index, read, ⟨t, e, shows, beq_iff_eq.1 (List.mem_filter.1 mem).2, beq_iff_eq.1 added⟩,
    fun same => ?_⟩
  rcases agree'.1 same with few | equal
  · exact Nat.not_le.2 (of_decide_eq_true often) few
  · exact apart (congrArg _ equal)

/-- What is added to a type that is defined twice is in the document, but no look-up finds it. -/
theorem extension_lost :
    ∃ index, Index.ofText repeatedSchema = .ok index
      ∧ (index.document.type? "Town").map (·.fieldNames) = some ["name", "people"]
      ∧ (index.type? "Town").map (·.fieldNames) = some ["region"]
      ∧ ∀ d, index.field "Town" "people" ≠ .ok d := by
  have shape : ((Index.ofText repeatedSchema).toOption.any fun index =>
      ((index.document.type? "Town").map (·.fieldNames) == some ["name", "people"]
        && (index.type? "Town").map (·.fieldNames) == some ["region"])
      && (index.field "Town" "people").toOption.isNone) = true := by
    decide +kernel
  obtain ⟨index, read, shape⟩ := exists_ok_of_any shape
  rw [Bool.and_eq_true, Bool.and_eq_true, beq_iff_eq, beq_iff_eq] at shape
  obtain ⟨⟨first, last⟩, missing⟩ := shape
  refine ⟨index, read, first, last, fun d found => ?_⟩
  rw [found] at missing
  cases missing

end GraphBridge.Schema
