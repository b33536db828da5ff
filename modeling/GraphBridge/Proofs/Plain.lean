import GraphBridge.Proofs.Emission

/-!
# Schemas without overrides

If no field of a schema has an override fragment, look-ups never give one, and so no selection
resolves to an entry that needs one, at any depth.
-/

namespace GraphBridge.Schema

/-- Whether a field stands for a query fragment. -/
def FieldDefinition.hasOverride (f : FieldDefinition) : Bool :=
  f.hasDirective "graphQuery" || f.hasDirective "cypher"

/-- A field without a fragment is not mapped to one. -/
theorem mappingOf_ne_overridden {location : String} {f : FieldDefinition} {mapping : FieldMapping}
    (plain : f.hasOverride = false) (found : mappingOf location f = .ok mapping)
    (fragment : String) : mapping ≠ .overridden fragment := by
  simp only [FieldDefinition.hasOverride, FieldDefinition.hasDirective, Bool.or_eq_false_iff,
    Option.isSome_eq_false_iff, Option.isNone_iff_eq_none] at plain
  rintro rfl
  simp only [mappingOf, plain.1, plain.2, Option.orElse_eq_orElse, Option.orElse_none] at found
  split at found
  · unfold relationshipOf at found
    split at found
    · cases found
    split at found
    · cases found
    split at found <;> cases found
  · split at found <;> cases found

namespace Index

variable {index : Index}

/-- Whether no field of the schema stands for a query fragment. -/
def isPlain (index : Index) : Bool :=
  index.document.types.all fun t => t.fields.all fun f => !f.hasOverride

theorem mem_of_type? {name : String} {t : TypeDefinition} (found : index.type? name = some t) :
    t ∈ index.document.types :=
  (List.mem_filter.1 (List.mem_of_getLast? found)).1

theorem requireType_eq_ok {name : String} {t : TypeDefinition}
    (found : index.requireType name = .ok t) : index.type? name = some t := by
  unfold requireType at found
  split at found
  · rename_i known
    rw [known, Except.ok.inj found]
  · cases found

theorem mem_of_field? {t : TypeDefinition} {name : String} {f : FieldDefinition}
    (found : t.field? name = some f) : f ∈ t.fields :=
  List.mem_of_find?_eq_some found

theorem hasOverride_of_mem (plain : index.isPlain = true) {t : TypeDefinition}
    (type : t ∈ index.document.types) {f : FieldDefinition} (field : f ∈ t.fields) :
    f.hasOverride = false := by
  have all := List.all_eq_true.1 (List.all_eq_true.1 plain t type) f field
  simpa using all

/-- A descriptor comes from the field it describes. -/
theorem describe_mapping {t : TypeDefinition} {f : FieldDefinition} {d : FieldDescriptor}
    (found : index.describe t f = .ok d) :
    mappingOf (t.name ++ "." ++ f.name) f = .ok d.mapping := by
  obtain ⟨mapping, mapped, made⟩ := Compile.bind_eq_ok found
  rw [mapped, ← Except.ok.inj made]

/-- The descriptor of a field, with the type and the field that it comes from. -/
theorem field_eq_ok {typeName fieldName : String} {d : FieldDescriptor}
    (found : index.field typeName fieldName = .ok d) :
    ∃ t f, index.type? typeName = some t ∧ t.field? fieldName = some f
      ∧ index.describe t f = .ok d := by
  obtain ⟨t, known, found⟩ := Compile.bind_eq_ok found
  split at found
  · rename_i f declared
    exact ⟨t, f, requireType_eq_ok known, declared, found⟩
  · cases found

theorem field_ne_overridden (plain : index.isPlain = true) {typeName fieldName : String}
    {d : FieldDescriptor} (found : index.field typeName fieldName = .ok d) (fragment : String) :
    d.mapping ≠ .overridden fragment := by
  obtain ⟨t, f, type, field, described⟩ := field_eq_ok found
  exact mappingOf_ne_overridden
    (hasOverride_of_mem plain (mem_of_type? type) (mem_of_field? field))
    (describe_mapping described) fragment

/-- A root comes from a field of a root type. -/
theorem root_eq_ok {fieldName : String} {root : Root} (found : index.root fieldName = .ok root) :
    ∃ kind t f, index.type? kind.rootTypeName = some t ∧ t.field? fieldName = some f
      ∧ index.rootOf kind t f = .ok root := by
  have field {kind : OperationKind} {t : TypeDefinition} {f : FieldDefinition}
      (declared : index.rootField? kind fieldName = some (t, f)) :
      index.type? kind.rootTypeName = some t ∧ t.field? fieldName = some f := by
    simp only [rootField?, bind, Option.bind_eq_some_iff, pure, Option.some.injEq,
      Prod.mk.injEq] at declared
    obtain ⟨t', type, f', field, rfl, rfl⟩ := declared
    exact ⟨type, field⟩
  unfold Index.root at found
  split at found
  · rename_i t f declared
    exact ⟨.query, t, f, (field declared).1, (field declared).2, found⟩
  · split at found
    · rename_i t f declared
      exact ⟨.mutation, t, f, (field declared).1, (field declared).2, found⟩
    · cases found

/-- The descriptor that a root is made of. -/
theorem rootOf_eq_ok {kind : OperationKind} {t : TypeDefinition} {f : FieldDefinition}
    {root : Root} (found : index.rootOf kind t f = .ok root) :
    ∃ d label, index.describe t f = .ok d
      ∧ (if index.isObjectType d.graphType then index.label d.graphType else .ok d.graphType)
          = .ok label
      ∧ root = { kind := kind, name := d.name, returnType := d.graphType, label := label,
                 path := d.name ++ "_" ++ d.graphType, returnsArray := d.isArray,
                 returnsObject := index.isObjectType d.graphType, fragment? := d.fragment?,
                 arguments := d.arguments,
                 idArgument? := (d.arguments.find? (·.isId)).map (·.name)
                   <|> index.identityField? d.graphType,
                 limit? := none } := by
  unfold rootOf at found
  cases described : index.describe t f with
  | error e => simp [described, bind, Except.bind] at found
  | ok d =>
      simp only [described, bind, Except.bind] at found
      split at found
      · rename_i object
        split at found
        · cases found
        rename_i label labelled
        exact ⟨d, label, rfl, by rw [if_pos object, labelled], (Except.ok.inj found).symm⟩
      · rename_i scalar
        exact ⟨d, d.graphType, rfl, by rw [if_neg scalar], (Except.ok.inj found).symm⟩

theorem root_fragment?_eq_none (plain : index.isPlain = true) {fieldName : String} {root : Root}
    (found : index.root fieldName = .ok root) : root.fragment? = none := by
  obtain ⟨kind, t, f, type, field, made⟩ := root_eq_ok found
  obtain ⟨d, label, described, -, rfl⟩ := rootOf_eq_ok made
  have mapped := mappingOf_ne_overridden
    (hasOverride_of_mem plain (mem_of_type? type) (mem_of_field? field))
    (describe_mapping described)
  dsimp only
  unfold FieldDescriptor.fragment?
  split
  · rename_i fragment overridden
    exact absurd overridden (mapped fragment)
  · rfl

end Index

end GraphBridge.Schema

namespace GraphBridge.Compile

open Operation Schema

/-- Whether a scalar field needs no override. -/
def Scalar.isPlain : Scalar → Bool
  | .override .. => false
  | _ => true

/-- Whether nodes are reached without an override. -/
def Reach.isPlain : Reach → Bool
  | .override .. => false
  | _ => true

mutual

/-- Whether an entry needs no override at any depth. -/
def Entry.isPlain : Entry → Bool
  | .scalar _ value => value.isPlain
  | .object _ reach _ entries => reach.isPlain && arePlain entries

/-- Whether entries need no override at any depth. -/
def arePlain : List Entry → Bool
  | [] => true
  | e :: rest => e.isPlain && arePlain rest

end

theorem arePlain_eq_all (entries : List Entry) : arePlain entries = entries.all Entry.isPlain := by
  induction entries with
  | nil => rfl
  | cons e rest ih => rw [arePlain, ih, List.all_cons]

theorem resolveScalar_isPlain {d : FieldDescriptor} {field : Field} {value : Scalar}
    (plain : ∀ fragment, d.mapping ≠ .overridden fragment)
    (found : resolveScalar d field = .ok value) : value.isPlain = true := by
  obtain rfl | rfl | ⟨text, fragment, parts, overridden, -⟩ := resolveScalar_cases found
  · rfl
  · rfl
  · exact absurd overridden (plain text)

theorem resolveReach_isPlain {ctx : Context} {d : FieldDescriptor} {field : Field} {reach : Reach}
    (plain : ∀ fragment, d.mapping ≠ .overridden fragment)
    (found : resolveReach ctx d field = .ok reach) : reach.isPlain = true := by
  obtain ⟨edgeType, direction, label, supplied, -, -, -, rfl⟩ | ⟨text, fragment, parts, returned,
    overridden, -⟩ := resolveReach_cases found
  · rfl
  · exact absurd overridden (plain text)

/-- A schema without overrides resolves to entries without overrides. -/
theorem resolve_arePlain {ctx : Context} (plain : ctx.index.isPlain = true) {levels : Nat}
    {typeName : String} {selections : List Selection} {entries : List Entry}
    (found : resolve ctx levels typeName selections = .ok entries) : arePlain entries = true := by
  induction levels generalizing typeName selections entries with
  | zero => cases found
  | succ levels ih =>
      obtain ⟨fields, -, found⟩ := resolve_eq_ok found
      rw [arePlain_eq_all, List.all_eq_true]
      refine forall_mem_of_mapM ?_ found
      intro field _ e resolved
      obtain rfl | ⟨d, looked, ⟨value, valued, rfl⟩ | ⟨reach, inner, reached, selected, rfl⟩⟩ :=
        resolveField_cases resolved
      · rfl
      · exact resolveScalar_isPlain (Index.field_ne_overridden plain looked) valued
      · rw [Entry.isPlain, ih selected,
          resolveReach_isPlain (Index.field_ne_overridden plain looked) reached]
        rfl

end GraphBridge.Compile
