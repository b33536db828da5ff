import GraphBridge.Compile.Write
import GraphBridge.Proofs.Masking

/-!
# Schemas with other override texts

The text of an override is not looked at before it is compiled. So a schema whose override texts are
changed answers every look-up as before, with the changed texts in the mappings of fields and in
roots.
-/

namespace GraphBridge.Schema

variable (change : String → String)

/-! ## Definitions -/

/-- A directive with the texts that it may give as an override changed. -/
def Directive.mapOverride (d : Directive) : Directive :=
  if d.name == "graphQuery" || d.name == "cypher" then
    { d with arguments := d.arguments.mapValues (Json.mapStrings change) }
  else d

/-- A field with its override text changed. -/
def FieldDefinition.mapOverride (f : FieldDefinition) : FieldDefinition :=
  { f with directives := f.directives.map (Directive.mapOverride change) }

/-- A type with the override texts of its fields changed. -/
def TypeDefinition.mapOverrides (t : TypeDefinition) : TypeDefinition :=
  { t with fields := t.fields.map (FieldDefinition.mapOverride change) }

/-- A schema with its override texts changed. -/
def Index.mapOverrides (index : Index) : Index :=
  ⟨⟨index.document.types.map (TypeDefinition.mapOverrides change)⟩⟩

/-- A mapping with its override text changed. -/
def FieldMapping.mapOverride : FieldMapping → FieldMapping
  | .overridden text => .overridden (change text)
  | mapping => mapping

/-- A descriptor with its override text changed. -/
def FieldDescriptor.mapOverride (d : FieldDescriptor) : FieldDescriptor :=
  { d with mapping := d.mapping.mapOverride change }

/-- A root with its override text changed. -/
def Root.mapOverride (root : Root) : Root :=
  { root with fragment? := root.fragment?.map change }

/-! ## Directives -/

namespace Directive

theorem name_mapOverride (d : Directive) : (d.mapOverride change).name = d.name := by
  unfold mapOverride
  split <;> rfl

theorem string?_mapStrings (value : Json) :
    (value.mapStrings change).string? = value.string?.map change := by
  cases value <;> rfl

/-- Of a directive that gives an override, the text is changed. -/
theorem text_mapOverride {d : Directive} (override : d.name = "graphQuery" ∨ d.name = "cypher")
    (name : String) :
    ((d.mapOverride change).stringArgument? name <|> (d.mapOverride change).firstString?)
      = (d.stringArgument? name <|> d.firstString?).map change := by
  have known : (d.name == "graphQuery" || d.name == "cypher") = true := by
    rcases override with same | same <;> rw [same] <;> decide
  have argument : (d.mapOverride change).stringArgument? name
      = (d.stringArgument? name).map change := by
    rw [mapOverride, if_pos known, stringArgument?, stringArgument?, Table.get?_mapValues]
    cases d.arguments.get? name with
    | none => rfl
    | some value => exact string?_mapStrings change value
  have first : (d.mapOverride change).firstString? = d.firstString?.map change := by
    rw [mapOverride, if_pos known, firstString?, firstString?, Table.mapValues,
      List.findSome?_map, List.map_findSome?]
    congr 1
    funext entry
    exact string?_mapStrings change entry.2
  rw [argument, first]
  cases d.stringArgument? name <;> rfl

/-- Any other directive stays as it is. -/
theorem mapOverride_of_ne {d : Directive} (query : d.name ≠ "graphQuery")
    (cypher : d.name ≠ "cypher") : d.mapOverride change = d := by
  rw [mapOverride, if_neg (by simp [query, cypher])]

theorem find?_mapOverride (directives : List Directive) (name : String) :
    find? (directives.map (mapOverride change)) name
      = (find? directives name).map (mapOverride change) := by
  rw [find?, find?, List.find?_map]
  congr 2
  funext d
  exact congrArg (· == name) (d.name_mapOverride change)

/-- Directives of a name that gives no override are found as before. -/
theorem find?_mapOverride_of_ne {name : String} (query : name ≠ "graphQuery")
    (cypher : name ≠ "cypher") (directives : List Directive) :
    find? (directives.map (mapOverride change)) name = find? directives name := by
  rw [find?_mapOverride]
  cases found : find? directives name with
  | none => rfl
  | some d =>
      have named : d.name = name := by simpa using List.find?_some found
      rw [Option.map_some, mapOverride_of_ne change (named ▸ query) (named ▸ cypher)]

end Directive

theorem storedName?_mapOverride (directives : List Directive) :
    storedName? (directives.map (Directive.mapOverride change)) = storedName? directives := by
  rw [storedName?, Directive.find?_mapOverride_of_ne change (by decide) (by decide), storedName?]

theorem FieldDefinition.hasDirective_mapOverride (f : FieldDefinition) (name : String) :
    (f.mapOverride change).hasDirective name = f.hasDirective name := by
  rw [hasDirective, mapOverride, Directive.find?_mapOverride, Option.isSome_map]
  rfl

theorem fragmentOf_mapOverride (location : String) {d : Directive}
    (override : d.name = "graphQuery" ∨ d.name = "cypher") :
    fragmentOf location (d.mapOverride change)
      = (fragmentOf location d).map (FieldMapping.mapOverride change) := by
  unfold fragmentOf
  rw [d.text_mapOverride change override, d.name_mapOverride]
  cases d.stringArgument? "statement" <|> d.firstString? <;> rfl

theorem relationshipOf_mapOverride (location : String) (d : Directive) :
    (relationshipOf location d).map (FieldMapping.mapOverride change)
      = relationshipOf location d := by
  unfold relationshipOf
  split
  · rfl
  split
  · rfl
  split <;> rfl

theorem mappingOf_mapOverride (location : String) (f : FieldDefinition) :
    mappingOf location (f.mapOverride change)
      = (mappingOf location f).map (FieldMapping.mapOverride change) := by
  have named {directives : List Directive} {name : String} {d : Directive}
      (found : Directive.find? directives name = some d) : d.name = name := by
    simpa using List.find?_some found
  have override (name : String) :=
    Directive.find?_mapOverride change f.directives name
  have relationship := @Directive.find?_mapOverride_of_ne change "relationship" (by decide)
    (by decide) f.directives
  have id := f.hasDirective_mapOverride change "id"
  unfold mappingOf
  rw [id, FieldDefinition.mapOverride, override, override, relationship]
  cases query : Directive.find? f.directives "graphQuery" with
  | some d => exact fragmentOf_mapOverride change location (.inl (named query))
  | none =>
      cases cypher : Directive.find? f.directives "cypher" with
      | some d => exact fragmentOf_mapOverride change location (.inr (named cypher))
      | none =>
          cases Directive.find? f.directives "relationship" with
          | some d => exact (relationshipOf_mapOverride change location d).symm
          | none =>
              dsimp only [Option.map_none, Option.orElse_eq_orElse]
              cases f.hasDirective "id" <;> rfl

theorem describeInputField_mapOverride (f : FieldDefinition) :
    describeInputField (f.mapOverride change) = describeInputField f := by
  unfold describeInputField
  rw [f.hasDirective_mapOverride, FieldDefinition.mapOverride, storedName?_mapOverride]

/-! ## Look-ups -/

/-- Looking changed things up gives what was found before, changed. -/
theorem mapM_map {ε α β α' β' : Type} {look : α → Except ε β} {look' : α' → Except ε β'}
    {before : α → α'} {after : β → β'} (each : ∀ a, look' (before a) = (look a).map after)
    (as : List α) : (as.map before).mapM look' = (as.mapM look).map (List.map after) := by
  induction as with
  | nil => rfl
  | cons a as ih =>
      rw [List.map_cons, List.mapM_cons, List.mapM_cons, each, ih]
      cases look a with
      | error e => rfl
      | ok b => cases as.mapM look <;> rfl

namespace TypeDefinition

theorem field?_mapOverrides (t : TypeDefinition) (name : String) :
    (t.mapOverrides change).field? name
      = (t.field? name).map (FieldDefinition.mapOverride change) := by
  rw [field?, mapOverrides, List.find?_map]
  rfl

theorem names_mapOverrides (t : TypeDefinition) :
    (t.mapOverrides change).fields.map (·.name) = t.fields.map (·.name) := by
  rw [mapOverrides, List.map_map]
  rfl

end TypeDefinition

namespace Index

variable (index : Index)

theorem type?_mapOverrides (name : String) :
    (index.mapOverrides change).type? name
      = (index.type? name).map (TypeDefinition.mapOverrides change) := by
  rw [type?, mapOverrides, List.filter_map, List.getLast?_map]
  rfl

theorem requireType_mapOverrides (name : String) :
    (index.mapOverrides change).requireType name
      = (index.requireType name).map (TypeDefinition.mapOverrides change) := by
  have names : (index.mapOverrides change).document.types.map (·.name)
      = index.document.types.map (·.name) := by
    rw [mapOverrides, List.map_map]
    rfl
  rw [requireType, requireType, names, type?_mapOverrides]
  cases index.type? name <;> rfl

theorem isObjectType_mapOverrides (name : String) :
    (index.mapOverrides change).isObjectType name = index.isObjectType name := by
  rw [isObjectType, isObjectType, type?_mapOverrides, Option.any_map]
  rfl

theorem label_mapOverrides (typeName : String) :
    (index.mapOverrides change).label typeName = index.label typeName := by
  rw [label, label, requireType_mapOverrides]
  cases index.requireType typeName <;> rfl

theorem identityField?_mapOverrides (typeName : String) :
    (index.mapOverrides change).identityField? typeName = index.identityField? typeName := by
  have marked (t : TypeDefinition) : (t.mapOverrides change).fields.find? (·.hasDirective "id")
      = (t.fields.find? (·.hasDirective "id")).map (FieldDefinition.mapOverride change) := by
    rw [TypeDefinition.mapOverrides, List.find?_map]
    congr 2
    funext f
    exact f.hasDirective_mapOverride change "id"
  rw [identityField?, identityField?, type?_mapOverrides]
  cases index.type? typeName with
  | none => rfl
  | some t =>
      simp only [Option.map_some, bind, Option.bind, marked]
      cases t.fields.find? (·.hasDirective "id") <;> rfl

theorem inputArguments_mapOverrides (typeName : String) :
    (index.mapOverrides change).inputArguments typeName = index.inputArguments typeName := by
  have described (t : TypeDefinition) :
      (t.mapOverrides change).fields.map describeInputField = t.fields.map describeInputField := by
    rw [TypeDefinition.mapOverrides, List.map_map]
    exact List.map_congr_left fun f _ => describeInputField_mapOverride change f
  rw [inputArguments, inputArguments, requireType_mapOverrides]
  cases index.requireType typeName with
  | error e => rfl
  | ok t => exact congrArg Except.ok (described t)

/-- The descriptor of a field is the one before, with its override text changed. -/
theorem describe_mapOverrides (t : TypeDefinition) (f : FieldDefinition) :
    (index.mapOverrides change).describe (t.mapOverrides change) (f.mapOverride change)
      = (index.describe t f).map (FieldDescriptor.mapOverride change) := by
  have stored := storedName?_mapOverride change f.directives
  have mapped := mappingOf_mapOverride change (t.name ++ "." ++ f.name) f
  rw [describe, describe, isObjectType_mapOverrides]
  show ((mappingOf (t.name ++ "." ++ f.name) (f.mapOverride change)).bind _) = _
  rw [mapped]
  cases mappingOf (t.name ++ "." ++ f.name) f with
  | error e => rfl
  | ok mapping =>
      simp only [Except.bind, bind, Except.map, FieldDefinition.mapOverride, stored]
      rfl

theorem field_mapOverrides (typeName fieldName : String) :
    (index.mapOverrides change).field typeName fieldName
      = (index.field typeName fieldName).map (FieldDescriptor.mapOverride change) := by
  rw [field, field, requireType_mapOverrides]
  cases index.requireType typeName with
  | error e => rfl
  | ok t =>
      simp only [Except.map, bind, Except.bind, t.field?_mapOverrides, t.names_mapOverrides]
      cases t.field? fieldName with
      | none => rfl
      | some f => exact describe_mapOverrides change index t f

theorem rootOf_mapOverrides (kind : OperationKind) (t : TypeDefinition) (f : FieldDefinition) :
    (index.mapOverrides change).rootOf kind (t.mapOverrides change) (f.mapOverride change)
      = (index.rootOf kind t f).map (Root.mapOverride change) := by
  have fragment (d : FieldDescriptor) :
      (d.mapOverride change).fragment? = d.fragment?.map change := by
    unfold FieldDescriptor.fragment? FieldDescriptor.mapOverride
    cases d.mapping <;> rfl
  rw [rootOf, rootOf, describe_mapOverrides]
  cases index.describe t f with
  | error e => rfl
  | ok d =>
      have graphType : (d.mapOverride change).graphType = d.graphType := rfl
      simp only [Except.map, bind, Except.bind, isObjectType_mapOverrides, label_mapOverrides,
        identityField?_mapOverrides, fragment, graphType]
      cases object : index.isObjectType d.graphType with
      | true =>
          simp only [if_true]
          cases index.label d.graphType <;> rfl
      | false => rfl

theorem rootField?_mapOverrides (kind : OperationKind) (fieldName : String) :
    (index.mapOverrides change).rootField? kind fieldName
      = (index.rootField? kind fieldName).map fun (t, f) =>
          (t.mapOverrides change, f.mapOverride change) := by
  rw [rootField?, rootField?, type?_mapOverrides]
  cases index.type? kind.rootTypeName with
  | none => rfl
  | some t =>
      simp only [Option.map_some, bind, Option.bind, t.field?_mapOverrides]
      cases t.field? fieldName <;> rfl

/-- A root is the one before, with its override text changed. -/
theorem root_mapOverrides (fieldName : String) :
    (index.mapOverrides change).root fieldName
      = (index.root fieldName).map (Root.mapOverride change) := by
  have names (kind : OperationKind) :
      ((index.mapOverrides change).rootFields kind).map (·.name)
        = (index.rootFields kind).map (·.name) := by
    rw [rootFields, rootFields, type?_mapOverrides]
    cases index.type? kind.rootTypeName with
    | none => rfl
    | some t => exact t.names_mapOverrides change
  rw [root, root, rootField?_mapOverrides, rootField?_mapOverrides, List.map_append, names, names,
    List.map_append]
  cases index.rootField? .query fieldName with
  | some found => exact rootOf_mapOverrides change index .query found.1 found.2
  | none =>
      cases index.rootField? .mutation fieldName with
      | some found => exact rootOf_mapOverrides change index .mutation found.1 found.2
      | none => rfl

theorem aliasMap_mapOverrides (typeName : String) :
    (index.mapOverrides change).aliasMap typeName = index.aliasMap typeName := by
  have entries (descriptors : List FieldDescriptor) :
      (descriptors.map (FieldDescriptor.mapOverride change)).flatMap aliasEntry
        = descriptors.flatMap aliasEntry := by
    rw [List.flatMap_map]
    congr 1
    funext d
    unfold aliasEntry FieldDescriptor.mapOverride
    cases d.mapping <;> rfl
  rw [aliasMap, aliasMap, requireType_mapOverrides]
  cases index.requireType typeName with
  | error e => rfl
  | ok t =>
      have fields : (t.mapOverrides change).fields
          = t.fields.map (FieldDefinition.mapOverride change) := rfl
      simp only [Except.map, bind, Except.bind, fields,
        mapM_map (describe_mapOverrides change index t)]
      cases t.fields.mapM (index.describe t) with
      | error e => rfl
      | ok descriptors => exact congrArg (Except.ok ∘ Table.ofList) (entries descriptors)

end Index

/-! ## The overrides of a name -/

/-- The text of the override of a field. -/
def FieldDefinition.override? (f : FieldDefinition) : Option String := do
  let d ← Directive.find? f.directives "graphQuery" <|> Directive.find? f.directives "cypher"
  d.stringArgument? "statement" <|> d.firstString?

namespace Index

/-- The texts of the overrides of all fields of a name. -/
def overridesOf (index : Index) (fieldName : String) : List String :=
  index.document.types.flatMap fun t =>
    (t.fields.filter fun f => f.name == fieldName).filterMap (·.override?)

variable {index : Index} {fieldName text : String}

/-- The fragment of a descriptor is the override of the field that it describes. -/
theorem describe_fragment? {t : TypeDefinition} {f : FieldDefinition} {d : FieldDescriptor}
    (described : index.describe t f = .ok d) : d.fragment? = f.override? := by
  have mapped := describe_mapping described
  cases known : Directive.find? f.directives "graphQuery"
      <|> Directive.find? f.directives "cypher" with
  | none =>
      have none : Directive.find? f.directives "graphQuery" = none
          ∧ Directive.find? f.directives "cypher" = none := by simpa using known
      have plain : f.hasOverride = false := by
        rw [FieldDefinition.hasOverride, FieldDefinition.hasDirective, none.1,
          FieldDefinition.hasDirective, none.2]
        rfl
      have other := mappingOf_ne_overridden plain mapped
      simp only [FieldDefinition.override?, known, bind, Option.bind]
      unfold FieldDescriptor.fragment?
      split
      · next fragment overridden => exact absurd overridden (other fragment)
      · rfl
  | some directive =>
      rw [mappingOf, known] at mapped
      simp only [FieldDefinition.override?, known, bind, Option.bind]
      dsimp only at mapped
      unfold fragmentOf at mapped
      split at mapped
      · next fragment given => rw [given, FieldDescriptor.fragment?, ← Except.ok.inj mapped]
      · cases mapped

theorem mem_overridesOf {t : TypeDefinition} {f : FieldDefinition} {d : FieldDescriptor}
    (type : t ∈ index.document.types) (field : t.field? fieldName = some f)
    (described : index.describe t f = .ok d) (overridden : d.mapping = .overridden text) :
    text ∈ index.overridesOf fieldName := by
  have given : f.override? = some text := by
    rw [← describe_fragment? described, FieldDescriptor.fragment?, overridden]
  refine List.mem_flatMap.2 ⟨t, type, List.mem_filterMap.2 ⟨f, ?_, given⟩⟩
  unfold TypeDefinition.field? at field
  have named := List.find?_some field
  exact List.mem_filter.2 ⟨List.mem_of_find?_eq_some field, named⟩

theorem mem_overridesOf_field {typeName : String} {d : FieldDescriptor}
    (found : index.field typeName fieldName = .ok d) (overridden : d.mapping = .overridden text) :
    text ∈ index.overridesOf fieldName := by
  obtain ⟨t, f, type, field, described⟩ := field_eq_ok found
  exact mem_overridesOf (mem_of_type? type) field described overridden

theorem mem_overridesOf_root {root : Root} (found : index.root fieldName = .ok root)
    (overridden : root.fragment? = some text) : text ∈ index.overridesOf fieldName := by
  obtain ⟨kind, t, f, type, field, made⟩ := root_eq_ok found
  obtain ⟨d, label, described, -, rfl⟩ := rootOf_eq_ok made
  refine mem_overridesOf (mem_of_type? type) field described ?_
  have given : d.fragment? = some text := overridden
  unfold FieldDescriptor.fragment? at given
  split at given
  · cases given
    assumption
  · cases given

end Index

end GraphBridge.Schema

namespace GraphBridge.Compile

open Schema

variable (change : String → String) (index : Index)

theorem suppliedByArguments_mapOverrides (declared : List ArgumentDescriptor)
    (arguments : List (String × Json)) :
    suppliedByArguments (index.mapOverrides change) declared arguments
      = suppliedByArguments index declared arguments := by
  induction arguments with
  | nil => rfl
  | cons entry rest ih =>
      simp only [suppliedByArguments, suppliedByArgument, index.inputArguments_mapOverrides change,
        ih]

theorem ofField_mapOverrides (root : Root) (field : Operation.Field) :
    Given.ofField (index.mapOverrides change) root field = Given.ofField index root field := by
  simp only [Given.ofField, index.inputArguments_mapOverrides change,
    index.type?_mapOverrides change, Option.isSome_map]

theorem writtenLabel_mapOverrides (typeName : String) :
    writtenLabel (index.mapOverrides change) typeName = writtenLabel index typeName := by
  rw [writtenLabel, writtenLabel, index.type?_mapOverrides]
  cases index.type? typeName <;> rfl

end GraphBridge.Compile
