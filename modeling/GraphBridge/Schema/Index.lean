import GraphBridge.Schema.Descriptor
import GraphBridge.Schema.Reader

/-!
# Looking things up in a schema

An index is a schema document in which no type marks two fields as its identity. Look-ups give
descriptors, or a failure with the nearest known name as a hint. Of several types of one name the
last is found.
-/

namespace GraphBridge.Schema

/-- A schema document ready for look-ups. -/
structure Index where
  document : Document
  deriving Repr

/-- The property that directives say a thing is stored under. -/
def storedName? (directives : List Directive) : Option String := do
  let d ← Directive.find? directives "alias"
  d.stringArgument? "property" <|> d.stringArgument? "name" <|> d.firstString?

/-- The first two fields of a type that are marked as its identity. -/
def repeatedId? (t : TypeDefinition) : Option (String × String) :=
  match t.fields.filter (·.hasDirective "id") with
  | first :: second :: _ => some (first.name, second.name)
  | _ => none

/-- The query fragment that a directive gives. -/
def fragmentOf (location : String) (d : Directive) : Except SchemaError FieldMapping :=
  match d.stringArgument? "statement" <|> d.firstString? with
  | some fragment => .ok (.overridden fragment)
  | none => .error (.invalidDirective d.name location (.missingArgument "statement"))

/-- The relationship that a directive gives; without a direction it points away. -/
def relationshipOf (location : String) (d : Directive) : Except SchemaError FieldMapping :=
  match d.stringArgument? "type" <|> d.stringArgument? "edgeType" with
  | none => .error (.invalidDirective d.name location (.missingArgument "type"))
  | some edgeType =>
      match d.stringArgument? "direction" with
      | none => .ok (.relationship edgeType .outgoing)
      | some word =>
          match Direction.ofWord word with
          | .ok direction => .ok (.relationship edgeType direction)
          | .error upper =>
              .error (.invalidDirective d.name location (.unknownDirection upper))

/-- How a field maps onto the graph: a fragment goes before a relationship, and that before the
identity. -/
def mappingOf (location : String) (f : FieldDefinition) : Except SchemaError FieldMapping :=
  match Directive.find? f.directives "graphQuery" <|> Directive.find? f.directives "cypher" with
  | some d => fragmentOf location d
  | none =>
      match Directive.find? f.directives "relationship" with
      | some d => relationshipOf location d
      | none => if f.hasDirective "id" then .ok .identity else .ok .plain

/-- The descriptor of an argument. -/
def describeArgument (a : ArgumentDefinition) : ArgumentDescriptor :=
  { name := a.name
    graphType := a.type.name
    isList := a.type.isList
    isRequired := a.type.required
    stored? := storedName? a.directives
    isId := (Directive.find? a.directives "id").isSome
    default? := a.default? }

/-- The descriptor of an input field. -/
def describeInputField (f : FieldDefinition) : ArgumentDescriptor :=
  { name := f.name
    graphType := f.type.name
    isList := f.type.isList
    isRequired := f.type.required
    stored? := storedName? f.directives
    isId := f.hasDirective "id"
    default? := none }

namespace Index

/-- The index of a document, unless a type marks two fields as its identity. -/
def ofDocument (document : Document) : Except SchemaError Index :=
  let repeated := document.types.findSome? fun t => (repeatedId? t).map fun ids => (t.name, ids)
  match repeated with
  | some (typeName, first, second) => .error (.duplicateIdField typeName first second)
  | none => .ok ⟨document⟩

/-- The index of the schema that a text spells. -/
def ofText (text : String) : Except Error Index := do
  let document ← (Document.ofText text).mapError Error.parse
  (ofDocument document).mapError Error.schema

/-- The last type of a name. -/
def type? (index : Index) (name : String) : Option TypeDefinition :=
  (index.document.types.filter fun t => t.name == name).getLast?

/-- Whether a name is that of an object or interface type. -/
def isObjectType (index : Index) (name : String) : Bool :=
  (index.type? name).any fun t => t.kind == .object || t.kind == .interface

/-- The fields of the root type of a kind. -/
def rootFields (index : Index) (kind : OperationKind) : List FieldDefinition :=
  match index.type? kind.rootTypeName with
  | some t => t.fields
  | none => []

/-- The type of a name, or a hint at the nearest one. -/
def requireType (index : Index) (name : String) : Except SchemaError TypeDefinition :=
  match index.type? name with
  | some t => .ok t
  | none =>
      .error (.typeNotFound name (Text.similar name (index.document.types.map (·.name))))

/-- The label of a type in the graph. -/
def label (index : Index) (typeName : String) : Except SchemaError String := do
  let t ← index.requireType typeName
  return (storedName? t.directives).getD t.name

/-- The name of the field that is the identity of a type. -/
def identityField? (index : Index) (typeName : String) : Option String := do
  let t ← index.type? typeName
  let f ← t.fields.find? (·.hasDirective "id")
  return f.name

/-- The descriptor of a field of a type. -/
def describe (index : Index) (t : TypeDefinition) (f : FieldDefinition) :
    Except SchemaError FieldDescriptor := do
  let mapping ← mappingOf (t.name ++ "." ++ f.name) f
  return {
    name := f.name
    stored := (storedName? f.directives).getD f.name
    graphType := f.type.name
    isArray := f.type.isList
    isRequired := f.type.required
    isObject := index.isObjectType f.type.name
    mapping := mapping
    arguments := f.arguments.map describeArgument }

/-- The descriptor of a field by name, or a hint at the nearest one. -/
def field (index : Index) (typeName fieldName : String) : Except SchemaError FieldDescriptor := do
  let t ← index.requireType typeName
  match t.field? fieldName with
  | some f => index.describe t f
  | none =>
      .error (.fieldNotFound typeName fieldName
        (Text.similar fieldName (t.fields.map (·.name))))

/-- The root that a field of a root type gives. -/
def rootOf (index : Index) (kind : OperationKind) (t : TypeDefinition) (f : FieldDefinition) :
    Except SchemaError Root := do
  let d ← index.describe t f
  let returnsObject := index.isObjectType d.graphType
  let label ← if returnsObject then index.label d.graphType else .ok d.graphType
  let idArgument? := (d.arguments.find? (·.isId)).map (·.name)
  return {
    kind := kind
    name := d.name
    returnType := d.graphType
    label := label
    path := d.name ++ "_" ++ d.graphType
    returnsArray := d.isArray
    returnsObject := returnsObject
    fragment? := d.fragment?
    arguments := d.arguments
    idArgument? := idArgument? <|> index.identityField? d.graphType
    limit? := none }

/-- The field of a name on the root type of a kind. -/
def rootField? (index : Index) (kind : OperationKind) (fieldName : String) :
    Option (TypeDefinition × FieldDefinition) := do
  let t ← index.type? kind.rootTypeName
  let f ← t.field? fieldName
  return (t, f)

/-- The root field of a name: queries are searched before mutations. -/
def root (index : Index) (fieldName : String) : Except SchemaError Root :=
  match index.rootField? .query fieldName with
  | some (t, f) => index.rootOf .query t f
  | none =>
      match index.rootField? .mutation fieldName with
      | some (t, f) => index.rootOf .mutation t f
      | none =>
          let known := (index.rootFields .query ++ index.rootFields .mutation).map (·.name)
          .error (.rootFieldNotFound fieldName (Text.similar fieldName known))

/-- The fields of an input type as arguments. -/
def inputArguments (index : Index) (typeName : String) :
    Except SchemaError (List ArgumentDescriptor) := do
  let t ← index.requireType typeName
  return t.fields.map describeInputField

/-- The entry of a field in an alias map: stored properties and the identity have one. -/
def aliasEntry (d : FieldDescriptor) : List (String × String) :=
  match d.mapping with
  | .identity => [("id", d.name)]
  | .plain => [(d.stored, d.name)]
  | .relationship _ _ | .overridden _ => []

/-- Stored keys and the names of the fields that read them; the identity is stored under `id`. -/
def aliasMap (index : Index) (typeName : String) : Except SchemaError (Table String) := do
  let t ← index.requireType typeName
  let descriptors ← t.fields.mapM (index.describe t)
  return Table.ofList (descriptors.flatMap aliasEntry)

end Index

end GraphBridge.Schema
