import GraphBridge.Graph
import GraphBridge.Schema.Document

/-!
# Descriptors

What the compiler needs to know of a field, an argument or a root field, read off the directives of
its definition. Each descriptor has a JSON form.
-/

namespace GraphBridge.Schema

/-- How a field maps onto the graph. -/
inductive FieldMapping where
  /-- A stored property. -/
  | plain
  /-- The identity that the graph itself gives. -/
  | identity
  /-- The nodes at the other end of edges. -/
  | relationship (edgeType : String) (direction : Direction)
  /-- A query fragment, in which `this` is the node at hand. -/
  | overridden (fragment : String)
  deriving DecidableEq, Repr

/-- An argument or an input field. -/
structure ArgumentDescriptor where
  name : String
  graphType : String
  isList : Bool
  isRequired : Bool
  /-- The stored property it stands for, if that has another name. -/
  stored? : Option String
  isId : Bool
  default? : Option Json
  deriving Repr

namespace ArgumentDescriptor

/-- The stored property an argument filters on. -/
def property (a : ArgumentDescriptor) : String :=
  a.stored?.getD a.name

/-- The argument of a name. -/
def find? (arguments : List ArgumentDescriptor) (name : String) : Option ArgumentDescriptor :=
  List.find? (fun a => a.name == name) arguments

end ArgumentDescriptor

/-- A field of an object. -/
structure FieldDescriptor where
  name : String
  /-- The stored property it reads. -/
  stored : String
  graphType : String
  isArray : Bool
  isRequired : Bool
  /-- Whether its type is an object type of the schema. -/
  isObject : Bool
  mapping : FieldMapping
  arguments : List ArgumentDescriptor
  deriving Repr

namespace FieldDescriptor

/-- Whether a field reads the identity. -/
def isId (f : FieldDescriptor) : Bool :=
  f.mapping == .identity

/-- The query fragment that a field stands for. -/
def fragment? (f : FieldDescriptor) : Option String :=
  match f.mapping with
  | .overridden fragment => some fragment
  | _ => none

end FieldDescriptor

/-- A root field as it is invoked. -/
structure Root where
  kind : OperationKind
  name : String
  returnType : String
  /-- The label of the returned nodes. -/
  label : String
  /-- The variable of the returned node. -/
  path : String
  returnsArray : Bool
  returnsObject : Bool
  fragment? : Option String
  arguments : List ArgumentDescriptor
  /-- The argument or input field that filters on identity. -/
  idArgument? : Option String
  /-- The limit that the operation supplies. -/
  limit? : Option Nat
  deriving Repr

/-! ## JSON forms -/

/-- A text or null. -/
def optionalText : Option String → Json
  | some text => .string text
  | none => .null

namespace FieldMapping

/-- The mapping as an object that names its kind. -/
def toJson : FieldMapping → Json
  | .plain => .object [("kind", .string "plain")]
  | .identity => .object [("kind", .string "identity")]
  | .relationship edgeType direction => .object
      [("kind", .string "relationship"), ("edgeType", .string edgeType),
        ("direction", .string direction.name)]
  | .overridden fragment => .object
      [("kind", .string "overridden"), ("fragment", .string fragment)]

end FieldMapping

namespace ArgumentDescriptor

/-- The argument as an object; a default is left out if there is none. -/
def toJson (a : ArgumentDescriptor) : Json :=
  .object
    ([("name", .string a.name), ("graphType", .string a.graphType), ("isList", .bool a.isList),
      ("isRequired", .bool a.isRequired), ("alias", optionalText a.stored?),
      ("isId", .bool a.isId)]
      ++ (a.default?.map fun value => ("defaultValue", value)).toList)

end ArgumentDescriptor

namespace FieldDescriptor

/-- The field as an object. -/
def toJson (f : FieldDescriptor) : Json :=
  .object
    [("name", .string f.name), ("alias", .string f.stored), ("graphType", .string f.graphType),
      ("isArray", .bool f.isArray), ("isRequired", .bool f.isRequired),
      ("isSchemaType", .bool f.isObject), ("kind", f.mapping.toJson),
      ("declaredArgs", .array (f.arguments.map ArgumentDescriptor.toJson))]

end FieldDescriptor

namespace Root

/-- The root as an object. -/
def toJson (r : Root) : Json :=
  .object
    [("operationKind", .string r.kind.rootTypeName), ("name", .string r.name),
      ("returnType", .string r.returnType), ("returnTypeAlias", .string r.label),
      ("pathName", .string r.path), ("returnIsArray", .bool r.returnsArray),
      ("returnIsObject", .bool r.returnsObject), ("overrideQuery", optionalText r.fragment?),
      ("args", .array (r.arguments.map ArgumentDescriptor.toJson)),
      ("idArgName", optionalText r.idArgument?),
      ("limit", match r.limit? with
        | some limit => .number (.natural limit)
        | none => .null)]

end Root

end GraphBridge.Schema
