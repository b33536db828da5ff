import GraphBridge.Json.Basic

/-!
# Schema documents

An annotated schema: types with their fields, arguments and directives. Values of directive
arguments are JSON, so that enumeration tokens and strings read alike.
-/

namespace GraphBridge.Schema

/-- A reference to a type: the innermost name, and whether the outermost wrapper is a list and
whether it is required. -/
structure TypeRef where
  name : String
  isList : Bool
  required : Bool
  deriving DecidableEq, Repr

/-- A directive with its arguments. -/
structure Directive where
  name : String
  arguments : Table Json
  deriving Repr

namespace Directive

/-- The text of an argument that is a string or an enumeration token. -/
def stringArgument? (d : Directive) (name : String) : Option String :=
  (d.arguments.get? name).bind Json.string?

/-- The first argument that is a string, whatever its name. -/
def firstString? (d : Directive) : Option String :=
  d.arguments.findSome? fun entry => entry.2.string?

/-- The first directive of a name. -/
def find? (directives : List Directive) (name : String) : Option Directive :=
  List.find? (fun d => d.name == name) directives

end Directive

/-- An argument of a field. -/
structure ArgumentDefinition where
  name : String
  type : TypeRef
  default? : Option Json
  directives : List Directive
  deriving Repr

/-- A field of an object, interface or input type; an input field has no arguments. -/
structure FieldDefinition where
  name : String
  type : TypeRef
  arguments : List ArgumentDefinition
  directives : List Directive
  deriving Repr

namespace FieldDefinition

/-- Whether a directive of a name is attached. -/
def hasDirective (f : FieldDefinition) (name : String) : Bool :=
  (Directive.find? f.directives name).isSome

end FieldDefinition

/-- The kinds of type. -/
inductive TypeKind where
  | object
  | interface
  | inputObject
  | enum
  | scalar
  | union
  deriving DecidableEq, Repr

/-- A type with its fields; kinds without fields have none. -/
structure TypeDefinition where
  name : String
  kind : TypeKind
  directives : List Directive
  fields : List FieldDefinition
  deriving Repr

namespace TypeDefinition

/-- The first field of a name. -/
def field? (t : TypeDefinition) (name : String) : Option FieldDefinition :=
  t.fields.find? fun f => f.name == name

end TypeDefinition

/-- The types of a schema in the order of their definitions. -/
structure Document where
  types : List TypeDefinition
  deriving Repr

namespace Document

/-- The first type of a name. -/
def type? (d : Document) (name : String) : Option TypeDefinition :=
  d.types.find? fun t => t.name == name

end Document

/-! ## Tidying

What is read from text keeps repeated arguments and members as written. Tidying makes each argument
list and each object a table. -/

namespace Directive

/-- The directive with its arguments made a table. -/
def tidy (d : Directive) : Directive :=
  { d with arguments := Table.ofList (Json.tidyMembers d.arguments) }

/-- Whether every number in the arguments is in range. -/
def isFinite (d : Directive) : Bool :=
  Json.haveFinite d.arguments

end Directive

namespace ArgumentDefinition

/-- The argument with tidy values. -/
def tidy (a : ArgumentDefinition) : ArgumentDefinition :=
  { a with
    default? := a.default?.map Json.tidy
    directives := a.directives.map Directive.tidy }

/-- Whether every number in the default and the directives is in range. -/
def isFinite (a : ArgumentDefinition) : Bool :=
  a.default?.all Json.isFinite && a.directives.all Directive.isFinite

end ArgumentDefinition

namespace FieldDefinition

/-- The field with tidy values. -/
def tidy (f : FieldDefinition) : FieldDefinition :=
  { f with
    arguments := f.arguments.map ArgumentDefinition.tidy
    directives := f.directives.map Directive.tidy }

/-- Whether every number in the arguments and the directives is in range. -/
def isFinite (f : FieldDefinition) : Bool :=
  f.arguments.all ArgumentDefinition.isFinite && f.directives.all Directive.isFinite

end FieldDefinition

namespace TypeDefinition

/-- The type with tidy values. -/
def tidy (t : TypeDefinition) : TypeDefinition :=
  { t with
    directives := t.directives.map Directive.tidy
    fields := t.fields.map FieldDefinition.tidy }

/-- Whether every number in the fields and the directives is in range. -/
def isFinite (t : TypeDefinition) : Bool :=
  t.directives.all Directive.isFinite && t.fields.all FieldDefinition.isFinite

end TypeDefinition

end GraphBridge.Schema
