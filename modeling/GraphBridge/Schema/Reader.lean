import GraphBridge.Grammar.Value
import GraphBridge.Schema.Definition

/-!
# Reading schema text

The grammar of schema documents, rule by rule, and the document that a text spells.
-/

namespace GraphBridge.Schema

open Grammar

/-- A directive of the document, whose arguments are constants. -/
def constDirective : Parser Directive :=
  directive constant fun name arguments => ⟨name, Constant.writtenMembers arguments⟩

/-- Any number of constant directives. -/
def anyConstDirectives : Parser (List Directive) :=
  many constDirective

/-- One constant directive or more. -/
def someConstDirectives : Parser (List Directive) :=
  some1 constDirective

/-- A constant behind an equals sign, as the document keeps it. -/
def defaultValue : Parser Json := do
  return (← defaultConstant).written

/-- A type reference without blanks, with at most the given number of list brackets. -/
def bareTypeRef : Nat → Parser TypeRef
  | 0 => failure
  | depth + 1 => do
      let (name, isList) ←
        (do return (← bareName, false))
          <|> (do
            exactly ['[']
            let inner ← bareTypeRef depth
            exactly [']']
            return (inner.name, true))
      let required ← present (exactly ['!'])
      return ⟨name, isList, required⟩

/-- A type reference. -/
def typeRef : Parser TypeRef := token fun input =>
  bareTypeRef (input.length + 1) input

/-- A text in front of a definition that describes it. -/
def description : Parser Bool :=
  present quoted

/-- An argument or an input field. -/
def argumentDefinition : Parser ArgumentDefinition := do
  let _ ← description
  let name ← name
  symbol ":"
  let type ← typeRef
  let default? ← optional defaultValue
  let directives ← anyConstDirectives
  return ⟨name, type, default?, directives⟩

/-- Arguments in brackets. -/
def argumentDefinitions : Parser (List ArgumentDefinition) := do
  symbol "("
  let arguments ← some1 argumentDefinition
  symbol ")"
  return arguments

/-- A field. -/
def fieldDefinition : Parser FieldDefinition := do
  let _ ← description
  let name ← name
  let arguments ← orEmpty argumentDefinitions
  symbol ":"
  let type ← typeRef
  let directives ← anyConstDirectives
  return ⟨name, type, arguments, directives⟩

/-- Parts in braces, at least one. -/
def braced {α : Type} (part : Parser α) : Parser (List α) := do
  symbol "\x7b"
  let parts ← some1 part
  symbol "\x7d"
  return parts

/-- Names with a separator between them and perhaps one in front. -/
def separated {α : Type} (mark : String) (part : Parser α) : Parser (List α) := do
  let _ ← present (symbol mark)
  let first ← part
  let more ← many (do symbol mark; part)
  return first :: more

/-- The interfaces that a type implements. -/
def implements : Parser (List String) := do
  symbol "implements"
  separated "&" name

/-- A definition or an extension of one kind of type. The body has a rule for a definition, in which
everything may be left out, and one for an extension, which has to add something. -/
def typeRule {α : Type} (keyword : String) (definition extension : Parser α)
    (make : Bool → String → α → Definition) : Parser Definition :=
  (do
    let _ ← description
    symbol keyword
    let name ← name
    return make false name (← definition))
  <|> (do
    symbol "extend"
    symbol keyword
    let name ← name
    return make true name (← extension))

/-- Directives and a body, each of which may be left out. -/
def directivesAndBody {α : Type} (body : Parser (List α)) : Parser (List Directive × List α) := do
  let directives ← anyConstDirectives
  let parts ← orEmpty body
  return (directives, parts)

/-- Directives or a body, at least one of them. -/
def directivesOrBody {α : Type} (body : Parser (List α)) : Parser (List Directive × List α) :=
  (do
    let directives ← anyConstDirectives
    return (directives, ← body))
  <|> (do return (← someConstDirectives, []))

/-- A scalar type. -/
def scalarType : Parser Definition :=
  typeRule "scalar" anyConstDirectives someConstDirectives fun isExtension name directives =>
    .type isExtension ⟨name, .scalar, directives, []⟩ []

/-- A type with output fields. -/
def outputType (kind : TypeKind) (isExtension : Bool) (name : String)
    (parts : List Directive × List FieldDefinition) : Definition :=
  .type isExtension ⟨name, kind, parts.1, parts.2⟩ []

/-- The body of a type with output fields. -/
def outputBody : Parser (List Directive × List FieldDefinition) := do
  let _ ← present implements
  directivesAndBody (braced fieldDefinition)

/-- The body of an extension of a type with output fields. -/
def outputExtension : Parser (List Directive × List FieldDefinition) := do
  let _ ← present implements
  directivesOrBody (braced fieldDefinition)

/-- An object type. An extension of one may also add nothing but interfaces. -/
def objectType : Parser Definition :=
  typeRule "type" outputBody (outputExtension <|> (do let _ ← implements; return ([], [])))
    (outputType .object)

/-- An interface type. -/
def interfaceType : Parser Definition :=
  typeRule "interface" outputBody outputExtension (outputType .interface)

/-- The members of a union. -/
def unionMembers : Parser (List String) := do
  symbol "="
  separated "|" name

/-- A union type. -/
def unionType : Parser Definition :=
  typeRule "union" (directivesAndBody unionMembers) (directivesOrBody unionMembers)
    fun isExtension name (directives, _) => .type isExtension ⟨name, .union, directives, []⟩ []

/-- A value of an enumeration, of which only the directives matter. -/
def enumValue : Parser (List Directive) := do
  let _ ← description
  let _ ← enumToken
  anyConstDirectives

/-- The constants in the arguments of directives. -/
def constantsOf (directives : List Directive) : List Json :=
  directives.flatMap fun d => d.arguments.map Prod.snd

/-- An enumeration type. -/
def enumType : Parser Definition :=
  typeRule "enum" (directivesAndBody (braced enumValue)) (directivesOrBody (braced enumValue))
    fun isExtension name (directives, values) =>
      .type isExtension ⟨name, .enum, directives, []⟩ (values.flatMap constantsOf)

/-- An input field of the document. -/
def inputField (a : ArgumentDefinition) : FieldDefinition :=
  ⟨a.name, a.type, [], a.directives⟩

/-- An input type. -/
def inputType : Parser Definition :=
  typeRule "input" (directivesAndBody (braced argumentDefinition))
    (directivesOrBody (braced argumentDefinition))
    fun isExtension name (directives, fields) =>
      .type isExtension ⟨name, .inputObject, directives, fields.map inputField⟩
        (fields.filterMap fun a => a.default?)

/-- The kinds of operation. -/
def operationType : Parser String :=
  (do symbol "query"; return "query")
    <|> (do symbol "mutation"; return "mutation")
    <|> (do symbol "subscription"; return "subscription")

/-- A root of the schema. -/
def rootDefinition : Parser (String × String) := do
  let operation ← operationType
  symbol ":"
  return (operation, ← name)

/-- The schema definition or an extension of it. -/
def schemaDefinition : Parser Definition :=
  (do
    symbol "schema"
    let directives ← anyConstDirectives
    return .schema false directives (← braced rootDefinition))
  <|> (do
    symbol "extend"
    symbol "schema"
    let (directives, roots) ← directivesOrBody (braced rootDefinition)
    return .schema true directives roots)

/-- The places that a directive may be declared for; a place that another one starts with comes
after it. -/
def directiveLocations : List String :=
  ["QUERY", "MUTATION", "SUBSCRIPTION", "FIELD_DEFINITION", "FIELD", "FRAGMENT_DEFINITION",
    "FRAGMENT_SPREAD", "INLINE_FRAGMENT", "VARIABLE_DEFINITION", "SCHEMA", "SCALAR", "OBJECT",
    "ARGUMENT_DEFINITION", "INTERFACE", "UNION", "ENUM_VALUE", "ENUM", "INPUT_OBJECT",
    "INPUT_FIELD_DEFINITION"]

/-- The first of several keywords that can be read. -/
def oneOf (keywords : List String) : Parser Unit :=
  keywords.foldr (fun keyword others => symbol keyword <|> others) failure

/-- A directive definition. -/
def directiveDefinition : Parser Definition := do
  let _ ← description
  symbol "directive"
  symbol "@"
  let _ ← name
  let arguments ← orEmpty argumentDefinitions
  let _ ← present (symbol "repeatable")
  symbol "on"
  let _ ← separated "|" (oneOf directiveLocations)
  return .directive arguments

/-- A definition of any kind. -/
def definition : Parser Definition :=
  schemaDefinition <|> scalarType <|> objectType <|> interfaceType <|> unionType <|> enumType
    <|> inputType <|> directiveDefinition

/-- The definitions of a whole text. -/
def definitions : Parser (List Definition) := do
  let definitions ← some1 definition
  ending
  return definitions

namespace Document

/-- The schema document that a text spells. -/
def ofText (text : String) : Except ParseError Document :=
  match definitions text.toList with
  | some (definitions, _) => ofDefinitions definitions
  | none => .error .schemaText

end Document

end GraphBridge.Schema
