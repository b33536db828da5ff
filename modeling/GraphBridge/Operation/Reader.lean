import GraphBridge.Operation.Source

/-!
# Reading operation text

The grammar of executable documents, rule by rule, and the operation document that a text denotes.
-/

namespace GraphBridge.Operation

open Grammar

namespace Source

/-- A type condition: the word `on`, at least one blank, and a name. -/
def typeCondition : Parser String := token do
  exactly "on".toList
  let _ ← some1 (charOf isIgnored)
  bareName

/-- The response name given to a field. -/
def givenName : Parser String := do
  let name ← name
  symbol ":"
  return name

/-- The name of a fragment to put in place. -/
def spread : Parser Selection := do
  symbol "..."
  notAhead typeCondition
  let name ← name
  return .spread name (← anyDirectives)

/-- Selections in braces, nested at most as deep as given. -/
def selectionsWithin : Nat → Parser (List Selection)
  | 0 => failure
  | depth + 1 => do
      let nested := selectionsWithin depth
      let field : Parser Selection := do
        let given? ← optional givenName
        let name ← name
        let arguments ← orEmpty (arguments value)
        let directives ← anyDirectives
        return .field given? name arguments directives (← orEmpty nested)
      let inlined : Parser Selection := do
        symbol "..."
        let condition? ← optional typeCondition
        let directives ← anyDirectives
        return .inlined condition? directives (← nested)
      symbol "\x7b"
      let selections ← some1 (field <|> inlined <|> spread)
      symbol "\x7d"
      return selections

/-- Selections in braces. Nesting is no deeper than the text is long. -/
def selectionSet : Parser (List Selection) :=
  fun input => selectionsWithin (input.length + 1) input

/-- A type reference without blanks, with at most the given number of list brackets. -/
def bareType : Nat → Parser Unit
  | 0 => failure
  | depth + 1 => do
      (do let _ ← bareName)
        <|> (do
          exactly ['[']
          bareType depth
          exactly [']'])
      let _ ← present (exactly ['!'])

/-- A type reference, of which nothing is kept. -/
def typeReference : Parser Unit := token fun input =>
  bareType (input.length + 1) input

/-- A variable with its type, directives and default. -/
def variableDefinition : Parser VariableDefinition := do
  let name ← reference
  symbol ":"
  typeReference
  let directives ← anyDirectives
  let default? ← optional defaultConstant
  return ⟨name, directives, default?⟩

/-- Variables in brackets. -/
def variableDefinitions : Parser (List VariableDefinition) := do
  symbol "("
  let declared ← many variableDefinition
  symbol ")"
  return declared

/-- The word for an operation type. -/
def operationType : Parser OperationType :=
  (do symbol "query"; return .query)
    <|> (do symbol "mutation"; return .mutation)
    <|> (do symbol "subscription"; return .subscription)

/-- An operation; bare selections are a query without a name. -/
def operationDefinition : Parser OperationDefinition :=
  (do
    let type ← operationType
    let name? ← optional name
    let declared ← orEmpty variableDefinitions
    let directives ← anyDirectives
    return ⟨type, name?, declared, directives, ← selectionSet⟩)
  <|> (do return ⟨.query, none, [], [], ← selectionSet⟩)

/-- A fragment. -/
def fragmentDefinition : Parser FragmentDefinition := do
  symbol "fragment"
  let name ← name
  let condition ← typeCondition
  let directives ← anyDirectives
  return ⟨name, condition, directives, ← selectionSet⟩

/-- A definition of any kind. -/
def definition : Parser Definition :=
  (do return .operation (← operationDefinition))
    <|> (do return .fragment (← fragmentDefinition))

/-- The definitions of a whole text. -/
def definitions : Parser (List Definition) := do
  let definitions ← some1 definition
  ending
  return definitions

end Source

namespace Document

/-- The operation document that a text denotes for given values of the variables. -/
def ofText (text : String) (values : Table Json) : Except ParseError Document :=
  match Source.definitions text.toList with
  | some (definitions, _) => ofDefinitions definitions values
  | none => .error .operationText

end Document

end GraphBridge.Operation
