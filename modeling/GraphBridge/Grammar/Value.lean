import GraphBridge.Grammar.Quoted
import GraphBridge.Json.Basic

/-!
# Values in documents

A constant in a document is a null, a number, a string, a truth value, an enumeration token, or a
list or object of constants; a value may refer to variables as well. Enumeration tokens count as
strings. Repeated members are kept as written until a constant or a value is read as JSON, because
every number written has to be in range, also one that a later member replaces.
-/

namespace GraphBridge

/-- A constant as written in a document. -/
inductive Constant where
  | null
  | number (value : Json.Number)
  | string (value : String)
  | boolean (value : Bool)
  | enum (name : String)
  | list (items : List Constant)
  | object (members : List (String × Constant))
  deriving Repr

/-- A value as written in a document. -/
inductive Value where
  /-- A reference to a variable. -/
  | reference (name : String)
  | null
  | number (value : Json.Number)
  | string (value : String)
  | boolean (value : Bool)
  | enum (name : String)
  | list (items : List Value)
  | object (members : List (String × Value))
  deriving Repr

namespace Constant

mutual

/-- A constant as JSON, repeated members kept as they are written. -/
def written : Constant → Json
  | .null => .null
  | .number value => .number value
  | .string value => .string value
  | .boolean value => .bool value
  | .enum name => .string name
  | .list items => .array (writtenItems items)
  | .object members => .object (writtenMembers members)

/-- Each item as JSON. -/
def writtenItems : List Constant → List Json
  | [] => []
  | item :: rest => written item :: writtenItems rest

/-- Each member as JSON. -/
def writtenMembers : List (String × Constant) → List (String × Json)
  | [] => []
  | (name, value) :: rest => (name, written value) :: writtenMembers rest

end

/-- Whether every number in a constant is in range. -/
def isFinite (constant : Constant) : Bool :=
  constant.written.isFinite

/-- A constant as JSON; a repeated member keeps its first place and takes its last value. -/
def toJson (constant : Constant) : Json :=
  constant.written.tidy

end Constant

namespace Value

mutual

/-- A constant where a value may stand. -/
def ofConstant : Constant → Value
  | .null => .null
  | .number value => .number value
  | .string value => .string value
  | .boolean value => .boolean value
  | .enum name => .enum name
  | .list items => .list (ofItems items)
  | .object members => .object (ofMembers members)

/-- Constants where items may stand. -/
def ofItems : List Constant → List Value
  | [] => []
  | item :: rest => ofConstant item :: ofItems rest

/-- Constants where members may stand. -/
def ofMembers : List (String × Constant) → List (String × Value)
  | [] => []
  | (name, value) :: rest => (name, ofConstant value) :: ofMembers rest

end

mutual

/-- Whether every number in a value is in range. -/
def isFinite : Value → Bool
  | .number value => value.isFinite
  | .list items => areFinite items
  | .object members => haveFinite members
  | .reference _ | .null | .string _ | .boolean _ | .enum _ => true

/-- Whether every number in the items is in range. -/
def areFinite : List Value → Bool
  | [] => true
  | item :: rest => isFinite item && areFinite rest

/-- Whether every number in the members is in range. -/
def haveFinite : List (String × Value) → Bool
  | [] => true
  | (_, value) :: rest => isFinite value && haveFinite rest

end

mutual

/-- The JSON value once every variable has one; a repeated member keeps its first place and takes
its last value. -/
def resolve (lookup : String → Json) : Value → Json
  | .reference name => lookup name
  | .null => .null
  | .number value => .number value
  | .string value => .string value
  | .boolean value => .bool value
  | .enum name => .string name
  | .list items => .array (resolveItems lookup items)
  | .object members => .object (Table.ofList (resolveMembers lookup members))

/-- Each item resolved. -/
def resolveItems (lookup : String → Json) : List Value → List Json
  | [] => []
  | item :: rest => resolve lookup item :: resolveItems lookup rest

/-- Each member resolved. -/
def resolveMembers (lookup : String → Json) : List (String × Value) → List (String × Json)
  | [] => []
  | (name, value) :: rest => (name, resolve lookup value) :: resolveMembers lookup rest

end

end Value

/-- A directive with its arguments as written. -/
structure DirectiveUse where
  name : String
  arguments : List (String × Value)
  deriving Repr

namespace DirectiveUse

/-- Whether every number in the arguments is in range. -/
def isFinite (d : DirectiveUse) : Bool :=
  Value.haveFinite d.arguments

end DirectiveUse

namespace Grammar

/-- A number, which no name may follow directly. -/
def number : Parser Json.Number := token fun input =>
  match Json.NumberLiteral.scan input with
  | some (literal, rest) =>
      match rest with
      | c :: _ => if isNameStart c then none else some (literal.toNumber, rest)
      | [] => some (literal.toNumber, rest)
  | none => none

/-- A truth value. -/
def boolean : Parser Bool :=
  (do symbol "true"; return true) <|> (do symbol "false"; return false)

/-- An enumeration token: a name that does not start like a truth value or null. -/
def enumToken : Parser String := token do
  notAhead (exactly "true".toList)
  notAhead (exactly "false".toList)
  notAhead (exactly "null".toList)
  bareName

/-- A reference to a variable. -/
def reference : Parser String := do
  symbol "$"
  name

/-- A name, a colon and a value. -/
def named {α : Type} (value : Parser α) : Parser (String × α) := do
  let key ← name
  symbol ":"
  return (key, ← value)

/-- Items in square brackets. -/
def items {α : Type} (value : Parser α) : Parser (List α) := do
  symbol "["
  let items ← many value
  symbol "]"
  return items

/-- Members in braces. -/
def members {α : Type} (value : Parser α) : Parser (List (String × α)) := do
  symbol "\x7b"
  let members ← many (named value)
  symbol "\x7d"
  return members

/-- A constant that holds no other. -/
def scalar : Parser Constant :=
  (do return .number (← number))
    <|> (do return .string (← quoted))
    <|> (do return .boolean (← boolean))
    <|> (do symbol "null"; return .null)
    <|> (do return .enum (← enumToken))

/-- A constant nested at most as deep as given. -/
def constantWithin : Nat → Parser Constant
  | 0 => failure
  | depth + 1 =>
      scalar
        <|> (do return .list (← items (constantWithin depth)))
        <|> (do return .object (← members (constantWithin depth)))

/-- A value nested at most as deep as given. -/
def valueWithin : Nat → Parser Value
  | 0 => failure
  | depth + 1 =>
      (do return .reference (← reference))
        <|> (do return .ofConstant (← scalar))
        <|> (do return .list (← items (valueWithin depth)))
        <|> (do return .object (← members (valueWithin depth)))

/-- A constant. Neither constants nor values are nested deeper than their text is long. -/
def constant : Parser Constant :=
  fun input => constantWithin (input.length + 1) input

/-- A value. -/
def value : Parser Value :=
  fun input => valueWithin (input.length + 1) input

/-- Arguments in brackets, at least one. -/
def arguments {α : Type} (value : Parser α) : Parser (List (String × α)) := do
  symbol "("
  let arguments ← some1 (named value)
  symbol ")"
  return arguments

/-- A directive with arguments of some kind. -/
def directive {α β : Type} (value : Parser α) (make : String → List (String × α) → β) :
    Parser β := do
  symbol "@"
  let name ← name
  return make name (← orEmpty (arguments value))

/-- Any number of directives that may refer to variables. -/
def anyDirectives : Parser (List DirectiveUse) :=
  many (directive value DirectiveUse.mk)

/-- A constant behind an equals sign. -/
def defaultConstant : Parser Constant := do
  symbol "="
  constant

end Grammar

end GraphBridge
