import GraphBridge.Json.Printer
import GraphBridge.Text.Identifier

/-!
# Values as query text

A value that is substituted for a placeholder goes in raw if it is a scalar; lists and objects
become literals of the query language, in which strings stand in single quotes and keys that are no
identifiers in back quotes.
-/

namespace GraphBridge.Query

/-- A character of a string literal: quotes and backslashes get a backslash. -/
def escapeQuoted (c : Char) : List Char :=
  if c == '\\' || c == '\'' then ['\\', c] else [c]

/-- A string literal. -/
def stringLiteral (text : String) : String :=
  String.ofList ('\'' :: text.toList.flatMap escapeQuoted ++ ['\''])

/-- A map key: bare if it is an identifier, else in back quotes with back quotes doubled. -/
def keyLiteral (key : String) : String :=
  if Text.isIdentifier key then key
  else
    let body := key.toList.flatMap fun c => if c == '`' then ['`', '`'] else [c]
    String.ofList ('`' :: body ++ ['`'])

mutual

/-- A value as a literal of the query language. -/
def literal : Json → String
  | .null => "null"
  | .bool value => Json.boolText value
  | .number value => value.text
  | .string value => stringLiteral value
  | .array items => "[" ++ ", ".intercalate (itemLiterals items) ++ "]"
  | .object members => "\x7b" ++ ", ".intercalate (memberLiterals members) ++ "\x7d"

/-- Each item as a literal. -/
def itemLiterals : List Json → List String
  | [] => []
  | item :: rest => literal item :: itemLiterals rest

/-- Each member as a key and a literal. -/
def memberLiterals : List (String × Json) → List String
  | [] => []
  | (key, value) :: rest => (keyLiteral key ++ ": " ++ literal value) :: memberLiterals rest

end

/-- The text that replaces a placeholder: a string without quotes, anything else as a literal. -/
def rawText : Json → String
  | .string value => value
  | value => literal value

end GraphBridge.Query
