import GraphBridge.Grammar.Basic

/-!
# Quoted text in documents

A string stands in double quotes, with escapes and within one line, or in three double quotes over
several lines. In the latter, the indentation shared by all lines but the first is taken away, blank
lines at either end are dropped, and nothing is unescaped.
-/

namespace GraphBridge.Grammar

/-- A hexadecimal digit. -/
def isHexDigit (c : Char) : Bool :=
  c.isDigit || ('a' ≤ c && c ≤ 'f') || ('A' ≤ c && c ≤ 'F')

/-- The value of a hexadecimal digit. -/
def hexDigitValue (c : Char) : Nat :=
  if c.isDigit then c.toNat - '0'.toNat
  else if 'a' ≤ c then c.toNat - 'a'.toNat + 10
  else c.toNat - 'A'.toNat + 10

/-- The character that four hexadecimal digits denote; surrogates are refused. -/
def unicodeEscape? (a b c d : Char) : Option Char :=
  if [a, b, c, d].all isHexDigit then
    let point := [a, b, c, d].foldl (fun value digit => 16 * value + hexDigitValue digit) 0
    if 0xD800 ≤ point && point ≤ 0xDFFF then none else some (Char.ofNat point)
  else none

/-- The character that a short escape denotes. -/
def simpleEscape? (c : Char) : Option Char :=
  if c == '"' || c == '\\' || c == '/' then some c
  else if c == 'b' then some '\x08'
  else if c == 'f' then some '\x0c'
  else if c == 'n' then some '\n'
  else if c == 'r' then some '\r'
  else if c == 't' then some '\t'
  else none

/-- The content of a one-line string up to its closing quote, and what follows the quote. -/
def lineContent : List Char → Option (List Char × List Char)
  | [] => none
  | '"' :: rest => some ([], rest)
  | '\\' :: 'u' :: a :: b :: c :: d :: rest =>
      match unicodeEscape? a b c d with
      | some denoted => (lineContent rest).map fun (more, rest) => (denoted :: more, rest)
      | none => none
  | '\\' :: c :: rest =>
      match simpleEscape? c with
      | some denoted => (lineContent rest).map fun (more, rest) => (denoted :: more, rest)
      | none => none
  | c :: rest =>
      if c == '\\' || isLineEnd c then none
      else (lineContent rest).map fun (more, rest) => (c :: more, rest)

/-- The raw content of a block string up to its closing quotes, and what follows them. Three quotes
behind a backslash belong to the content. -/
def blockContent : List Char → Option (List Char × List Char)
  | [] => none
  | '\\' :: '"' :: '"' :: '"' :: rest =>
      (blockContent rest).map fun (more, rest) => ('\\' :: '"' :: '"' :: '"' :: more, rest)
  | '"' :: '"' :: '"' :: rest => some ([], rest)
  | c :: rest => (blockContent rest).map fun (more, rest) => (c :: more, rest)

/-- Puts a character in front of the first of several lines. -/
def consLine (c : Char) : List (List Char) → List (List Char)
  | [] => [[c]]
  | line :: more => (c :: line) :: more

/-- The lines of a text; a carriage return and a line feed together end one line. -/
def splitLines : List Char → List (List Char)
  | [] => [[]]
  | '\r' :: '\n' :: rest => [] :: splitLines rest
  | c :: rest => if isLineEnd c then [] :: splitLines rest else consLine c (splitLines rest)

/-- A character of indentation. -/
def isIndent (c : Char) : Bool :=
  c == ' ' || c == '\t'

/-- Whether a line has nothing but indentation. -/
def isBlankLine (line : List Char) : Bool :=
  line.all isIndent

/-- The indentation of a line that is not blank. -/
def indentOf? (line : List Char) : Option Nat :=
  if isBlankLine line then none else some (line.takeWhile isIndent).length

/-- The least indentation of the given lines, blank lines aside. -/
def commonIndent (lines : List (List Char)) : Nat :=
  ((lines.filterMap indentOf?).min?).getD 0

/-- A line without the shared indentation, if it is long enough. -/
def dedent (indent : Nat) (line : List Char) : List Char :=
  if indent ≤ line.length then line.drop indent else line

/-- The text that the raw content of a block string stands for. -/
def blockText (raw : List Char) : List Char :=
  match splitLines raw with
  | [] => []
  | first :: others =>
      let indent := commonIndent others
      let lines := first :: others.map (dedent indent)
      let kept := ((lines.dropWhile isBlankLine).reverse.dropWhile isBlankLine).reverse
      ['\n'].intercalate kept

/-- A quoted text, with nothing skipped in front: a block string if it can be read as one. -/
def bareQuoted : Parser String := fun input =>
  let line := match input with
    | '"' :: rest => (lineContent rest).map fun (text, rest) => (String.ofList text, rest)
    | _ => none
  match input with
  | '"' :: '"' :: '"' :: rest =>
      match blockContent rest with
      | some (raw, rest) => some (String.ofList (blockText raw), rest)
      | none => line
  | _ => line

/-- A quoted text. -/
def quoted : Parser String :=
  token bareQuoted

end GraphBridge.Grammar
