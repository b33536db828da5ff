import GraphBridge.Json.Basic

/-!
# Reading JSON text

A strict reader: only the four blanks of the format, no leading zeros, no control characters inside
strings, no unpaired surrogate escapes, numbers in range, and at most 127 levels of nesting. A
repeated member keeps its first place and takes its last value.
-/

namespace GraphBridge.Json

/-- A reader takes a value off the front of the input. -/
abbrev Reads (α : Type) := List Char → Option (α × List Char)

/-- A blank of the format. -/
def isSpace (c : Char) : Bool :=
  c == ' ' || c == '\n' || c == '\r' || c == '\t'

/-- The input after its leading blanks. -/
def skipSpace (input : List Char) : List Char :=
  input.dropWhile isSpace

/-- The value of a hexadecimal digit. -/
def hexValue? (c : Char) : Option Nat :=
  if '0' ≤ c && c ≤ '9' then some (c.toNat - '0'.toNat)
  else if 'a' ≤ c && c ≤ 'f' then some (c.toNat - 'a'.toNat + 10)
  else if 'A' ≤ c && c ≤ 'F' then some (c.toNat - 'A'.toNat + 10)
  else none

/-- The value of four hexadecimal digits. -/
def hexUnit? (a b c d : Char) : Option Nat := do
  let a ← hexValue? a
  let b ← hexValue? b
  let c ← hexValue? c
  let d ← hexValue? d
  return ((a * 16 + b) * 16 + c) * 16 + d

/-- Whether a unit opens a surrogate pair. -/
def isHighUnit (unit : Nat) : Bool :=
  0xD800 ≤ unit && unit ≤ 0xDBFF

/-- Whether a unit closes a surrogate pair. -/
def isLowUnit (unit : Nat) : Bool :=
  0xDC00 ≤ unit && unit ≤ 0xDFFF

/-- The character that a short escape stands for. -/
def shortEscape? (c : Char) : Option Char :=
  if c == '"' || c == '\\' || c == '/' then some c
  else if c == 'b' then some '\x08'
  else if c == 'f' then some '\x0c'
  else if c == 'n' then some '\n'
  else if c == 'r' then some '\r'
  else if c == 't' then some '\t'
  else none

/-- Puts a character in front of what was read. -/
def consRead (c : Char) (read : Option (List Char × List Char)) :
    Option (List Char × List Char) :=
  read.map fun (text, rest) => (c :: text, rest)

/-- The characters of a string up to its closing quote. -/
def stringBody : Reads (List Char)
  | [] => none
  | '"' :: rest => some ([], rest)
  | '\\' :: 'u' :: a :: b :: c :: d :: '\\' :: 'u' :: e :: f :: g :: h :: rest =>
      match hexUnit? a b c d with
      | none => none
      | some unit =>
          if isHighUnit unit then
            match hexUnit? e f g h with
            | none => none
            | some low =>
                if isLowUnit low then
                  consRead (Char.ofNat (0x10000 + (unit - 0xD800) * 0x400 + (low - 0xDC00)))
                    (stringBody rest)
                else none
          else if isLowUnit unit then none
          else consRead (Char.ofNat unit)
            (stringBody ('\\' :: 'u' :: e :: f :: g :: h :: rest))
  | '\\' :: 'u' :: a :: b :: c :: d :: rest =>
      match hexUnit? a b c d with
      | none => none
      | some unit =>
          if isHighUnit unit || isLowUnit unit then none
          else consRead (Char.ofNat unit) (stringBody rest)
  | '\\' :: c :: rest =>
      match shortEscape? c with
      | none => none
      | some c => consRead c (stringBody rest)
  | c :: rest => if c.toNat < 32 then none else consRead c (stringBody rest)

/-- Items separated by commas up to a closing character, at most `limit` of them. -/
def listBody {α : Type} (closing : Char) (item : Reads α) : Nat → Reads (List α)
  | 0, _ => none
  | limit + 1, input =>
      match item input with
      | none => none
      | some (value, rest) =>
          match skipSpace rest with
          | [] => none
          | c :: rest =>
              if c == closing then some ([value], rest)
              else if c == ',' then
                (listBody closing item limit rest).map fun (more, rest) => (value :: more, rest)
              else none

/-- Items between an opening bracket already read and its closing character. -/
def enclosed {α : Type} (closing : Char) (item : Reads α) (input : List Char) :
    Option (List α × List Char) :=
  match skipSpace input with
  | [] => none
  | c :: rest =>
      if c == closing then some ([], rest) else listBody closing item input.length (c :: rest)

/-- A member: a name in quotes, a colon and a value. -/
def memberOf {α : Type} (value : Reads α) (input : List Char) :
    Option ((String × α) × List Char) :=
  match skipSpace input with
  | '"' :: rest =>
      match stringBody rest with
      | none => none
      | some (name, rest) =>
          match skipSpace rest with
          | ':' :: rest =>
              (value rest).map fun (value, rest) => ((String.ofList name, value), rest)
          | _ => none
  | _ => none

/-- A value that holds no other value. -/
def scalar : Reads Json
  | 'n' :: 'u' :: 'l' :: 'l' :: rest => some (.null, rest)
  | 't' :: 'r' :: 'u' :: 'e' :: rest => some (.bool true, rest)
  | 'f' :: 'a' :: 'l' :: 's' :: 'e' :: rest => some (.bool false, rest)
  | '"' :: rest => (stringBody rest).map fun (text, rest) => (.string (String.ofList text), rest)
  | input =>
      match NumberLiteral.scan input with
      | none => none
      | some (literal, rest) =>
          if literal.toNumber.isFinite then some (.number literal.toNumber, rest) else none

/-- A value within the given number of levels. -/
def valueWithin : Nat → Reads Json
  | 0, input => scalar (skipSpace input)
  | levels + 1, input =>
      match skipSpace input with
      | '[' :: rest =>
          (enclosed ']' (valueWithin levels) rest).map fun (items, rest) => (.array items, rest)
      | '{' :: rest =>
          (enclosed '}' (memberOf (valueWithin levels)) rest).map
            fun (members, rest) => (.object (Table.ofList members), rest)
      | input => scalar input

/-- The deepest nesting that is read. -/
def depthLimit : Nat := 127

/-- The value that a text spells, if it is well-formed. -/
def ofText? (text : String) : Option Json :=
  match valueWithin depthLimit text.toList with
  | some (value, rest) => if (skipSpace rest).isEmpty then some value else none
  | none => none

/-- A string in quotes. -/
def quotedText (input : List Char) : Option (String × List Char) :=
  match skipSpace input with
  | '"' :: rest => (stringBody rest).map fun (text, rest) => (String.ofList text, rest)
  | _ => none

/-- The table that a text spells, if it is an object with strings for all its members; a repeated
member has to be a string every time. -/
def textsOfText? (text : String) : Option (Table String) :=
  match skipSpace text.toList with
  | '{' :: rest =>
      match enclosed '}' (memberOf quotedText) rest with
      | some (members, rest) =>
          if (skipSpace rest).isEmpty then some (Table.ofList members) else none
      | none => none
  | _ => none

end GraphBridge.Json
