/-!
# Reading documents by a grammar

The readers of this library are ordered-choice grammars over lists of characters: an alternative is
tried only where the ones before it fail, repetition takes as much as it can, and a failure leaves
the input untouched. Between the parts of a rule any run of blanks, commas, line ends and comments
is skipped; `token` does so in front of the part it reads, so a rule made of tokens needs no further
care. Keywords are plain texts: nothing keeps them apart from a name that follows.
-/

namespace GraphBridge.Grammar

/-- A reader takes something off the front of the input or fails. -/
abbrev Parser := StateT (List Char) Option

/-- Blanks, commas, byte order marks and line ends separate tokens and mean nothing. -/
def isIgnored (c : Char) : Bool :=
  c == ' ' || c == ',' || c == '\t' || c == '\n' || c == '\r' || c == '\uFEFF'

/-- A character that ends a line. -/
def isLineEnd (c : Char) : Bool :=
  c == '\n' || c == '\r'

/-- The input after ignored characters and comments; a comment runs from a number sign to the end of
its line. -/
def skipFrom (inComment : Bool) : List Char → List Char
  | [] => []
  | c :: rest =>
      if inComment then skipFrom (!isLineEnd c) rest
      else if isIgnored c then skipFrom false rest
      else if c == '#' then skipFrom true rest
      else c :: rest

/-- The input after everything that separates tokens. -/
def skip (input : List Char) : List Char :=
  skipFrom false input

/-- Runs a reader behind whatever separates it from what came before. -/
def token {α : Type} (p : Parser α) : Parser α :=
  fun input => p (skip input)

/-- Exactly the given characters, with nothing skipped. -/
def exactly (word : List Char) : Parser Unit :=
  fun input => (word.isPrefixOf? input).map fun rest => ((), rest)

/-- A keyword or punctuation mark. -/
def symbol (word : String) : Parser Unit :=
  token (exactly word.toList)

/-- One character of a class. -/
def charOf (accepts : Char → Bool) : Parser Char
  | c :: rest => if accepts c then some (c, rest) else none
  | [] => none

/-- Succeeds without taking anything exactly where the given reader fails. -/
def notAhead {α : Type} (p : Parser α) : Parser Unit :=
  fun input => match p input with
    | some _ => none
    | none => some ((), input)

/-- As many as there are, one after the other; a step that takes nothing is the last. -/
def repeated {α : Type} (p : Parser α) (input : List Char) : List α × List Char :=
  match p input with
  | none => ([], input)
  | some (first, rest) =>
      if rest.length < input.length then
        let (more, rest) := repeated p rest
        (first :: more, rest)
      else ([first], rest)
termination_by input.length

/-- Any number of parts. -/
def many {α : Type} (p : Parser α) : Parser (List α) :=
  fun input => some (repeated p input)

/-- One part or more. -/
def some1 {α : Type} (p : Parser α) : Parser (List α) := do
  let first ← p
  let more ← many p
  return first :: more

/-- A list of parts that may be left out. -/
def orEmpty {α : Type} (p : Parser (List α)) : Parser (List α) :=
  p <|> pure []

/-- Whether a part is there. -/
def present {α : Type} (p : Parser α) : Parser Bool :=
  (do let _ ← p; return true) <|> pure false

/-- A character that may open a name. -/
def isNameStart (c : Char) : Bool :=
  c.isAlpha || c == '_'

/-- A character that may follow in a name. -/
def isNamePart (c : Char) : Bool :=
  c.isAlphanum || c == '_'

/-- A name, with nothing skipped in front. -/
def bareName : Parser String
  | c :: rest =>
      if isNameStart c then
        some (String.ofList (c :: rest.takeWhile isNamePart), rest.dropWhile isNamePart)
      else none
  | [] => none

/-- A name. -/
def name : Parser String :=
  token bareName

/-- The end of the document. -/
def ending : Parser Unit :=
  token fun input => if input.isEmpty then some ((), []) else none

end GraphBridge.Grammar
