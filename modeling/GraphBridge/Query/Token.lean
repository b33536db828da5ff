import GraphBridge.Error
import GraphBridge.Text.Ascii
import GraphBridge.Text.Blank
import GraphBridge.Text.Identifier

/-!
# Tokens of query text

Query text falls into tokens without loss: the texts of the tokens, one after the other, are the
input, so a fragment whose variables are renamed keeps its author's layout. The scanner takes one
token off the front of the input; `munch_append` says that what it takes and what it leaves are the
input again, which is both why nothing is lost and why the scan ends.
-/

namespace GraphBridge.Query

/-- The kinds of token. -/
inductive TokenKind where
  /-- A bare identifier or keyword. -/
  | identifier
  /-- An identifier in back quotes. -/
  | quotedIdentifier
  /-- A dollar sign and a name. -/
  | parameter
  /-- A string in single or double quotes, quotes included. -/
  | string
  /-- An integer or decimal number. -/
  | number
  /-- Any other single character. -/
  | symbol (c : Char)
  /-- A run of white space. -/
  | blank
  /-- Two slashes and the rest of the line. -/
  | comment
  deriving DecidableEq, Repr

/-- A token with its text and the byte at which it starts. -/
structure Token where
  kind : TokenKind
  text : String
  start : Nat
  deriving DecidableEq, Repr

namespace Token

/-- White space and comments carry no meaning. -/
def isTrivia (t : Token) : Bool :=
  t.kind == .blank || t.kind == .comment

/-- Whether a token is the given keyword in any case. -/
def isKeyword (t : Token) (word : String) : Bool :=
  t.kind == .identifier && Text.equalIgnoringCase t.text word

/-- Whether a token is the given symbol. -/
def isSymbol (t : Token) (c : Char) : Bool :=
  t.kind == .symbol c

/-- Whether a token opens a bracket. -/
def opens (t : Token) : Bool :=
  t.isSymbol '(' || t.isSymbol '[' || t.isSymbol '{'

/-- Whether a token closes a bracket. -/
def closes (t : Token) : Bool :=
  t.isSymbol ')' || t.isSymbol ']' || t.isSymbol '}'

end Token

/-- The rest of a quoted text up to and with its closing quote. A backslash takes the next character
with it, except between back quotes. -/
def scanQuoted (quote : Char) : List Char → Option (List Char × List Char)
  | [] => none
  | c :: input =>
      if c == '\\' && quote != '`' then
        match input with
        | [] => none
        | d :: input =>
            (scanQuoted quote input).map fun (taken, rest) => (c :: d :: taken, rest)
      else if c == quote then some ([c], input)
      else (scanQuoted quote input).map fun (taken, rest) => (c :: taken, rest)

/-- A mark and the digits behind it, if the mark stands in front and a digit follows it. -/
def scanMarkedDigits (isMark : Char → Bool) : List Char → List Char × List Char
  | mark :: digit :: rest =>
      if isMark mark && digit.isDigit then
        (mark :: (digit :: rest).takeWhile Char.isDigit, (digit :: rest).dropWhile Char.isDigit)
      else ([], mark :: digit :: rest)
  | rest => ([], rest)

/-- The rest of a number: more digits, a fraction, an exponent without sign. A point counts only in
front of a digit, so `0..5` is a range. -/
def scanNumber (input : List Char) : List Char × List Char :=
  let whole := input.takeWhile Char.isDigit
  let (fraction, rest) := scanMarkedDigits (· == '.') (input.dropWhile Char.isDigit)
  let (power, rest) := scanMarkedDigits (fun c => c == 'e' || c == 'E') rest
  (whole ++ fraction ++ power, rest)

/-- Whether the input starts with a character of a class. -/
def startsWith (accepts : Char → Bool) : List Char → Bool
  | c :: _ => accepts c
  | [] => false

/-- The kind of the token that starts with `c`, what it takes of the input behind `c`, and what it
leaves; nothing for an open quote. -/
def munch (c : Char) (input : List Char) : Option (TokenKind × List Char × List Char) :=
  if Text.isBlank c then
    some (.blank, input.takeWhile Text.isBlank, input.dropWhile Text.isBlank)
  else if c == '/' && startsWith (· == '/') input then
    some (.comment, input.takeWhile (· != '\n'), input.dropWhile (· != '\n'))
  else if c == '\'' || c == '"' then
    (scanQuoted c input).map fun (taken, rest) => (.string, taken, rest)
  else if c == '`' then
    (scanQuoted c input).map fun (taken, rest) => (.quotedIdentifier, taken, rest)
  else if c == '$' && startsWith Text.isIdentifierStart input then
    some (.parameter, input.takeWhile Text.isIdentifierPart,
      input.dropWhile Text.isIdentifierPart)
  else if c.isDigit then
    let (taken, rest) := scanNumber input
    some (.number, taken, rest)
  else if Text.isIdentifierStart c then
    some (.identifier, input.takeWhile Text.isIdentifierPart,
      input.dropWhile Text.isIdentifierPart)
  else some (.symbol c, [], input)

theorem scanQuoted_append {quote : Char} {input taken rest : List Char}
    (h : scanQuoted quote input = some (taken, rest)) : taken ++ rest = input := by
  fun_induction scanQuoted quote input generalizing taken rest with
  | case1 => simp at h
  | case2 => simp at h
  | case3 c _ d input ih =>
      obtain ⟨⟨more, left⟩, found, same⟩ := Option.map_eq_some_iff.1 h
      obtain ⟨rfl, rfl⟩ := Prod.mk.inj same
      simp [ih found]
  | case4 c input _ _ =>
      obtain ⟨rfl, rfl⟩ := Prod.mk.inj (Option.some.inj h)
      simp
  | case5 c input _ _ ih =>
      obtain ⟨⟨more, left⟩, found, same⟩ := Option.map_eq_some_iff.1 h
      obtain ⟨rfl, rfl⟩ := Prod.mk.inj same
      simp [ih found]

theorem scanMarkedDigits_append (isMark : Char → Bool) (input : List Char) :
    (scanMarkedDigits isMark input).1 ++ (scanMarkedDigits isMark input).2 = input := by
  unfold scanMarkedDigits
  split
  · split
    · simp [List.takeWhile_append_dropWhile]
    · rfl
  · rfl

theorem scanNumber_append (input : List Char) :
    (scanNumber input).1 ++ (scanNumber input).2 = input := by
  simp only [scanNumber, List.append_assoc]
  rw [scanMarkedDigits_append, scanMarkedDigits_append, List.takeWhile_append_dropWhile]

/-- What a token takes and what it leaves are the input. -/
theorem munch_append {c : Char} {input taken rest : List Char} {kind : TokenKind}
    (h : munch c input = some (kind, taken, rest)) : taken ++ rest = input := by
  unfold munch at h
  split at h
  · simp only [Option.some.injEq, Prod.mk.injEq] at h
    obtain ⟨-, rfl, rfl⟩ := h
    exact List.takeWhile_append_dropWhile
  split at h
  · simp only [Option.some.injEq, Prod.mk.injEq] at h
    obtain ⟨-, rfl, rfl⟩ := h
    exact List.takeWhile_append_dropWhile
  split at h
  · obtain ⟨⟨more, left⟩, found, same⟩ := Option.map_eq_some_iff.1 h
    simp only [Prod.mk.injEq] at same
    obtain ⟨-, rfl, rfl⟩ := same
    exact scanQuoted_append found
  split at h
  · obtain ⟨⟨more, left⟩, found, same⟩ := Option.map_eq_some_iff.1 h
    simp only [Prod.mk.injEq] at same
    obtain ⟨-, rfl, rfl⟩ := same
    exact scanQuoted_append found
  split at h
  · simp only [Option.some.injEq, Prod.mk.injEq] at h
    obtain ⟨-, rfl, rfl⟩ := h
    exact List.takeWhile_append_dropWhile
  split at h
  · simp only [Option.some.injEq, Prod.mk.injEq] at h
    obtain ⟨-, rfl, rfl⟩ := h
    exact scanNumber_append input
  split at h
  · simp only [Option.some.injEq, Prod.mk.injEq] at h
    obtain ⟨-, rfl, rfl⟩ := h
    exact List.takeWhile_append_dropWhile
  · simp only [Option.some.injEq, Prod.mk.injEq] at h
    obtain ⟨-, rfl, rfl⟩ := h
    rfl

/-- The tokens of the input, the first of which starts at byte `start`. -/
def tokensFrom (start : Nat) : List Char → Except Unterminated (List Token)
  | [] => .ok []
  | c :: input =>
      match _scanned : munch c input with
      | none => .error ⟨c, start⟩
      | some (kind, taken, rest) =>
          let text := String.ofList (c :: taken)
          match tokensFrom (start + text.utf8ByteSize) rest with
          | .ok more => .ok (⟨kind, text, start⟩ :: more)
          | .error fault => .error fault
termination_by input => input.length
decreasing_by
  have same := congrArg List.length (munch_append _scanned)
  simp only [List.length_append] at same
  simp only [List.length_cons]
  omega

/-- The tokens of a text; a string or quoted identifier without its closing quote is refused. -/
def tokenize (text : String) : Except Unterminated (List Token) :=
  tokensFrom 0 text.toList

end GraphBridge.Query
