import GraphBridge.Query.Literal
import GraphBridge.Query.Token

/-!
# Text that falls into known tokens

A scanner takes the longest token that it can, so where a token ends depends on what comes behind
it. `Spelled` says how a text may be put together from tokens so that the scanner finds the same
ones: it is built from the end, and keeps account of what the text starts with, because that decides
what may be put in front. A spelled text is lexed without a fault, and the parameters that the
scanner finds are those that were put in.
-/

namespace GraphBridge.Text

/-! ## Classes of characters -/

/-- The punctuation marks of a statement, the point aside. -/
def marks : List Char :=
  "()[]\x7b\x7d:,=-<>".toList

/-- The marks and the characters that open a token which is not a word. -/
def punctuation : List Char :=
  marks ++ ['.'] ++ ['/', '\'', '"', '`', '$']

/-- The code points of ranges, one by one. -/
def Ranges.points (ranges : Ranges) : List Nat :=
  ranges.entries.flatMap fun range => List.range' range.1 (range.2 + 1 - range.1)

theorem Ranges.mem_points {ranges : Ranges} {point : Nat}
    (inside : ranges.contains point = true) : point ∈ ranges.points := by
  obtain ⟨range, mem, above, below⟩ := (contains_eq_true_iff ranges point).1 inside
  exact List.mem_flatMap.2 ⟨range, mem, List.mem_range'_1.2 ⟨above, by omega⟩⟩

theorem isBlank_of_space_or_line {c : Char} (known : c = ' ' ∨ c = '\n') : isBlank c = true := by
  rcases known with rfl | rfl <;> decide

/-- White space is no part of an identifier. -/
theorem not_isIdentifierPart_of_isBlank {c : Char} (blank : isBlank c = true) :
    isIdentifierPart c = false := by
  have each : ∀ point ∈ blankRanges.points, alphabeticRanges.contains point = false
      ∧ numericRanges.contains point = false ∧ point ≠ '_'.toNat := by decide +kernel
  obtain ⟨letter, number, underscore⟩ := each _ (Ranges.mem_points blank)
  have other : c ≠ '_' := fun same => underscore (same ▸ rfl)
  simpa [isIdentifierPart, isAlphanumeric, isAlphabetic, isNumeric, letter, number] using other

theorem not_isBlank_of_isIdentifierPart {c : Char} (part : isIdentifierPart c = true) :
    isBlank c = false := by
  cases blank : isBlank c with
  | false => rfl
  | true => rw [not_isIdentifierPart_of_isBlank blank] at part; cases part

theorem not_isIdentifierStart_of_not_isIdentifierPart {c : Char}
    (other : isIdentifierPart c = false) : isIdentifierStart c = false := by
  cases start : isIdentifierStart c with
  | false => rfl
  | true => rw [isIdentifierPart_of_start start] at other; cases other

/-- Punctuation belongs to no other class of characters. -/
theorem apart_of_mem_punctuation {c : Char} (mem : c ∈ punctuation) :
    isBlank c = false ∧ c.isDigit = false ∧ isIdentifierPart c = false := by
  have each : punctuation.all (fun c => !(isBlank c || c.isDigit || isIdentifierPart c))
      = true := by decide +kernel
  have other := List.all_eq_true.1 each c mem
  simp only [Bool.not_eq_true', Bool.or_eq_false_iff] at other
  exact ⟨other.1.1, other.1.2, other.2⟩

theorem ne_of_mem_punctuation {c d : Char} (part : isIdentifierPart c = true)
    (known : d ∈ punctuation) : c ≠ d := by
  rintro rfl
  rw [(apart_of_mem_punctuation known).2.2] at part
  cases part

/-- Whatever is checked for the first characters holds for all of ASCII. -/
theorem forall_ascii (holds : Char → Bool)
    (each : (List.range 128).all (fun n => holds (Char.ofNat n)) = true) {c : Char}
    (ascii : c.toNat < 128) : holds c = true := by
  have found := List.all_eq_true.1 each c.toNat (List.mem_range.2 ascii)
  rwa [Char.ofNat_toNat] at found

theorem toNat_lt_of_isDigit {c : Char} (digit : c.isDigit = true) : c.toNat < 128 := by
  have below : c.toNat ≤ 57 := by
    simp only [Char.isDigit, Bool.and_eq_true, decide_eq_true_eq] at digit
    exact digit.2
  omega

/-- Digits go on with an identifier but open none. -/
theorem identifier_of_isDigit {c : Char} (digit : c.isDigit = true) :
    isIdentifierPart c = true ∧ isIdentifierStart c = false := by
  have found := forall_ascii
    (fun c => !c.isDigit || isIdentifierPart c && !isIdentifierStart c) (by decide +kernel)
    (toNat_lt_of_isDigit digit)
  simpa [digit] using found

end GraphBridge.Text

namespace GraphBridge.Query

open Text

/-! ## One token at the front -/

theorem takeWhile_append_of_stop {accepts : Char → Bool} {word rest : List Char}
    (all : word.all accepts = true) (stop : startsWith accepts rest = false) :
    (word ++ rest).takeWhile accepts = word ∧ (word ++ rest).dropWhile accepts = rest := by
  induction word with
  | nil =>
      cases rest with
      | nil => exact ⟨rfl, rfl⟩
      | cons c rest => simp_all [startsWith]
  | cons c word ih =>
      simp only [List.all_cons, Bool.and_eq_true] at all
      obtain ⟨taken, left⟩ := ih all.2
      simp [all.1, taken, left]

/-- A mark is a token of its own. -/
theorem munch_mark {c : Char} (mark : c ∈ marks ∨ c = '.') (input : List Char) :
    munch c input = some (.symbol c, [], input) := by
  have mem : c ∈ marks ++ ['.'] := by
    rcases mark with known | rfl
    · exact List.mem_append_left _ known
    · exact List.mem_append_right _ List.mem_cons_self
  obtain ⟨blank, digit, part⟩ := apart_of_mem_punctuation (List.mem_append_left _ mem)
  have start := not_isIdentifierStart_of_not_isIdentifierPart part
  have other : (marks ++ ['.']).all (fun c =>
      c != '/' && c != '\'' && c != '"' && c != '`' && c != '$') = true := by decide
  simp only [List.all_eq_true, Bool.and_eq_true, bne_iff_ne] at other
  obtain ⟨⟨⟨⟨slash, single⟩, double⟩, backQuote⟩, dollar⟩ := other c mem
  simp [munch, blank, slash, single, double, backQuote, dollar, digit, start]

/-- White space in front of something else is a token. -/
theorem munch_blank {c : Char} (blank : isBlank c = true) {input : List Char}
    (stop : startsWith isBlank input = false) :
    munch c input = some (.blank, [], input) := by
  obtain ⟨taken, left⟩ := @takeWhile_append_of_stop isBlank [] input rfl stop
  rw [List.nil_append] at taken left
  rw [munch, if_pos blank, taken, left]

/-- A word is a token if what is behind it does not go on with it. -/
theorem munch_word {c : Char} {word rest : List Char} (start : isIdentifierStart c = true)
    (all : word.all isIdentifierPart = true) (stop : startsWith isIdentifierPart rest = false) :
    munch c (word ++ rest) = some (.identifier, word, rest) := by
  have part := isIdentifierPart_of_start start
  have blank := not_isBlank_of_isIdentifierPart part
  have digit : c.isDigit = false := by
    cases digit : c.isDigit with
    | false => rfl
    | true => rw [(identifier_of_isDigit digit).2] at start; cases start
  have other (d : Char) (known : d ∈ punctuation) := ne_of_mem_punctuation part known
  obtain ⟨taken, left⟩ := takeWhile_append_of_stop all stop
  simp [munch, blank, other '/' (by decide), other '\'' (by decide), other '"' (by decide),
    other '`' (by decide), other '$' (by decide), digit, start, taken, left]

/-- A dollar sign and a word are a token if what is behind them does not go on with it. -/
theorem munch_parameter {word rest : List Char} (identifier : spellsIdentifier word = true)
    (stop : startsWith isIdentifierPart rest = false) :
    munch '$' (word ++ rest) = some (.parameter, word, rest) := by
  cases word with
  | nil => cases identifier
  | cons c word =>
      rw [spellsIdentifier, Bool.and_eq_true] at identifier
      have all : (c :: word).all isIdentifierPart = true := by
        rw [List.all_cons, isIdentifierPart_of_start identifier.1, identifier.2]
        rfl
      obtain ⟨taken, left⟩ := takeWhile_append_of_stop all stop
      have blank := (apart_of_mem_punctuation (c := '$') (by decide)).1
      rw [munch, blank, taken, left]
      simp [startsWith, identifier.1]

theorem scanQuoted_quote {quote : Char} (plain : quote ≠ '\\') (rest : List Char) :
    scanQuoted quote (quote :: rest) = some ([quote], rest) := by
  rw [scanQuoted.eq_def]
  simp [plain]

/-- A character that neither ends nor escapes is taken. -/
theorem scanQuoted_cons {quote c : Char} (inside : c ≠ quote) (plain : c = '\\' → quote = '`')
    {input taken rest : List Char} (later : scanQuoted quote input = some (taken, rest)) :
    scanQuoted quote (c :: input) = some (c :: taken, rest) := by
  have escapes : (c == '\\' && quote != '`') = false := by
    by_cases slash : c = '\\'
    · simp [plain slash]
    · simp [slash]
  rw [scanQuoted.eq_def]
  simp [escapes, inside, later]

/-- A backslash takes the next character with it. -/
theorem scanQuoted_escape {quote c : Char} (escapes : quote ≠ '`')
    {input taken rest : List Char} (later : scanQuoted quote input = some (taken, rest)) :
    scanQuoted quote ('\\' :: c :: input) = some ('\\' :: c :: taken, rest) := by
  rw [scanQuoted.eq_def]
  simp [escapes, later]

/-- What the scanner takes behind an opening quote is built as it is read: from the closing quote,
through pairs of a backslash and what it escapes, and through characters that stand for themselves.
-/
theorem scanQuoted_induction {quote : Char} {motive : List Char → Prop}
    (close : quote ≠ '\\' → motive [quote])
    (escape : ∀ c inner, quote ≠ '`' → motive inner → motive ('\\' :: c :: inner))
    (plain : ∀ c inner, c ≠ quote → (c = '\\' → quote = '`') → motive inner →
      motive (c :: inner))
    {input taken rest : List Char} (scanned : scanQuoted quote input = some (taken, rest)) :
    motive taken := by
  fun_induction scanQuoted quote input generalizing taken rest with
  | case1 => cases scanned
  | case2 => cases scanned
  | case3 c escapes d input ih =>
      obtain ⟨⟨inner, left⟩, found, same⟩ := Option.map_eq_some_iff.1 scanned
      cases same
      rw [Bool.and_eq_true, beq_iff_eq, bne_iff_ne] at escapes
      rw [escapes.1]
      exact escape d inner escapes.2 (ih found)
  | case4 c input escapes closes =>
      cases scanned
      obtain rfl := eq_of_beq closes
      refine close fun slash => ?_
      rw [slash] at escapes
      exact escapes rfl
  | case5 c input escapes closes ih =>
      obtain ⟨⟨inner, left⟩, found, same⟩ := Option.map_eq_some_iff.1 scanned
      cases same
      refine plain c inner (fun same => closes (beq_iff_eq.2 same)) (fun slash => ?_) (ih found)
      rw [slash, beq_self_eq_true, Bool.true_and] at escapes
      simpa using escapes

/-- A quoted text ends with its quote, whatever stands behind. -/
theorem scanQuoted_taken_append {quote : Char} {input taken rest : List Char}
    (scanned : scanQuoted quote input = some (taken, rest)) (more : List Char) :
    scanQuoted quote (taken ++ more) = some (taken, more) := by
  refine scanQuoted_induction (motive := fun taken =>
    scanQuoted quote (taken ++ more) = some (taken, more)) ?_ ?_ ?_ scanned
  · exact fun other => scanQuoted_quote other more
  · exact fun c inner escapes ih => scanQuoted_escape escapes ih
  · exact fun c inner inside plain ih => scanQuoted_cons inside plain ih

/-- Back quotes around a text without them. -/
theorem munch_backQuoted {inner : List Char} (free : '`' ∉ inner) (rest : List Char) :
    munch '`' (inner ++ '`' :: rest) = some (.quotedIdentifier, inner ++ ['`'], rest) := by
  have scanned : scanQuoted '`' (inner ++ '`' :: rest) = some (inner ++ ['`'], rest) := by
    induction inner with
    | nil => exact scanQuoted_quote (by decide) rest
    | cons c inner ih =>
        rw [List.mem_cons, not_or] at free
        exact scanQuoted_cons (Ne.symm free.1) (fun _ => rfl) (ih free.2)
  have blank := (apart_of_mem_punctuation (c := '`') (by decide)).1
  rw [munch, blank, scanned]
  simp

/-- Quotes around an escaped text. -/
theorem munch_escaped (text rest : List Char) :
    munch '\'' (text.flatMap escapeQuoted ++ '\'' :: rest)
      = some (.string, text.flatMap escapeQuoted ++ ['\''], rest) := by
  have scanned : scanQuoted '\'' (text.flatMap escapeQuoted ++ '\'' :: rest)
      = some (text.flatMap escapeQuoted ++ ['\''], rest) := by
    induction text with
    | nil => exact scanQuoted_quote (by decide) rest
    | cons c text ih =>
        rw [List.flatMap_cons, List.append_assoc, List.append_assoc, escapeQuoted]
        split
        · exact scanQuoted_escape (by decide) ih
        · rename_i plain
          simp only [Bool.or_eq_true, beq_iff_eq, not_or] at plain
          exact scanQuoted_cons plain.2 (fun slash => absurd slash plain.1) ih
  have blank := (apart_of_mem_punctuation (c := '\'') (by decide)).1
  rw [munch, blank, scanned]
  simp

theorem scanMarkedDigits_of_stop {isMark : Char → Bool} {input : List Char}
    (stop : startsWith isMark input = false) : scanMarkedDigits isMark input = ([], input) := by
  unfold scanMarkedDigits
  split
  · rename_i mark digit rest
    simp [startsWith] at stop
    simp [stop]
  · rfl

/-- Digits are a token if what is behind them does not go on with the number. -/
theorem munch_digits {c : Char} {digits rest : List Char} (first : c.isDigit = true)
    (all : digits.all Char.isDigit = true) (stop : startsWith Char.isDigit rest = false)
    (point : startsWith (· == '.') rest = false)
    (power : startsWith (fun c => c == 'e' || c == 'E') rest = false) :
    munch c (digits ++ rest) = some (.number, digits, rest) := by
  have part := (identifier_of_isDigit first).1
  have blank := not_isBlank_of_isIdentifierPart part
  have other (d : Char) (known : d ∈ punctuation) := ne_of_mem_punctuation part known
  obtain ⟨taken, left⟩ := takeWhile_append_of_stop all stop
  have scanned : scanNumber (digits ++ rest) = (digits, rest) := by
    simp [scanNumber, taken, left, scanMarkedDigits_of_stop point, scanMarkedDigits_of_stop power]
  simp [munch, blank, other '/' (by decide), other '\'' (by decide), other '"' (by decide),
    other '`' (by decide), other '$' (by decide), first, scanned]

/-! ## Spelled text -/

/-- What a spelled text starts with. -/
inductive Start where
  | nothing
  /-- A punctuation mark other than a point. -/
  | mark
  | point
  | blank
  | word
  | digit
  /-- A dollar sign or a quote. -/
  | sign
  deriving DecidableEq

namespace Start

/-- Whether a word may stand in front. -/
def endsWord : Start → Bool
  | .word | .digit => false
  | _ => true

/-- Whether a number may stand in front. -/
def endsNumber : Start → Bool
  | .word | .digit | .point => false
  | _ => true

end Start

/-- Texts put together from tokens, with what they start with and the parameters in them. -/
inductive Spelled : Start → List Char → List String → Prop where
  | nothing : Spelled .nothing [] []
  | mark {s : Start} {rest : List Char} {parameters : List String} (c : Char)
      (known : c ∈ marks) (later : Spelled s rest parameters) :
      Spelled .mark (c :: rest) parameters
  | point {s : Start} {rest : List Char} {parameters : List String}
      (later : Spelled s rest parameters) : Spelled .point ('.' :: rest) parameters
  | blank {s : Start} {rest : List Char} {parameters : List String} (c : Char)
      (known : c = ' ' ∨ c = '\n') (apart : s ≠ .blank) (later : Spelled s rest parameters) :
      Spelled .blank (c :: rest) parameters
  | word {s : Start} {rest : List Char} {parameters : List String} (word : String)
      (identifier : isIdentifier word = true) (apart : s.endsWord = true)
      (later : Spelled s rest parameters) : Spelled .word (word.toList ++ rest) parameters
  | parameter {s : Start} {rest : List Char} {parameters : List String} (name : String)
      (identifier : isIdentifier name = true) (apart : s.endsWord = true)
      (later : Spelled s rest parameters) :
      Spelled .sign ('$' :: (name.toList ++ rest)) (name :: parameters)
  | backQuoted {s : Start} {rest : List Char} {parameters : List String} (text : String)
      (free : '`' ∉ text.toList) (later : Spelled s rest parameters) :
      Spelled .sign ('`' :: (text.toList ++ '`' :: rest)) parameters
  | literal {s : Start} {rest : List Char} {parameters : List String} (text : String)
      (later : Spelled s rest parameters) :
      Spelled .sign ((stringLiteral text).toList ++ rest) parameters
  | number {s : Start} {rest : List Char} {parameters : List String} (value : Nat)
      (apart : s.endsNumber = true) (later : Spelled s rest parameters) :
      Spelled .digit ((toString value).toList ++ rest) parameters

namespace Spelled

theorem toList_stringLiteral (text : String) :
    (stringLiteral text).toList = '\'' :: (text.toList.flatMap escapeQuoted ++ ['\'']) := by
  simp [stringLiteral]

theorem digits_toString (value : Nat) :
    ∃ c rest, (toString value).toList = c :: rest ∧ c.isDigit = true
      ∧ rest.all Char.isDigit = true := by
  have digits : ∀ c ∈ (toString value).toList, c.isDigit = true := by
    intro c mem
    rw [Nat.toString_eq_repr, Nat.toList_repr] at mem
    exact Nat.isDigit_of_mem_toDigits (by decide) (by decide) mem
  cases shape : (toString value).toList with
  | nil =>
      rw [Nat.toString_eq_repr, Nat.toList_repr] at shape
      exact absurd shape Nat.toDigits_ne_nil
  | cons c rest =>
      rw [shape] at digits
      exact ⟨c, rest, rfl, digits c List.mem_cons_self,
        List.all_eq_true.2 fun d mem => digits d (List.mem_cons_of_mem _ mem)⟩

/-- The class of the first character, unless it is a letter or a digit. -/
theorem head_cases {s : Start} {text : List Char} {parameters : List String}
    (spelled : Spelled s text parameters) (apart : s.endsWord = true) :
    text = [] ∨ ∃ c rest, text = c :: rest
      ∧ (c ∈ punctuation ∧ (c = '.' → s = .point) ∨ isBlank c = true ∧ s = .blank) := by
  have sign {c : Char} (known : c ∈ punctuation) (other : c ≠ '.') :
      c ∈ punctuation ∧ (c = '.' → s = .point) := ⟨known, fun same => absurd same other⟩
  cases spelled with
  | nothing => exact .inl rfl
  | mark c known later =>
      have listed : c ∈ punctuation := List.mem_append_left _ (List.mem_append_left _ known)
      have other : c ≠ '.' := fun same => absurd (same ▸ known) (by decide)
      exact .inr ⟨c, _, rfl, .inl (sign listed other)⟩
  | point later => exact .inr ⟨'.', _, rfl, .inl ⟨by decide, fun _ => rfl⟩⟩
  | blank c known _ later => exact .inr ⟨c, _, rfl, .inr ⟨isBlank_of_space_or_line known, rfl⟩⟩
  | word => cases apart
  | parameter => exact .inr ⟨'$', _, rfl, .inl (sign (by decide) (by decide))⟩
  | backQuoted => exact .inr ⟨'`', _, rfl, .inl (sign (by decide) (by decide))⟩
  | literal text later =>
      rw [toList_stringLiteral]
      exact .inr ⟨'\'', _, rfl, .inl (sign (by decide) (by decide))⟩
  | number => cases apart

variable {s : Start} {text : List Char} {parameters : List String}

theorem stops_word (spelled : Spelled s text parameters) (apart : s.endsWord = true) :
    startsWith isIdentifierPart text = false := by
  rcases spelled.head_cases apart with rfl | ⟨c, rest, rfl, ⟨known, -⟩ | ⟨blank, -⟩⟩
  · rfl
  · exact (apart_of_mem_punctuation known).2.2
  · exact not_isIdentifierPart_of_isBlank blank

theorem stops_number (spelled : Spelled s text parameters) (apart : s.endsNumber = true) :
    startsWith Char.isDigit text = false ∧ startsWith (· == '.') text = false
      ∧ startsWith (fun c => c == 'e' || c == 'E') text = false := by
  have endsWord : s.endsWord = true := by
    cases s <;> first | rfl | cases apart
  -- Digits and letters go on with a word, so only the point is left to exclude.
  have stop := spelled.stops_word endsWord
  rcases spelled.head_cases endsWord with rfl | ⟨c, rest, rfl, first⟩
  · exact ⟨rfl, rfl, rfl⟩
  · simp only [startsWith, Bool.or_eq_false_iff, beq_eq_false_iff_ne] at stop ⊢
    have other {d : Char} (part : isIdentifierPart d = true) : c ≠ d := by
      rintro rfl
      rw [part] at stop
      cases stop
    refine ⟨?_, ?_, other (by decide), other (by decide)⟩
    · cases digit : c.isDigit with
      | false => rfl
      | true => exact absurd rfl (other (identifier_of_isDigit digit).1)
    · rintro rfl
      rcases first with ⟨-, point⟩ | ⟨blank, -⟩
      · rw [point rfl] at apart
        cases apart
      · exact absurd blank (by decide)

theorem stops_blank (spelled : Spelled s text parameters) (apart : s ≠ .blank) :
    startsWith isBlank text = false := by
  by_cases endsWord : s.endsWord = true
  · rcases spelled.head_cases endsWord with rfl | ⟨c, rest, rfl, ⟨known, -⟩ | ⟨-, rfl⟩⟩
    · rfl
    · exact (apart_of_mem_punctuation known).1
    · exact absurd rfl apart
  · cases spelled with
    | word word identifier _ later =>
        obtain ⟨c, rest, shape, start, -⟩ := exists_cons_of_isIdentifier identifier
        rw [shape]
        exact not_isBlank_of_isIdentifierPart (isIdentifierPart_of_start start)
    | number value _ later =>
        obtain ⟨c, rest, shape, digit, -⟩ := digits_toString value
        rw [shape]
        exact not_isBlank_of_isIdentifierPart (identifier_of_isDigit digit).1
    | _ => exact absurd rfl endsWord

end Spelled

/-- The name in a parameter token, without its dollar sign. -/
def Token.parameter? (t : Token) : Option String :=
  if t.kind == .parameter then some (String.ofList (t.text.toList.drop 1)) else none

theorem tokensFrom_of_munch {c : Char} {input taken rest : List Char} {kind : TokenKind}
    (scanned : munch c input = some (kind, taken, rest)) (start : Nat) :
    tokensFrom start (c :: input)
      = (tokensFrom (start + (String.ofList (c :: taken)).utf8ByteSize) rest).map
          (⟨kind, String.ofList (c :: taken), start⟩ :: ·) := by
  rw [tokensFrom]
  split
  · rename_i none
    rw [scanned] at none
    cases none
  · rename_i found
    rw [scanned] at found
    cases found
    dsimp only
    cases tokensFrom (start + (String.ofList (c :: taken)).utf8ByteSize) rest <;> rfl

/-- A token in front of text that can be lexed. -/
theorem tokensFrom_cons {c : Char} {input taken rest : List Char} {kind : TokenKind}
    {parameters : List String} (scanned : munch c input = some (kind, taken, rest))
    (later : ∀ start, ∃ tokens, tokensFrom start rest = .ok tokens
      ∧ tokens.filterMap Token.parameter? = parameters) (start : Nat) :
    ∃ tokens, tokensFrom start (c :: input) = .ok tokens
      ∧ tokens.filterMap Token.parameter?
        = (if kind == .parameter then [String.ofList taken] else []) ++ parameters := by
  obtain ⟨tokens, lexed, names⟩ :=
    later (start + (String.ofList (c :: taken)).utf8ByteSize)
  refine ⟨⟨kind, String.ofList (c :: taken), start⟩ :: tokens, ?_, ?_⟩
  · rw [tokensFrom_of_munch scanned, lexed]
    rfl
  · rw [List.filterMap_cons, names]
    unfold Token.parameter?
    cases kind == .parameter <;> simp

/-- A spelled text is lexed, and the scanner finds the parameters in it. -/
theorem Spelled.tokens {s : Start} {text : List Char} {parameters : List String}
    (spelled : Spelled s text parameters) (start : Nat) :
    ∃ tokens, tokensFrom start text = .ok tokens
      ∧ tokens.filterMap Token.parameter? = parameters := by
  induction spelled generalizing start with
  | nothing => exact ⟨[], by rw [tokensFrom], rfl⟩
  | mark c known later ih => exact tokensFrom_cons (munch_mark (.inl known) _) ih start
  | point later ih => exact tokensFrom_cons (munch_mark (.inr rfl) _) ih start
  | blank c known apart later ih =>
      have blank := isBlank_of_space_or_line known
      exact tokensFrom_cons (munch_blank blank (later.stops_blank apart)) ih start
  | word word identifier apart later ih =>
      obtain ⟨c, rest, shape, first, parts⟩ := exists_cons_of_isIdentifier identifier
      rw [shape]
      exact tokensFrom_cons (munch_word first parts (later.stops_word apart)) ih start
  | parameter name identifier apart later ih =>
      have found := tokensFrom_cons (munch_parameter identifier (later.stops_word apart)) ih start
      simpa using found
  | backQuoted text free later ih => exact tokensFrom_cons (munch_backQuoted free _) ih start
  | literal text later ih =>
      rw [toList_stringLiteral, List.cons_append, List.append_assoc]
      exact tokensFrom_cons (munch_escaped _ _) ih start
  | number value apart later ih =>
      obtain ⟨c, rest, shape, digit, digits⟩ := digits_toString value
      obtain ⟨stop, point, power⟩ := later.stops_number apart
      rw [shape]
      exact tokensFrom_cons (munch_digits digit digits stop point power) ih start

end GraphBridge.Query
