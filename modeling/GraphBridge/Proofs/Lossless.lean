import GraphBridge.Proofs.Respelling

/-!
# Tokens lose nothing

The tokens of a text are the text, cut into pieces that do not depend on each other: any run of them
is found again where it stands alone. What is in front of a run does not matter because a token is
scanned without a look back, and what is behind it does not because no token goes on further if less
stands behind it. The scanner fails at a quote that is never closed, and nowhere else.
-/

namespace GraphBridge.Query

open Text

/-! ## Less behind a token -/

theorem NoFurther.of_append (front back : List Char) : NoFurther (front ++ back) front := by
  match front with
  | [] => exact ⟨fun _ first => absurd first (by simp), fun digit => absurd digit (by decide)⟩
  | [c] => exact ⟨fun _ first => first, fun digit => absurd digit (by simp [startsWith])⟩
  | c :: d :: front => exact ⟨fun _ first => first, id⟩

/-- A token of one character is the same at the end of a text. -/
theorem scanOf_nil {c : Char} {rest : List Char} {kind : TokenKind}
    (scanned : munch c rest = some (kind, [], rest)) : scanOf c rest = scanOf c [] := by
  -- a comment and a parameter are longer
  have slashes : (c == '/' && startsWith (· == '/') rest) = false := by
    refine Bool.eq_false_iff.2 fun both => ?_
    rw [Bool.and_eq_true, beq_iff_eq] at both
    obtain ⟨rfl, slash⟩ := both
    have blank := (apart_of_mem_punctuation (c := '/') (by decide)).1
    cases rest with
    | nil => cases slash
    | cons d rest =>
        obtain rfl : d = '/' := eq_of_beq slash
        rw [munch, blank] at scanned
        simp [startsWith] at scanned
  have dollar : (c == '$' && startsWith isIdentifierStart rest) = false := by
    refine Bool.eq_false_iff.2 fun both => ?_
    rw [Bool.and_eq_true, beq_iff_eq] at both
    obtain ⟨rfl, start⟩ := both
    have blank := (apart_of_mem_punctuation (c := '$') (by decide)).1
    cases rest with
    | nil => cases start
    | cons d rest =>
        have begins : isIdentifierStart d = true := start
        rw [munch, blank] at scanned
        simp [startsWith, begins, isIdentifierPart_of_start begins] at scanned
  have none (accepts : Char → Bool) : startsWith accepts [] = false := rfl
  simp only [scanOf, slashes, dollar, none, Bool.and_false]

/-- A token is the same if the text behind it ends earlier. -/
theorem munch_cut {c : Char} {taken rest behind : List Char} {kind : TokenKind}
    (scanned : munch c (taken ++ (rest ++ behind)) = some (kind, taken, rest ++ behind)) :
    munch c (taken ++ rest) = some (kind, taken, rest) := by
  have less := NoFurther.of_append rest behind
  refine munch_of_scanOf scanned ?_ (fun _ _ => less.stop) fun _ => less
  match taken, rest with
  | [], [] => exact scanOf_nil scanned
  | [], _ :: _ => rfl
  | _ :: _, _ => rfl

/-- Tokens that are scanned in front of others are scanned without them. -/
theorem Munched.front {front back : List Token} (munched : Munched (front ++ back)) :
    Munched front := by
  induction front with
  | nil => exact .nil
  | cons t front ih =>
      cases munched with
      | cons text scanned later =>
          have split : spelling (front ++ back) = spelling front ++ spelling back :=
            List.flatMap_append
          rw [List.append_eq, split] at scanned
          exact .cons text (munch_cut scanned) (ih later)

/-- A run of tokens is found where it stands alone. -/
theorem exists_tokenize_of_isInfix {start : Nat} {text : List Char} {tokens part : List Token}
    (lexed : tokensFrom start text = .ok tokens) (inside : part <:+: tokens) :
    ∃ found, tokenize (String.join (part.map (·.text))) = .ok found
      ∧ found.map Token.spelt = part.map Token.spelt := by
  obtain ⟨before, after, rfl⟩ := inside
  have whole : (String.join (part.map (·.text))).toList = spelling part :=
    Fragment.toList_text ⟨part⟩
  rw [tokenize, whole]
  exact (munched_of_append (munched_of_tokensFrom lexed).front).exists_tokensFrom 0

/-! ## Where tokens start -/

/-- The first token, and the others behind it. -/
theorem tokensFrom_eq_cons {start : Nat} {text : List Char} {t : Token} {tokens : List Token}
    (lexed : tokensFrom start text = .ok (t :: tokens)) :
    t.start = start
      ∧ ∃ rest, tokensFrom (start + t.text.utf8ByteSize) rest = .ok tokens := by
  cases text with
  | nil =>
      rw [tokensFrom] at lexed
      cases lexed
  | cons c input =>
      cases scanned : munch c input with
      | none =>
          rw [tokensFrom_of_open scanned] at lexed
          cases lexed
      | some found =>
          rw [tokensFrom_of_munch scanned] at lexed
          obtain ⟨more, later, ⟨⟩⟩ := map_eq_ok_iff.1 lexed
          exact ⟨rfl, _, later⟩

/-- A token starts behind the bytes of those in front of it. -/
theorem start_of_tokensFrom {start : Nat} {text : List Char} {before after : List Token} {t : Token}
    (lexed : tokensFrom start text = .ok (before ++ t :: after)) :
    t.start = start + (String.join (before.map (·.text))).utf8ByteSize := by
  induction before generalizing start text with
  | nil => exact (tokensFrom_eq_cons lexed).1
  | cons u before ih =>
      obtain ⟨-, rest, later⟩ := tokensFrom_eq_cons lexed
      rw [ih later, List.map_cons, String.join_cons, String.utf8ByteSize_append, Nat.add_assoc]

/-- What it means that the tokens of a text lose nothing of it and do not depend on each other. -/
structure IsLossless (text : String) (tokens : List Token) : Prop where
  nonempty : ∀ t ∈ tokens, t.text ≠ ""
  whole : String.join (tokens.map (·.text)) = text
  /-- Each token starts behind the bytes of those in front of it. -/
  placed : ∀ before t after, tokens = before ++ t :: after →
    t.start = (String.join (before.map (·.text))).utf8ByteSize
  /-- Each run of tokens is found again in its own text. -/
  runs : ∀ part, part <:+: tokens → ∃ found,
    tokenize (String.join (part.map (·.text))) = .ok found
      ∧ found.map Token.spelt = part.map Token.spelt

theorem isLossless_of_tokenize {text : String} {tokens : List Token}
    (lexed : tokenize text = .ok tokens) : IsLossless text tokens := by
  obtain ⟨laid, whole⟩ := laid_of_tokensFrom lexed
  refine ⟨fun t mem empty => ?_, ?_, ?_, fun part => exists_tokenize_of_isInfix lexed⟩
  · obtain ⟨c, input, taken, rest, -, shape⟩ := laid.scanned t mem
    rw [empty] at shape
    cases shape
  · refine String.toList_injective ?_
    rw [← whole]
    exact Fragment.toList_text ⟨tokens⟩
  · rintro before t after rfl
    have place := start_of_tokensFrom lexed
    rwa [Nat.zero_add] at place

/-! ## Open quotes -/

/-- What stands behind an opening quote, up to and with the one that closes it. A backslash takes
the next character with it, except between back quotes. -/
inductive Quotation (quote : Char) : List Char → Prop where
  | close : Quotation quote [quote]
  | escape {inner : List Char} (c : Char) (escapes : quote ≠ '`') (later : Quotation quote inner) :
      Quotation quote ('\\' :: c :: inner)
  | plain {inner : List Char} {c : Char} (inside : c ≠ quote) (plain : c = '\\' → quote = '`')
      (later : Quotation quote inner) : Quotation quote (c :: inner)

/-- The scanner finds the end of a quotation. -/
theorem scanQuoted_of_quotation {quote : Char} {inner : List Char} (other : quote ≠ '\\')
    (quotation : Quotation quote inner) (rest : List Char) :
    scanQuoted quote (inner ++ rest) = some (inner, rest) := by
  induction quotation with
  | close => exact scanQuoted_quote other rest
  | escape c escapes later ih => exact scanQuoted_escape escapes ih
  | plain inside plain later ih => exact scanQuoted_cons inside plain ih

/-- What the scanner takes behind a quote is a quotation. -/
theorem quotation_of_scanQuoted {quote : Char} {input taken rest : List Char}
    (scanned : scanQuoted quote input = some (taken, rest)) : Quotation quote taken :=
  scanQuoted_induction (fun _ => .close) (fun c _ => .escape c) (fun _ _ => .plain) scanned

/-- The quotes that open a quoted text. -/
def quotes : List Char :=
  ['\'', '"', '`']

/-- What is known of a quote: no token goes on with it, and it begins one of its own. -/
theorem class_of_mem_quotes {quote : Char} (mem : quote ∈ quotes) :
    quote ∈ punctuation ∧ quote ≠ '\\' ∧ quote ≠ '.' ∧ quote ≠ '/' ∧ Mode.isQuote quote = true := by
  simp only [quotes, List.mem_cons, List.not_mem_nil, or_false] at mem
  rcases mem with rfl | rfl | rfl <;> decide

theorem first_of_mem_quotes {quote : Char} (mem : quote ∈ quotes) :
    Mode.first quote = .quoted quote := by
  obtain ⟨known, -, -, slash, isQuote⟩ := class_of_mem_quotes mem
  simp [Mode.first, (apart_of_mem_punctuation known).1, slash, isQuote]

theorem mem_quotes_of_first {c : Char} (first : Mode.first c = .quoted c) : c ∈ quotes := by
  unfold Mode.first at first
  split at first
  · cases first
  split at first
  · cases first
  split at first
  · rename_i isQuote
    simpa [Mode.isQuote, quotes, or_assoc] using isQuote
  · cases first

theorem scanOf_of_mem_quotes {quote : Char} (mem : quote ∈ quotes) (input : List Char) :
    ∃ kind, scanOf quote input = .quoted kind := by
  obtain ⟨known, -, -, slash, -⟩ := class_of_mem_quotes mem
  have blank := (apart_of_mem_punctuation known).1
  by_cases tick : quote = '`'
  · subst tick
    exact ⟨.quotedIdentifier, by simp [scanOf, blank]⟩
  · have plain : quote = '\'' ∨ quote = '"' := by simpa [quotes, tick] using mem
    exact ⟨.string, by simp [scanOf, blank, slash, plain]⟩

/-- The scanner fails at a quote that is not closed, and nowhere else. -/
theorem munch_eq_none_iff {c : Char} {input : List Char} :
    munch c input = none
      ↔ c ∈ quotes ∧ ∀ inner rest, input = inner ++ rest → ¬ Quotation c inner := by
  rw [munch_eq_take]
  constructor
  · intro none
    have fits := fits_scanOf c input
    cases scan : scanOf c input with
    | quoted kind =>
        rw [scan] at fits none
        have mem := mem_quotes_of_first fits.1
        refine ⟨mem, ?_⟩
        rintro inner rest rfl quotation
        have other := (class_of_mem_quotes mem).2.1
        rw [Scan.take, scanQuoted_of_quotation other quotation] at none
        cases none
    | _ =>
        rw [scan] at none
        cases none
  · rintro ⟨mem, never⟩
    obtain ⟨kind, scan⟩ := scanOf_of_mem_quotes mem input
    rw [scan, Scan.take, Option.map_eq_none_iff]
    cases scanned : scanQuoted c input with
    | none => rfl
    | some found =>
        exact absurd (quotation_of_scanQuoted scanned)
          (never found.1 found.2 (scanQuoted_append scanned).symm)

/-- A quote goes on with no token in front of it, except with a comment. -/
theorem munch_append_quote {c quote : Char} {input taken rest : List Char} {kind : TokenKind}
    (scanned : munch c input = some (kind, taken, rest)) (mem : quote ∈ quotes)
    (apart : rest = [] → kind ≠ .comment) (after : List Char) :
    munch c (input ++ quote :: after) = some (kind, taken, rest ++ quote :: after) := by
  obtain ⟨known, -, point, slash, -⟩ := class_of_mem_quotes mem
  obtain ⟨blank, -, part⟩ := apart_of_mem_punctuation known
  exact munch_append_of_stop scanned part (beq_eq_false_iff_ne.2 point)
    (fun _ _ => beq_eq_false_iff_ne.2 slash) (fun _ _ => blank)
    fun comment ends => absurd comment (apart ends)

/-- No comment ends in front of a quote. -/
theorem kind_ne_comment {c quote : Char} {input taken rest : List Char} {kind : TokenKind}
    (scanned : munch c input = some (kind, taken, quote :: rest)) (mem : quote ∈ quotes) :
    kind ≠ .comment := by
  rintro rfl
  have begins : Mode.comment.step quote = Mode.first quote := (run_munch scanned).2 quote rfl
  rw [first_of_mem_quotes mem, Mode.step] at begins
  split at begins <;> cases begins

theorem utf8ByteSize_of_munch {c : Char} {input taken rest : List Char} {kind : TokenKind}
    (scanned : munch c input = some (kind, taken, rest)) :
    (String.ofList (c :: input)).utf8ByteSize
      = (String.ofList (c :: taken)).utf8ByteSize + (String.ofList rest).utf8ByteSize := by
  rw [← munch_append scanned, ← List.cons_append, String.ofList_append,
    String.utf8ByteSize_append]

/-- Only the empty text has no tokens. -/
theorem eq_nil_of_tokensFrom {start : Nat} {text : List Char}
    (lexed : tokensFrom start text = .ok []) : text = [] :=
  (laid_of_tokensFrom lexed).2.symm

/-- A quote that is not closed stops the scanner, if it stands behind a last token that it is not
part of. -/
theorem tokensFrom_of_unclosed {start : Nat} {quote : Char} {before after : List Char}
    {tokens : List Token} (lexed : tokensFrom start before = .ok tokens)
    (outside : ∀ last ∈ tokens.getLast?, last.kind ≠ .comment)
    (unclosed : munch quote after = none) :
    tokensFrom start (before ++ quote :: after)
      = .error ⟨quote, start + (String.ofList before).utf8ByteSize⟩ := by
  have mem := (munch_eq_none_iff.1 unclosed).1
  induction before using munch_induction generalizing start tokens with
  | nil => exact tokensFrom_of_open unclosed start
  | opened c input scanned =>
      rw [tokensFrom_of_open scanned] at lexed
      cases lexed
  | token c input kind taken rest scanned ih =>
      rw [tokensFrom_of_munch scanned] at lexed
      obtain ⟨more, later, rfl⟩ := map_eq_ok_iff.1 lexed
      have apart : rest = [] → kind ≠ .comment := by
        rintro rfl
        rw [tokensFrom] at later
        cases later
        exact outside _ rfl
      have outside' : ∀ last ∈ more.getLast?, last.kind ≠ .comment := by
        cases more with
        | nil => exact fun last mem => absurd mem (Option.not_mem_none last)
        | cons t more => exact outside
      rw [List.cons_append, tokensFrom_of_munch (munch_append_quote scanned mem apart after),
        ih later outside', utf8ByteSize_of_munch scanned, ← Nat.add_assoc]
      rfl

/-- Where the scanner stops, a quote is not closed. -/
theorem exists_unclosed {start : Nat} {text : List Char} {fault : Unterminated}
    (failed : tokensFrom start text = .error fault) :
    ∃ before after tokens, text = before ++ fault.quote :: after
      ∧ fault.offset = start + (String.ofList before).utf8ByteSize
      ∧ tokensFrom start before = .ok tokens
      ∧ (∀ last ∈ tokens.getLast?, last.kind ≠ .comment)
      ∧ munch fault.quote after = none := by
  induction text using munch_induction generalizing start with
  | nil =>
      rw [tokensFrom] at failed
      cases failed
  | opened c input scanned =>
      rw [tokensFrom_of_open scanned] at failed
      cases failed
      exact ⟨[], input, [], rfl, rfl, by rw [tokensFrom],
        fun last mem => absurd mem (Option.not_mem_none last), scanned⟩
  | token c input kind taken rest scanned ih =>
      rw [tokensFrom_of_munch scanned, map_eq_error_iff] at failed
      obtain ⟨before, after, tokens, rfl, offset, lexed, outside, unclosed⟩ := ih failed
      have mem := (munch_eq_none_iff.1 unclosed).1
      have whole := munch_append scanned
      rw [← whole] at scanned
      have cut := munch_cut scanned
      refine ⟨c :: (taken ++ before), after,
        ⟨kind, String.ofList (c :: taken), start⟩ :: tokens, ?_, ?_, ?_, ?_, unclosed⟩
      · rw [← whole, List.cons_append, List.append_assoc]
      · rw [offset, utf8ByteSize_of_munch cut, Nat.add_assoc]
      · rw [tokensFrom_of_munch cut, lexed]
        rfl
      · cases tokens with
        | cons t tokens => exact outside
        | nil =>
            obtain rfl := eq_nil_of_tokensFrom lexed
            rintro last ⟨⟩
            exact kind_ne_comment scanned mem

/-- What it means that a quote is open in a text: it opens a quoted text there, because what stands
in front of it falls into tokens, the last of which is no comment that it would be part of, and
nothing of what stands behind closes it. -/
structure LeavesOpen (text : String) (fault : Unterminated) (before after : List Char) : Prop where
  split : text.toList = before ++ fault.quote :: after
  offset : fault.offset = (String.ofList before).utf8ByteSize
  isQuote : fault.quote ∈ quotes
  opens : ∃ tokens, tokenize (String.ofList before) = .ok tokens
    ∧ ∀ last ∈ tokens.getLast?, last.kind ≠ .comment
  unclosed : ∀ inner rest, after = inner ++ rest → ¬ Quotation fault.quote inner

theorem tokenize_eq_error_iff {text : String} {fault : Unterminated} :
    tokenize text = .error fault ↔ ∃ before after, LeavesOpen text fault before after := by
  constructor
  · intro failed
    obtain ⟨before, after, tokens, split, offset, lexed, outside, unclosed⟩ :=
      exists_unclosed failed
    rw [Nat.zero_add] at offset
    obtain ⟨mem, never⟩ := munch_eq_none_iff.1 unclosed
    refine ⟨before, after, split, offset, mem, ⟨tokens, ?_, outside⟩, never⟩
    rwa [tokenize, String.toList_ofList]
  · rintro ⟨before, after, split, offset, mem, ⟨tokens, lexed, outside⟩, never⟩
    rw [tokenize, String.toList_ofList] at lexed
    have failed := tokensFrom_of_unclosed lexed outside (munch_eq_none_iff.2 ⟨mem, never⟩)
    rw [tokenize, split, failed, Nat.zero_add, ← offset]

/-- A text is an identifier if it is one token of that kind. -/
theorem isIdentifier_iff_tokenize {text : String} :
    isIdentifier text = true ↔ tokenize text = .ok [⟨.identifier, text, 0⟩] := by
  constructor
  · intro identifier
    obtain ⟨c, rest, shape, start, parts⟩ := exists_cons_of_isIdentifier identifier
    have scanned : munch c (rest ++ []) = some (.identifier, rest, []) :=
      munch_word start parts rfl
    rw [List.append_nil] at scanned
    have whole : String.ofList (c :: rest) = text := by
      rw [← shape, String.ofList_toList]
    rw [tokenize, shape, tokensFrom_of_munch scanned, whole, tokensFrom]
    rfl
  · intro lexed
    cases munched_of_tokensFrom lexed with
    | cons shape scanned =>
        rw [isIdentifier, shape, spellsIdentifier, (identifier_of_munch scanned).1,
          parts_of_munch scanned]
        rfl

/-- The tokens of a text are cut from it without loss, and every run of them is found again by
itself. Only a quote that is open keeps a text from being cut, and an identifier is one token. -/
theorem tokenize_lossless (text : String) :
    (∀ tokens, tokenize text = .ok tokens → IsLossless text tokens)
      ∧ (∀ fault, tokenize text = .error fault
          ↔ ∃ before after, LeavesOpen text fault before after)
      ∧ (isIdentifier text = true ↔ tokenize text = .ok [⟨.identifier, text, 0⟩]) :=
  ⟨fun _ lexed => isLossless_of_tokenize lexed, fun _ => tokenize_eq_error_iff,
    isIdentifier_iff_tokenize⟩

/-- A point, a dollar sign and a slash are looked at together with what is behind them, and a
backslash keeps a quote from closing, but no back quote. -/
example : (tokenize "0..1.5e2e $$x /// '").map (·.map fun t => (t.text, t.start))
      = .ok [("0", 0), (".", 1), (".", 2), ("1.5e2", 3), ("e", 8), (" ", 9), ("$", 10), ("$x", 11),
        (" ", 13), ("/// '", 14)]
    ∧ tokenize "é `\\` '\\'" = .error ⟨'\'', 7⟩ := by
  decide +kernel

end GraphBridge.Query
