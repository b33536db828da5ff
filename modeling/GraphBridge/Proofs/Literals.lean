import GraphBridge.Proofs.Parameters
import GraphBridge.Query.Fragment

/-!
# Literals stand by themselves

A literal may stand in front of any text that goes on with neither a word nor a number. The scanner
then finds the tokens of the literal, in which brackets close as they were opened, and nothing of
what is behind is drawn in. And the literal can be read back there: what a key or a string holds is
escaped, so where one ends is seen from the text alone, and two values with the same literal are the
same value.
-/

namespace GraphBridge

/-- A value without doubles. -/
inductive Json.IsExact : Json → Prop where
  | null : IsExact .null
  | bool (value : Bool) : IsExact (.bool value)
  | natural (value : Nat) : IsExact (.number (.natural value))
  | negative (size : Nat) : IsExact (.number (.negative size))
  | string (value : String) : IsExact (.string value)
  | array (items : List Json) (each : ∀ item ∈ items, IsExact item) : IsExact (.array items)
  | object (members : List (String × Json)) (each : ∀ member ∈ members, IsExact member.2) :
      IsExact (.object members)

namespace Query

open Text Statement

/-! ## Nesting of brackets -/

/-- Whether a bracket closes another one. -/
def closesBracket (opening closing : Char) : Bool :=
  opening == '(' && closing == ')' || opening == '[' && closing == ']'
    || opening == '\x7b' && closing == '\x7d'

/-- The brackets that are open behind a token, innermost first, if it closes none but the innermost
of those that are open in front of it. -/
def nest (stack : List Char) (t : Token) : Option (List Char) :=
  match t.kind with
  | .symbol c =>
      if t.opens then some (c :: stack)
      else if t.closes then
        match stack with
        | opening :: outer => if closesBracket opening c then some outer else none
        | [] => none
      else some stack
  | _ => some stack

/-- Whether every bracket among tokens is closed by one of its kind, inner ones before outer
ones. -/
def IsNested (tokens : List Token) : Prop :=
  tokens.foldlM nest [] = some []

/-- A text of tokens that close the brackets which are open in front of it, and no others. -/
def Closes (stack : List Char) (text : List Char) : Prop :=
  ∀ start, ∃ tokens, tokensFrom start text = .ok tokens ∧ tokens.foldlM nest stack = some []

namespace Closes

variable {stack : List Char} {rest : List Char}

theorem nil : Closes [] [] := by
  intro start
  exact ⟨[], by rw [tokensFrom], rfl⟩

/-- A token in front. -/
theorem token {c : Char} {input taken behind : List Char} {kind : TokenKind}
    (scanned : munch c input = some (kind, taken, rest))
    (nests : ∀ t : Token, t.kind = kind → nest stack t = some behind)
    (later : Closes behind rest) : Closes stack (c :: input) := by
  intro start
  obtain ⟨tokens, lexed, closes⟩ := later (start + (String.ofList (c :: taken)).utf8ByteSize)
  refine ⟨⟨kind, String.ofList (c :: taken), start⟩ :: tokens, ?_, ?_⟩
  · rw [tokensFrom_of_munch scanned, lexed]
    rfl
  · rw [List.foldlM_cons, nests _ rfl]
    exact closes

/-- A token that is no bracket. -/
theorem other {c : Char} {input taken : List Char} {kind : TokenKind}
    (scanned : munch c input = some (kind, taken, rest)) (plain : ∀ d, kind ≠ .symbol d)
    (later : Closes stack rest) : Closes stack (c :: input) := by
  refine token scanned (fun t same => ?_) later
  unfold nest
  split
  · rename_i d symbol
    exact absurd (same.symm.trans symbol) (plain d)
  · rfl

/-- A mark that is no bracket. -/
theorem mark {c : Char} (known : c = ',' ∨ c = ':' ∨ c = '-') (later : Closes stack rest) :
    Closes stack (c :: rest) := by
  have known' : c ∈ marks := by rcases known with rfl | rfl | rfl <;> decide
  refine token (munch_mark (.inl known') rest) (fun t same => ?_) later
  rcases known with rfl | rfl | rfl <;>
    simp [nest, same, Token.opens, Token.closes, Token.isSymbol]

/-- A bracket that opens. -/
theorem opening {c : Char} (known : c = '[' ∨ c = '\x7b') (later : Closes (c :: stack) rest) :
    Closes stack (c :: rest) := by
  have known' : c ∈ marks := by rcases known with rfl | rfl <;> decide
  refine token (munch_mark (.inl known') rest) (fun t same => ?_) later
  rcases known with rfl | rfl <;> simp [nest, same, Token.opens, Token.isSymbol]

/-- A bracket that closes the innermost one. -/
theorem closing {c d : Char} (known : c = '[' ∧ d = ']' ∨ c = '\x7b' ∧ d = '\x7d')
    (later : Closes stack rest) : Closes (c :: stack) (d :: rest) := by
  have known' : d ∈ marks := by rcases known with ⟨-, rfl⟩ | ⟨-, rfl⟩ <;> decide
  refine token (munch_mark (.inl known') rest) (fun t same => ?_) later
  rcases known with ⟨rfl, rfl⟩ | ⟨rfl, rfl⟩ <;>
    simp [nest, same, Token.opens, Token.closes, Token.isSymbol, closesBracket]

end Closes

/-! ## What stands behind a literal -/

/-- A text that goes on with neither a word nor a number. -/
structure Ends (rest : List Char) : Prop where
  word : startsWith isIdentifierPart rest = false
  point : startsWith (· == '.') rest = false

namespace Ends

theorem nil : Ends [] :=
  ⟨rfl, rfl⟩

theorem mark {c : Char} (known : c ∈ marks) (rest : List Char) : Ends (c :: rest) := by
  have sign : c ∈ punctuation := List.mem_append_left _ (List.mem_append_left _ known)
  refine ⟨(apart_of_mem_punctuation sign).2.2, ?_⟩
  exact beq_eq_false_iff_ne.2 fun same => absurd (same ▸ known) (by decide)

variable {rest : List Char} (ends : Ends rest)
include ends

theorem digit : startsWith Char.isDigit rest = false := by
  cases rest with
  | nil => rfl
  | cons c rest =>
      refine Bool.eq_false_iff.2 fun digit => ?_
      have part : isIdentifierPart c = false := ends.word
      rw [(identifier_of_isDigit digit).1] at part
      cases part

theorem power : startsWith (fun c => c == 'e' || c == 'E') rest = false := by
  cases rest with
  | nil => rfl
  | cons c rest =>
      refine Bool.eq_false_iff.2 fun mark => ?_
      have part : isIdentifierPart c = false := ends.word
      simp only [startsWith, Bool.or_eq_true, beq_iff_eq] at mark
      rcases mark with rfl | rfl <;> exact absurd part (by decide)

end Ends

/-- A text that starts with no white space, and in front of what ends it falls into tokens of its
own that leave the open brackets as they are. -/
structure IsPiece (text : List Char) : Prop where
  solid : ∃ c more, text = c :: more ∧ isBlank c = false
  goes : ∀ stack rest, Ends rest → Closes stack rest → Closes stack (text ++ rest)

theorem IsPiece.blank {text : List Char} (piece : IsPiece text) (rest : List Char) :
    startsWith isBlank (text ++ rest) = false := by
  obtain ⟨c, more, rfl, blank⟩ := piece.solid
  exact blank

/-! ## Lists -/

/-- Texts with commas between them. -/
def listed : List (List Char) → List Char
  | [] => []
  | text :: rest => text ++ rest.flatMap fun more => ',' :: ' ' :: more

theorem intercalate_eq_listed (texts : List (List Char)) :
    [',', ' '].intercalate texts = listed texts := by
  induction texts with
  | nil => rfl
  | cons text rest ih =>
      cases rest with
      | nil => simp [listed]
      | cons next rest =>
          rw [List.intercalate_cons_cons, ih]
          simp [listed]

/-- Behind an item of a list there is a comma or the end. -/
theorem ends_list {closing : Char} (mark : closing ∈ marks) (more : List (List Char))
    (rest : List Char) :
    Ends ((more.flatMap fun text => ',' :: ' ' :: text) ++ closing :: rest) := by
  cases more with
  | nil => exact .mark mark rest
  | cons text more => exact .mark (by decide) _

/-- Items with commas between them in front of the bracket that closes them. -/
theorem closes_listed {stack rest : List Char} {closing : Char} (mark : closing ∈ marks)
    {texts : List (List Char)} (pieces : ∀ text ∈ texts, IsPiece text)
    (later : Closes stack (closing :: rest)) : Closes stack (listed texts ++ closing :: rest) := by
  have others (more : List (List Char)) (pieces : ∀ text ∈ more, IsPiece text) :
      Closes stack ((more.flatMap fun text => ',' :: ' ' :: text) ++ closing :: rest) := by
    induction more with
    | nil => exact later
    | cons text more ih =>
        obtain ⟨own, behind⟩ := List.forall_mem_cons.1 pieces
        have tail := own.goes stack _ (ends_list mark more rest) (ih behind)
        have gap := Closes.other (munch_blank (isBlank_of_space_or_line (.inl rfl))
          (own.blank _)) (by intro d same; cases same) tail
        have comma := Closes.mark (.inl rfl) gap
        simpa using comma
  cases texts with
  | nil => exact later
  | cons text more =>
      obtain ⟨own, behind⟩ := List.forall_mem_cons.1 pieces
      rw [listed, List.append_assoc]
      exact own.goes stack _ (ends_list mark more rest) (others more behind)

/-- Texts that can be told apart one by one can be told apart in a row, if none of them begins what
stands behind. -/
theorem flatMap_append_inj {α : Type} {text : α → List Char} (fits : List Char → Prop)
    (again : ∀ a rest, fits (text a ++ rest)) {as bs : List α}
    (apart : ∀ a ∈ as, ∀ b ∈ bs, ∀ rest rest', fits rest → fits rest' →
      text a ++ rest = text b ++ rest' → a = b ∧ rest = rest')
    {rest rest' : List Char} (fit : fits rest) (fit' : fits rest')
    (stop : ∀ a more, rest ≠ text a ++ more) (stop' : ∀ a more, rest' ≠ text a ++ more)
    (same : as.flatMap text ++ rest = bs.flatMap text ++ rest') : as = bs ∧ rest = rest' := by
  induction as generalizing bs with
  | nil =>
      cases bs with
      | nil => exact ⟨rfl, same⟩
      | cons b bs =>
          rw [List.flatMap_cons, List.append_assoc] at same
          exact absurd same (stop b _)
  | cons a as ih =>
      cases bs with
      | nil =>
          rw [List.flatMap_cons, List.append_assoc] at same
          exact absurd same.symm (stop' a _)
      | cons b bs =>
          have behind (cs : List α) {rest : List Char} (fit : fits rest) :
              fits (cs.flatMap text ++ rest) := by
            cases cs with
            | nil => exact fit
            | cons c cs =>
                rw [List.flatMap_cons, List.append_assoc]
                exact again c _
          rw [List.flatMap_cons, List.flatMap_cons, List.append_assoc, List.append_assoc] at same
          obtain ⟨rfl, tails⟩ := apart a List.mem_cons_self b List.mem_cons_self _ _
            (behind as fit) (behind bs fit') same
          obtain ⟨rfl, rests⟩ := ih (fun a mem b mem' =>
            apart a (List.mem_cons_of_mem _ mem) b (List.mem_cons_of_mem _ mem')) tails
          exact ⟨rfl, rests⟩

/-- Items that can be told apart one by one can be told apart in a list. -/
theorem listed_append_inj {α : Type} {text : α → List Char} {closing : Char}
    (mark : closing ∈ marks) (comma : closing ≠ ',') {as bs : List α}
    (begins : ∀ b ∈ as ++ bs, ∃ c more, text b = c :: more ∧ c ≠ closing)
    (apart : ∀ a ∈ as, ∀ b ∈ bs, ∀ rest rest', Ends rest → Ends rest' →
      text a ++ rest = text b ++ rest' → a = b ∧ rest = rest')
    {rest rest' : List Char}
    (same : listed (as.map text) ++ closing :: rest = listed (bs.map text) ++ closing :: rest') :
    as = bs ∧ rest = rest' := by
  -- an empty list ends where another one begins
  have differ {b : α} (mem : b ∈ as ++ bs) {front back : List Char} :
      closing :: front ≠ text b ++ back := by
    obtain ⟨c, more, shape, other⟩ := begins b mem
    rw [shape]
    exact fun same => other (List.cons.inj same).1.symm
  cases as with
  | nil =>
      cases bs with
      | nil => exact ⟨rfl, (List.cons.inj same).2⟩
      | cons b bs =>
          rw [List.map_cons, listed, List.append_assoc] at same
          exact absurd same (differ (List.mem_append_right _ List.mem_cons_self))
  | cons a as =>
      cases bs with
      | nil =>
          rw [List.map_cons, listed, List.append_assoc] at same
          exact absurd same.symm (differ (List.mem_append_left _ List.mem_cons_self))
      | cons b bs =>
          rw [List.map_cons, List.map_cons, listed, listed, List.append_assoc,
            List.append_assoc] at same
          obtain ⟨rfl, tails⟩ := apart a List.mem_cons_self b List.mem_cons_self _ _
            (ends_list mark _ _) (ends_list mark _ _) same
          rw [List.flatMap_map, List.flatMap_map] at tails
          have stop (rest : List Char) (a : α) (more : List Char) :
              closing :: rest ≠ (',' :: ' ' :: text a) ++ more :=
            fun same => comma (List.cons.inj same).1
          obtain ⟨rfl, rests⟩ := flatMap_append_inj Ends
            (fun a rest => .mark (by decide) _)
            (fun a mem b mem' rest rest' ends ends' same =>
              apart a (List.mem_cons_of_mem _ mem) b (List.mem_cons_of_mem _ mem') rest rest' ends
                ends' (List.cons.inj (List.cons.inj same).2).2)
            (.mark mark rest) (.mark mark rest') (stop rest) (stop rest') tails
          exact ⟨rfl, (List.cons.inj rests).2⟩

/-! ## Strings and keys -/

/-- A character in back quotes; a back quote is written twice. -/
def escapeKey (c : Char) : List Char :=
  if c == '`' then ['`', '`'] else [c]

theorem toList_keyLiteral {key : String} (other : isIdentifier key = false) :
    (keyLiteral key).toList = '`' :: (key.toList.flatMap escapeKey ++ ['`']) := by
  rw [keyLiteral, if_neg (by rw [other]; exact Bool.false_ne_true), String.toList_ofList]
  rfl

/-- Characters in back quotes fall into quoted identifiers, one more than there are back quotes
among them. -/
theorem closes_quoted {stack rest : List Char} (later : Closes stack rest) (text : List Char) :
    ∀ inner : List Char, '`' ∉ inner →
      Closes stack ('`' :: (inner ++ (text.flatMap escapeKey ++ '`' :: rest))) := by
  induction text with
  | nil =>
      intro inner free
      exact Closes.other (munch_backQuoted free rest) (by intro d same; cases same) later
  | cons c text ih =>
      intro inner free
      rw [List.flatMap_cons, List.append_assoc, escapeKey]
      split
      · -- the first of the two ends a token, the second begins another one
        have behind := ih [] List.not_mem_nil
        exact Closes.other (munch_backQuoted free _) (by intro d same; cases same) behind
      · rename_i other
        have free' : '`' ∉ inner ++ [c] := by
          rw [List.mem_append, List.mem_singleton, not_or]
          exact ⟨free, fun same => other (beq_iff_eq.2 same.symm)⟩
        have behind := ih (inner ++ [c]) free'
        rwa [List.append_assoc] at behind

/-- A key in front of what ends it. -/
theorem isPiece_keyLiteral (key : String) : IsPiece (keyLiteral key).toList := by
  cases identifier : isIdentifier key with
  | true =>
      have same : keyLiteral key = key := by rw [keyLiteral, if_pos identifier]
      obtain ⟨c, more, shape, start, parts⟩ := exists_cons_of_isIdentifier identifier
      rw [same, shape]
      refine ⟨⟨c, more, rfl, not_isBlank_of_isIdentifierPart (isIdentifierPart_of_start start)⟩, ?_⟩
      intro stack rest ends later
      exact Closes.other (munch_word start parts ends.word) (by intro d same; cases same) later
  | false =>
      rw [toList_keyLiteral identifier]
      refine ⟨⟨_, _, rfl, by decide⟩, fun stack rest ends later => ?_⟩
      have quoted := closes_quoted later key.toList [] List.not_mem_nil
      rwa [List.nil_append, List.append_cons] at quoted

theorem escapeKey_append_inj {c d : Char} {rest rest' : List Char}
    (same : escapeKey c ++ rest = escapeKey d ++ rest') : c = d ∧ rest = rest' := by
  unfold escapeKey at same
  split at same <;> split at same <;> grind

theorem escapeQuoted_append_inj {c d : Char} {rest rest' : List Char}
    (same : escapeQuoted c ++ rest = escapeQuoted d ++ rest') : c = d ∧ rest = rest' := by
  unfold escapeQuoted at same
  split at same <;> split at same <;> grind

/-- A text can be read back from its escaped characters in front of what none of them begins. -/
theorem escaped_append_inj {escape : Char → List Char} (close : List Char)
    (stop : ∀ rest c more, close ++ rest ≠ escape c ++ more)
    (next : ∀ c d rest rest', escape c ++ rest = escape d ++ rest' → c = d ∧ rest = rest')
    {text other : String} {rest rest' : List Char}
    (same : text.toList.flatMap escape ++ (close ++ rest)
      = other.toList.flatMap escape ++ (close ++ rest')) : text = other ∧ rest = rest' := by
  obtain ⟨texts, rests⟩ := flatMap_append_inj (fun _ => True) (fun _ _ => trivial)
    (fun c _ d _ rest rest' _ _ => next c d rest rest') trivial trivial (stop rest) (stop rest')
    same
  exact ⟨String.toList_injective texts, List.append_cancel_left rests⟩

/-- A string can be read back from its literal, whatever stands behind. -/
theorem stringLiteral_append_inj {text other : String} {rest rest' : List Char}
    (same : (stringLiteral text).toList ++ rest = (stringLiteral other).toList ++ rest') :
    text = other ∧ rest = rest' := by
  have stop (rest : List Char) (c : Char) (more : List Char) :
      ['\''] ++ rest ≠ escapeQuoted c ++ more := by
    unfold escapeQuoted
    split <;> grind
  rw [Spelled.toList_stringLiteral, Spelled.toList_stringLiteral, List.cons_append,
    List.cons_append, List.append_assoc, List.append_assoc] at same
  exact escaped_append_inj ['\''] stop (fun _ _ _ _ => escapeQuoted_append_inj)
    (List.cons.inj same).2

/-- A key can be read back in front of its colon. -/
theorem keyLiteral_append_inj {key other : String} {rest rest' : List Char}
    (same : (keyLiteral key).toList ++ ':' :: rest = (keyLiteral other).toList ++ ':' :: rest') :
    key = other ∧ rest = rest' := by
  have bare {key : String} (identifier : isIdentifier key = true) : keyLiteral key = key := by
    rw [keyLiteral, if_pos identifier]
  have apart {key other : String} {rest rest' : List Char} (identifier : isIdentifier key = true)
      (none : isIdentifier other = false) :
      (keyLiteral key).toList ++ rest ≠ (keyLiteral other).toList ++ rest' := by
    obtain ⟨c, more, shape, start, -⟩ := exists_cons_of_isIdentifier identifier
    rw [bare identifier, toList_keyLiteral none, shape]
    intro same
    exact ne_of_mem_punctuation (isIdentifierPart_of_start start) (by decide)
      (List.cons.inj same).1
  cases first : isIdentifier key with
  | true =>
      cases second : isIdentifier other with
      | true =>
          rw [bare first, bare second] at same
          have stop (rest : List Char) : startsWith isIdentifierPart (':' :: rest) = false :=
            (Ends.mark (by decide) rest).word
          obtain ⟨taken, left⟩ := takeWhile_append_of_stop (all_isIdentifierPart first) (stop rest)
          obtain ⟨taken', left'⟩ :=
            takeWhile_append_of_stop (all_isIdentifierPart second) (stop rest')
          rw [same] at taken left
          exact ⟨String.toList_injective (taken.symm.trans taken'),
            (List.cons.inj (left.symm.trans left')).2⟩
      | false => exact absurd same (apart first second)
  | false =>
      cases second : isIdentifier other with
      | true => exact absurd same.symm (apart second first)
      | false =>
          have stop (rest : List Char) (c : Char) (more : List Char) :
              ['`', ':'] ++ rest ≠ escapeKey c ++ more := by
            unfold escapeKey
            split <;> grind
          rw [toList_keyLiteral first, toList_keyLiteral second, List.cons_append,
            List.cons_append, List.append_assoc, List.append_assoc] at same
          exact escaped_append_inj ['`', ':'] stop (fun _ _ _ _ => escapeKey_append_inj)
            (List.cons.inj same).2

/-! ## Literals -/

theorem itemLiterals_eq (items : List Json) : itemLiterals items = items.map literal := by
  induction items with
  | nil => rfl
  | cons item rest ih => rw [itemLiterals, ih, List.map_cons]

/-- A member of an object as text. -/
def memberText (member : String × Json) : List Char :=
  (keyLiteral member.1).toList ++ ':' :: ' ' :: (literal member.2).toList

theorem memberLiterals_eq (members : List (String × Json)) :
    (memberLiterals members).map String.toList = members.map memberText := by
  induction members with
  | nil => rfl
  | cons member rest ih =>
      rw [memberLiterals, List.map_cons, List.map_cons, ih]
      simp [memberText]

theorem toList_negative (size : Nat) :
    (literal (.number (.negative size))).toList = '-' :: (toString size).toList :=
  String.toList_append

theorem toList_array (items : List Json) :
    (literal (.array items)).toList
      = '[' :: (listed (items.map fun item => (literal item).toList) ++ [']']) := by
  simp [literal, itemLiterals_eq, Function.comp_def, intercalate_eq_listed]

theorem toList_object (members : List (String × Json)) :
    (literal (.object members)).toList
      = '\x7b' :: (listed (members.map memberText) ++ ['\x7d']) := by
  simp [literal, memberLiterals_eq, intercalate_eq_listed]

/-- A word as a piece. -/
theorem isPiece_word {word : String} (identifier : isIdentifier word = true) :
    IsPiece word.toList := by
  have same : keyLiteral word = word := by rw [keyLiteral, if_pos identifier]
  exact same ▸ isPiece_keyLiteral word

theorem isPiece_digits (value : Nat) : IsPiece (toString value).toList := by
  obtain ⟨c, more, shape, digit, digits⟩ := Spelled.digits_toString value
  rw [shape]
  refine ⟨⟨c, more, rfl, not_isBlank_of_isIdentifierPart (identifier_of_isDigit digit).1⟩, ?_⟩
  intro stack rest ends later
  exact Closes.other (munch_digits digit digits ends.digit ends.point ends.power)
    (by intro d same; cases same) later

/-- A text in brackets. -/
theorem isPiece_bracketed {c d : Char} (known : c = '[' ∧ d = ']' ∨ c = '\x7b' ∧ d = '\x7d')
    {texts : List (List Char)} (pieces : ∀ text ∈ texts, IsPiece text) :
    IsPiece (c :: (listed texts ++ [d])) := by
  have mark : d ∈ marks := by rcases known with ⟨-, rfl⟩ | ⟨-, rfl⟩ <;> decide
  have opens : c = '[' ∨ c = '\x7b' := known.imp And.left And.left
  refine ⟨⟨c, _, rfl, by rcases opens with rfl | rfl <;> decide⟩, fun stack rest ends later => ?_⟩
  have inner := closes_listed mark pieces (Closes.closing known later)
  rw [List.cons_append, List.append_assoc]
  exact Closes.opening opens inner

theorem isPiece_member {member : String × Json} (piece : IsPiece (literal member.2).toList) :
    IsPiece (memberText member) := by
  obtain ⟨c, more, shape, blank⟩ := (isPiece_keyLiteral member.1).solid
  refine ⟨⟨c, _, by rw [memberText, shape]; rfl, blank⟩, fun stack rest ends later => ?_⟩
  have gap := Closes.other (munch_blank (isBlank_of_space_or_line (.inl rfl)) (piece.blank rest))
    (by intro d same; cases same) (piece.goes stack rest ends later)
  have colon := Closes.mark (.inr (.inl rfl)) gap
  rw [memberText, List.append_assoc]
  exact (isPiece_keyLiteral member.1).goes stack _ (.mark (by decide) _) colon

/-- The literal of a value is a piece. -/
theorem isPiece_literal {v : Json} (exact : v.IsExact) : IsPiece (literal v).toList := by
  induction exact with
  | null => exact isPiece_word (by decide +kernel)
  | bool value => cases value <;> exact isPiece_word (by decide +kernel)
  | natural value => exact isPiece_digits value
  | negative size =>
      rw [toList_negative]
      refine ⟨⟨'-', _, rfl, by decide⟩, fun stack rest ends later => ?_⟩
      exact Closes.mark (.inr (.inr rfl)) ((isPiece_digits size).goes stack rest ends later)
  | string value =>
      refine ⟨⟨'\'', _, Spelled.toList_stringLiteral value, by decide⟩,
        fun stack rest ends later => ?_⟩
      rw [literal, Spelled.toList_stringLiteral, List.cons_append, List.append_assoc]
      exact Closes.other (munch_escaped _ _) (by intro d same; cases same) later
  | array items _ ih =>
      rw [toList_array]
      exact isPiece_bracketed (.inl ⟨rfl, rfl⟩) (List.forall_mem_map.2 ih)
  | object members _ ih =>
      rw [toList_object]
      exact isPiece_bracketed (.inr ⟨rfl, rfl⟩)
        (List.forall_mem_map.2 fun member mem => isPiece_member (ih member mem))

/-! ## Reading back -/

/-- The kinds of values that the first character of a literal tells apart. -/
inductive Shape where
  | null
  | truth
  | number
  | string
  | array
  | object

/-- The kind of a value. -/
def Shape.ofJson : Json → Shape
  | .null => .null
  | .bool _ => .truth
  | .number _ => .number
  | .string _ => .string
  | .array _ => .array
  | .object _ => .object

/-- What the first character of a literal says. -/
def Shape.ofFirst (c : Char) : Shape :=
  if c == 'n' then .null
  else if c == 't' || c == 'f' then .truth
  else if c == '\'' then .string
  else if c == '[' then .array
  else if c == '\x7b' then .object
  else .number

theorem first_of_isDigit {c : Char} (digit : c.isDigit = true) :
    Shape.ofFirst c = .number ∧ c ≠ ']' ∧ c ≠ '\x7d' := by
  have found := forall_ascii
    (fun c => !c.isDigit || !(c == 'n' || c == 't' || c == 'f' || c == '\'' || c == '['
      || c == '\x7b' || c == ']' || c == '\x7d')) (by decide +kernel) (toNat_lt_of_isDigit digit)
  simp only [digit, Bool.not_true, Bool.false_or, Bool.not_eq_true', Bool.or_eq_false_iff,
    beq_eq_false_iff_ne] at found
  simp [Shape.ofFirst, found]

/-- A literal begins with what tells its kind, and never with the end of a list. -/
theorem first_literal {v : Json} (exact : v.IsExact) :
    ∃ c more, (literal v).toList = c :: more ∧ Shape.ofFirst c = .ofJson v ∧ c ≠ ']'
      ∧ c ≠ '\x7d' := by
  cases exact with
  | null => exact ⟨'n', "ull".toList, rfl, rfl, by decide⟩
  | bool value =>
      cases value with
      | false => exact ⟨'f', "alse".toList, rfl, rfl, by decide⟩
      | true => exact ⟨'t', "rue".toList, rfl, rfl, by decide⟩
  | natural value =>
      obtain ⟨c, more, shape, digit, -⟩ := Spelled.digits_toString value
      exact ⟨c, more, shape, first_of_isDigit digit⟩
  | negative size => exact ⟨'-', _, toList_negative size, rfl, by decide⟩
  | string value => exact ⟨'\'', _, Spelled.toList_stringLiteral value, rfl, by decide⟩
  | array items => exact ⟨'[', _, toList_array items, rfl, by decide⟩
  | object members => exact ⟨'\x7b', _, toList_object members, rfl, by decide⟩

theorem ofJson_eq {v w : Json} (exact : v.IsExact) (exact' : w.IsExact) {rest rest' : List Char}
    (same : (literal v).toList ++ rest = (literal w).toList ++ rest') :
    Shape.ofJson v = .ofJson w := by
  obtain ⟨c, more, text, shape, -⟩ := first_literal exact
  obtain ⟨d, more', text', shape', -⟩ := first_literal exact'
  rw [text, text'] at same
  rw [← shape, ← shape', (List.cons.inj same).1]

/-- A number can be read back from its digits in front of what ends it. -/
theorem digits_append_inj {m n : Nat} {rest rest' : List Char} (ends : Ends rest)
    (ends' : Ends rest') (same : (toString m).toList ++ rest = (toString n).toList ++ rest') :
    m = n ∧ rest = rest' := by
  have digits (n : Nat) : (toString n).toList.all Char.isDigit = true := by
    obtain ⟨c, more, shape, digit, digits⟩ := Spelled.digits_toString n
    rw [shape, List.all_cons, digit, digits]
    rfl
  obtain ⟨taken, left⟩ := takeWhile_append_of_stop (digits m) ends.digit
  obtain ⟨taken', left'⟩ := takeWhile_append_of_stop (digits n) ends'.digit
  rw [same] at taken left
  exact ⟨Builder.toString_injective (String.toList_injective (taken.symm.trans taken')),
    left.symm.trans left'⟩

/-- A member can be read back if its value can. -/
theorem memberText_append_inj {a b : String × Json} {rest rest' : List Char}
    (value : ∀ rest rest', Ends rest → Ends rest' →
      (literal a.2).toList ++ rest = (literal b.2).toList ++ rest' → a.2 = b.2 ∧ rest = rest')
    (ends : Ends rest) (ends' : Ends rest') (same : memberText a ++ rest = memberText b ++ rest') :
    a = b ∧ rest = rest' := by
  rw [memberText, memberText, List.append_assoc, List.append_assoc] at same
  obtain ⟨keys, behind⟩ := keyLiteral_append_inj same
  obtain ⟨values, rests⟩ := value rest rest' ends ends' (List.cons.inj behind).2
  exact ⟨Prod.ext keys values, rests⟩

/-- Digits do not begin with a minus sign. -/
theorem digits_append_ne (n : Nat) (rest behind : List Char) :
    (toString n).toList ++ rest ≠ '-' :: behind := by
  obtain ⟨c, more, shape, digit, -⟩ := Spelled.digits_toString n
  rw [shape]
  intro same
  rw [(List.cons.inj same).1] at digit
  exact absurd digit (by decide)

/-- A member does not begin with what ends an object. -/
theorem first_memberText (member : String × Json) :
    ∃ c more, memberText member = c :: more ∧ c ≠ '\x7d' := by
  rw [memberText]
  cases identifier : isIdentifier member.1 with
  | true =>
      obtain ⟨c, more, shape, start, -⟩ := exists_cons_of_isIdentifier identifier
      rw [keyLiteral, if_pos identifier, shape]
      exact ⟨c, _, rfl, ne_of_mem_punctuation (isIdentifierPart_of_start start) (by decide)⟩
  | false =>
      rw [toList_keyLiteral identifier]
      exact ⟨'`', _, rfl, by decide⟩

/-- A value can be read back from its literal in front of what ends it. -/
theorem literal_append_inj {v w : Json} (exact : v.IsExact) (exact' : w.IsExact)
    {rest rest' : List Char} (ends : Ends rest) (ends' : Ends rest')
    (same : (literal v).toList ++ rest = (literal w).toList ++ rest') : v = w ∧ rest = rest' := by
  induction exact generalizing w rest rest' with
  | null =>
      have alike := ofJson_eq .null exact' same
      cases exact' with
      | null => exact ⟨rfl, List.append_cancel_left same⟩
      | _ => cases alike
  | bool value =>
      have alike := ofJson_eq (.bool value) exact' same
      cases exact' with
      | bool other =>
          cases value <;> cases other
          · exact ⟨rfl, List.append_cancel_left same⟩
          · cases same
          · cases same
          · exact ⟨rfl, List.append_cancel_left same⟩
      | _ => cases alike
  | natural value =>
      have alike := ofJson_eq (.natural value) exact' same
      cases exact' with
      | natural other =>
          obtain ⟨rfl, rests⟩ := digits_append_inj ends ends' same
          exact ⟨rfl, rests⟩
      | negative size =>
          rw [toList_negative, List.cons_append] at same
          exact absurd same (digits_append_ne value _ _)
      | _ => cases alike
  | negative size =>
      have alike := ofJson_eq (.negative size) exact' same
      cases exact' with
      | natural other =>
          rw [toList_negative, List.cons_append] at same
          exact absurd same.symm (digits_append_ne other _ _)
      | negative other =>
          rw [toList_negative, toList_negative, List.cons_append, List.cons_append] at same
          obtain ⟨rfl, rests⟩ := digits_append_inj ends ends' (List.cons.inj same).2
          exact ⟨rfl, rests⟩
      | _ => cases alike
  | string value =>
      have alike := ofJson_eq (.string value) exact' same
      cases exact' with
      | string other =>
          obtain ⟨rfl, rests⟩ := stringLiteral_append_inj same
          exact ⟨rfl, rests⟩
      | _ => cases alike
  | array items each ih =>
      have alike := ofJson_eq (.array items each) exact' same
      cases exact' with
      | array others each' =>
          rw [toList_array, toList_array, List.cons_append, List.cons_append, List.append_assoc,
            List.append_assoc] at same
          obtain ⟨rfl, rests⟩ := listed_append_inj (by decide) (by decide)
            (fun item mem => by
              have exact := (List.mem_append.1 mem).elim (each item) (each' item)
              obtain ⟨c, more, text, -, other, -⟩ := first_literal exact
              exact ⟨c, more, text, other⟩)
            (fun a mem b mem' _ _ ends ends' same => ih a mem (each' b mem') ends ends' same)
            (List.cons.inj same).2
          exact ⟨rfl, rests⟩
      | _ => cases alike
  | object members each ih =>
      have alike := ofJson_eq (.object members each) exact' same
      cases exact' with
      | object others each' =>
          rw [toList_object, toList_object, List.cons_append, List.cons_append, List.append_assoc,
            List.append_assoc] at same
          obtain ⟨rfl, rests⟩ := listed_append_inj (by decide) (by decide)
            (fun member _ => first_memberText member)
            (fun a mem b mem' _ _ ends ends' same => memberText_append_inj
              (fun _ _ ends ends' same => ih a mem (each' b mem') ends ends' same) ends ends' same)
            (List.cons.inj same).2
          exact ⟨rfl, rests⟩
      | _ => cases alike

/-! ## A literal alone -/

/-- The tokens of a literal are nested. -/
theorem nested_literal {v : Json} (exact : v.IsExact) :
    ∃ f, Fragment.ofText (literal v) = .ok f ∧ IsNested f.tokens := by
  obtain ⟨tokens, lexed, closes⟩ := (isPiece_literal exact).goes [] [] .nil .nil 0
  rw [List.append_nil] at lexed
  refine ⟨⟨tokens⟩, ?_, closes⟩
  rw [Fragment.ofText, tokenize, lexed]
  rfl

/-- The literal of a string is one token. -/
theorem tokenize_stringLiteral (text : String) :
    tokenize (stringLiteral text) = .ok [⟨.string, stringLiteral text, 0⟩] := by
  have shape := Spelled.toList_stringLiteral text
  have whole : String.ofList ('\'' :: (text.toList.flatMap escapeQuoted ++ ['\'']))
      = stringLiteral text := by
    rw [← shape, String.ofList_toList]
  rw [tokenize, shape, tokensFrom_of_munch (munch_escaped text.toList []), whole, tokensFrom]
  rfl

/-- The literal of a value without doubles is lexed into nested tokens, a single one for a string,
and no other such value has the same literal. -/
theorem literal_stands_alone {v : Json} (exact : v.IsExact) :
    (∃ f, Fragment.ofText (literal v) = .ok f ∧ IsNested f.tokens
        ∧ ∀ text, v = .string text →
          ∃ t, f.tokens = [t] ∧ t.kind = .string ∧ t.text = literal v)
      ∧ ∀ w : Json, w.IsExact → literal v = literal w → v = w := by
  obtain ⟨f, lexed, nested⟩ := nested_literal exact
  refine ⟨⟨f, lexed, nested, ?_⟩, fun w exact' same => ?_⟩
  · rintro text rfl
    rw [Fragment.ofText, literal, tokenize_stringLiteral] at lexed
    cases lexed
    exact ⟨_, rfl, rfl, rfl⟩
  · exact (literal_append_inj exact exact' .nil .nil (by rw [same])).1

/-- A key with a back quote, a colon and a quote in it, in front of a text with an escape and what
would close the object. -/
theorem literal_stands_alone_quotes :
    (Json.object [("a`: 'b", .string "it's \\'\x7d, "), ("", .number (.negative 1))]).IsExact
      ∧ (∃ f, Fragment.ofText (literal
          (.object [("a`: 'b", .string "it's \\'\x7d, "), ("", .number (.negative 1))])) = .ok f
        ∧ IsNested f.tokens)
      ∧ literal (.object [("a`: 'b", .string "it's \\'\x7d, "), ("", .number (.negative 1))])
        ≠ literal (.object [("a", .string "b: 'it's \\'\x7d, "), ("", .number (.negative 1))]) := by
  have exact (first second : String) : (Json.object
      [(first, .string second), ("", .number (.negative 1))]).IsExact :=
    .object _ (by simpa using ⟨.string second, .negative 1⟩)
  obtain ⟨⟨f, lexed, nested, -⟩, alone⟩ :=
    literal_stands_alone (exact "a`: 'b" "it's \\'\x7d, ")
  exact ⟨exact _ _, ⟨f, lexed, nested⟩, fun same => absurd (alone _ (exact _ _) same) (by simp)⟩

end Query

end GraphBridge
