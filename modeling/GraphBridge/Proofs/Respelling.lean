import GraphBridge.Proofs.Outcome
import GraphBridge.Proofs.Uncommented

/-!
# Renaming rewrites the text

Where a token ends is decided by what stands behind it, but not by much of it: by the class of one
character, and for a number by a second one. An identifier that is put in place of another one
begins with a character of the same class, and with what stands behind that identifier it ends where
it should. So a text in which identifiers are replaced by identifiers falls into the same tokens,
unless one of them is replaced behind a number, which might go on with what is now there.
-/

namespace GraphBridge.Query

open Text

/-! ## What stands behind a token -/

/-- Texts with the same first character, or both with an identifier at the beginning. -/
def BeginAlike (text other : List Char) : Prop :=
  text.head? = other.head?
    ∨ startsWith isIdentifierStart text = true ∧ startsWith isIdentifierStart other = true

/-- The second text goes on no further than the first one: it is empty or has the same first
character, and no digit behind that unless the first one has. -/
structure NoFurther (text other : List Char) : Prop where
  head : ∀ c ∈ other.head?, text.head? = some c
  digit : startsWith Char.isDigit other.tail = true → startsWith Char.isDigit text.tail = true

/-- What an identifier may begin with belongs to no other class than that of its parts. -/
theorem class_of_isIdentifierStart {c : Char} (start : isIdentifierStart c = true) :
    isIdentifierPart c = true ∧ isBlank c = false ∧ c.isDigit = false ∧ c ≠ '/' ∧ c ≠ '\n' := by
  have part := isIdentifierPart_of_start start
  have blank := not_isBlank_of_isIdentifierPart part
  refine ⟨part, blank, ?_, ne_of_mem_punctuation part (by decide), ?_⟩
  · cases digit : c.isDigit with
    | false => rfl
    | true =>
        rw [(identifier_of_isDigit digit).2] at start
        cases start
  · rintro rfl
    rw [isBlank_of_space_or_line (.inr rfl)] at blank
    cases blank

theorem startsWith_of_head? {text other : List Char} (same : text.head? = other.head?)
    (accepts : Char → Bool) : startsWith accepts text = startsWith accepts other := by
  cases text with
  | nil =>
      cases other with
      | nil => rfl
      | cons d other => cases same
  | cons c text =>
      cases other with
      | nil => cases same
      | cons d other =>
          cases same
          rfl

namespace BeginAlike

variable {text other : List Char} (alike : BeginAlike text other)
include alike

/-- Texts that begin alike begin alike for every class that tells no identifiers apart. -/
theorem startsWith_eq {accepts : Char → Bool} {value : Bool}
    (uniform : ∀ c, isIdentifierStart c = true → accepts c = value) :
    startsWith accepts text = startsWith accepts other := by
  rcases alike with same | ⟨first, second⟩
  · exact startsWith_of_head? same accepts
  have begins {text : List Char} (start : startsWith isIdentifierStart text = true) :
      startsWith accepts text = value := by
    cases text with
    | nil => cases start
    | cons c text => exact uniform c start
  rw [begins first, begins second]

theorem blank : startsWith isBlank text = startsWith isBlank other :=
  alike.startsWith_eq fun _ start => (class_of_isIdentifierStart start).2.1

theorem part : startsWith isIdentifierPart text = startsWith isIdentifierPart other :=
  alike.startsWith_eq fun _ start => (class_of_isIdentifierStart start).1

theorem start : startsWith isIdentifierStart text = startsWith isIdentifierStart other :=
  alike.startsWith_eq fun _ start => start

theorem digit : startsWith Char.isDigit text = startsWith Char.isDigit other :=
  alike.startsWith_eq fun _ start => (class_of_isIdentifierStart start).2.2.1

theorem slash : startsWith (· == '/') text = startsWith (· == '/') other :=
  alike.startsWith_eq fun _ start =>
    beq_eq_false_iff_ne.2 (class_of_isIdentifierStart start).2.2.2.1

theorem line : startsWith (· != '\n') text = startsWith (· != '\n') other :=
  alike.startsWith_eq fun _ start => bne_iff_ne.2 (class_of_isIdentifierStart start).2.2.2.2

/-- Behind the same text, texts that begin alike do so no less. -/
theorem behind (front : List Char) : BeginAlike (front ++ text) (front ++ other) := by
  cases front with
  | nil => exact alike
  | cons c front => exact .inl rfl

end BeginAlike

namespace NoFurther

variable {text other : List Char} (less : NoFurther text other)
include less

theorem stop {accepts : Char → Bool} (stop : startsWith accepts text = false) :
    startsWith accepts other = false := by
  cases other with
  | nil => rfl
  | cons c other =>
      obtain ⟨rest, rfl⟩ := List.head?_eq_some_iff.1 (less.head c rfl)
      exact stop

/-- Behind the same text, a text goes on no further if it does not by itself. -/
theorem behind (front : List Char) : NoFurther (front ++ text) (front ++ other) := by
  match front with
  | [] => exact less
  | [_] =>
      refine ⟨fun _ first => first, fun digit => ?_⟩
      by_contra none
      rw [List.singleton_append, List.tail_cons] at digit none
      rw [less.stop (Bool.eq_false_iff.2 none)] at digit
      cases digit
  | _ :: _ :: _ => exact ⟨fun _ first => first, id⟩

end NoFurther

/-! ## The same token in front of another text -/

/-- The longest run of a class is the same in front of a text that goes on with the class no
more than the first one did. -/
theorem span_replace {accepts : Char → Bool} {taken rest other : List Char}
    (stop : startsWith accepts rest = false → startsWith accepts other = false)
    (span : (taken ++ rest).takeWhile accepts = taken)
    (left : (taken ++ rest).dropWhile accepts = rest) :
    (taken ++ other).takeWhile accepts = taken ∧ (taken ++ other).dropWhile accepts = other := by
  have all : taken.all accepts = true := by
    rw [← span]
    exact List.all_takeWhile
  have ends : startsWith accepts rest = false := by
    rw [← left]
    exact startsWith_dropWhile accepts _
  exact takeWhile_append_of_stop all (stop ends)

/-- A mark is taken if there is a digit behind it. -/
theorem scanMarkedDigits_cons (isMark : Char → Bool) (mark : Char) (rest : List Char) :
    scanMarkedDigits isMark (mark :: rest)
      = if isMark mark && startsWith Char.isDigit rest then
          (mark :: rest.takeWhile Char.isDigit, rest.dropWhile Char.isDigit)
        else ([], mark :: rest) := by
  cases rest with
  | nil => simp [scanMarkedDigits, startsWith]
  | cons digit rest => rfl

theorem scanMarkedDigits_replace {isMark : Char → Bool} {taken rest other : List Char}
    (scanned : scanMarkedDigits isMark (taken ++ rest) = (taken, rest))
    (less : NoFurther rest other) :
    scanMarkedDigits isMark (taken ++ other) = (taken, other) := by
  cases taken with
  | nil =>
      rw [List.nil_append] at scanned ⊢
      cases other with
      | nil => rfl
      | cons mark other =>
          obtain ⟨rest, rfl⟩ := List.head?_eq_some_iff.1 (less.head mark rfl)
          rw [scanMarkedDigits_cons] at scanned ⊢
          split at scanned
          · cases scanned
          · rename_i none
            refine if_neg fun marked => none ?_
            rw [Bool.and_eq_true] at marked ⊢
            exact ⟨marked.1, less.digit marked.2⟩
  | cons mark digits =>
      rw [List.cons_append, scanMarkedDigits_cons] at scanned ⊢
      split at scanned
      · rename_i marked
        obtain ⟨taken, left⟩ := Prod.mk.inj scanned
        have spanned := (List.cons.inj taken).2
        obtain ⟨taken', left'⟩ := span_replace less.stop spanned left
        -- there are digits behind the mark, which do not depend on what follows
        have front : startsWith Char.isDigit (digits ++ other) = true := by
          rw [Bool.and_eq_true] at marked
          cases digits with
          | cons digit digits => exact marked.2
          | nil =>
              have stop := startsWith_dropWhile Char.isDigit ([] ++ rest)
              rw [left, ← List.nil_append rest, marked.2] at stop
              cases stop
        rw [if_pos (Bool.and_eq_true_iff.2 ⟨(Bool.and_eq_true_iff.1 marked).1, front⟩), taken',
          left']
      · cases scanned

theorem scanNumber_replace {taken rest other : List Char}
    (scanned : scanNumber (taken ++ rest) = (taken, rest)) (less : NoFurther rest other) :
    scanNumber (taken ++ other) = (taken, other) := by
  have whole := List.takeWhile_append_dropWhile (p := Char.isDigit) (l := taken ++ rest)
  unfold scanNumber at scanned
  generalize spanned : (taken ++ rest).takeWhile Char.isDigit = digits,
    left : (taken ++ rest).dropWhile Char.isDigit = behind at scanned whole
  -- the digits, the fraction and the power of the number, each with what it leaves
  have joined := scanMarkedDigits_append (· == '.') behind
  generalize pointed : scanMarkedDigits (· == '.') behind = parts at scanned joined
  obtain ⟨fraction, later⟩ := parts
  have joined' := scanMarkedDigits_append (fun c => c == 'e' || c == 'E') later
  dsimp only at scanned joined
  generalize raised : scanMarkedDigits (fun c => c == 'e' || c == 'E') later = parts
    at scanned joined'
  obtain ⟨power, last⟩ := parts
  dsimp only at joined'
  cases scanned
  subst joined' joined
  have powers := scanMarkedDigits_replace raised less
  have fractions := scanMarkedDigits_replace pointed (less.behind power)
  rw [← whole] at spanned left
  obtain ⟨digits', left'⟩ := span_replace ((less.behind power).behind fraction).stop spanned left
  rw [List.append_assoc, List.append_assoc, scanNumber, digits', left']
  dsimp only
  rw [fractions]
  dsimp only
  rw [powers, List.append_assoc]

/-- How the scanner goes on is the same in front of a text that begins alike. -/
theorem scanOf_replace {input other : List Char} (alike : BeginAlike input other) (c : Char) :
    scanOf c input = scanOf c other := by
  simp only [scanOf, alike.slash, alike.start]

/-- A token is the same in front of another text, if the scanner goes on in the same way and stops
where it did. -/
theorem munch_of_scanOf {c : Char} {taken rest other : List Char} {kind : TokenKind}
    (scanned : munch c (taken ++ rest) = some (kind, taken, rest))
    (same : scanOf c (taken ++ rest) = scanOf c (taken ++ other))
    (stop : ∀ accepts ∈ [isBlank, (· != '\n'), isIdentifierPart],
      startsWith accepts rest = false → startsWith accepts other = false)
    (number : kind = .number → NoFurther rest other) :
    munch c (taken ++ other) = some (kind, taken, other) := by
  rw [munch_eq_take] at scanned ⊢
  rw [← same]
  cases scan : scanOf c (taken ++ rest) with
  | blanks =>
      rw [scan, Scan.take, Option.some_inj, Prod.mk.injEq, Prod.mk.injEq] at scanned
      obtain ⟨taken', left⟩ := span_replace (stop _ (by simp)) scanned.2.1 scanned.2.2
      rw [Scan.take, taken', left, scanned.1]
  | comment =>
      rw [scan, Scan.take, Option.some_inj, Prod.mk.injEq, Prod.mk.injEq] at scanned
      obtain ⟨taken', left⟩ := span_replace (stop _ (by simp)) scanned.2.1 scanned.2.2
      rw [Scan.take, taken', left, scanned.1]
  | word word =>
      rw [scan, Scan.take, Option.some_inj, Prod.mk.injEq, Prod.mk.injEq] at scanned
      obtain ⟨taken', left⟩ := span_replace (stop _ (by simp)) scanned.2.1 scanned.2.2
      rw [Scan.take, taken', left, scanned.1]
  | quoted quoted =>
      rw [scan] at scanned
      obtain ⟨⟨inner, left⟩, found, same⟩ := Option.map_eq_some_iff.1 scanned
      cases same
      rw [Scan.take, scanQuoted_taken_append found]
      rfl
  | number =>
      rw [scan, Scan.take, Option.some_inj, Prod.mk.injEq, Prod.mk.injEq] at scanned
      obtain ⟨rfl, first, second⟩ := scanned
      rw [Scan.take, scanNumber_replace (Prod.ext first second) (number rfl)]
  | symbol =>
      rw [scan, Scan.take, Option.some_inj, Prod.mk.injEq, Prod.mk.injEq] at scanned
      obtain ⟨rfl, rfl, -⟩ := scanned
      rfl

/-- A token is the same in front of a text that begins alike, and goes on no further if the token is
a number. -/
theorem munch_replace {c : Char} {taken rest other : List Char} {kind : TokenKind}
    (scanned : munch c (taken ++ rest) = some (kind, taken, rest))
    (alike : BeginAlike rest other) (number : kind = .number → NoFurther rest other) :
    munch c (taken ++ other) = some (kind, taken, other) := by
  refine munch_of_scanOf scanned (scanOf_replace (alike.behind taken) c) ?_ number
  simp only [List.forall_mem_cons]
  exact ⟨alike.blank.symm.trans, alike.line.symm.trans, alike.part.symm.trans,
    List.forall_mem_nil _⟩

/-- An identifier begins as one, and what is behind it does not go on with it. -/
theorem identifier_of_munch {c : Char} {input taken rest : List Char}
    (scanned : munch c input = some (.identifier, taken, rest)) :
    isIdentifierStart c = true ∧ startsWith isIdentifierPart rest = false := by
  unfold munch at scanned
  split at scanned
  · cases scanned
  split at scanned
  · cases scanned
  split at scanned
  · obtain ⟨_, -, same⟩ := Option.map_eq_some_iff.1 scanned
    cases same
  split at scanned
  · obtain ⟨_, -, same⟩ := Option.map_eq_some_iff.1 scanned
    cases same
  split at scanned
  · cases scanned
  split at scanned
  · cases scanned
  split at scanned
  · rename_i start
    cases scanned
    exact ⟨start, startsWith_dropWhile isIdentifierPart input⟩
  · cases scanned

/-- What the scanner takes as an identifier. -/
theorem parts_of_munch {c : Char} {input taken rest : List Char}
    (scanned : munch c input = some (.identifier, taken, rest)) :
    taken.all isIdentifierPart = true := by
  have begins := (identifier_of_munch scanned).1
  have parts : (input.takeWhile isIdentifierPart).all isIdentifierPart = true := List.all_takeWhile
  have word := munch_word begins parts (startsWith_dropWhile isIdentifierPart input)
  rw [List.takeWhile_append_dropWhile, scanned] at word
  cases word
  exact parts

/-! ## Tokens that are scanned one after the other -/

/-- Tokens that the scanner finds one after the other in what they spell. -/
inductive Munched : List Token → Prop where
  | nil : Munched []
  | cons {t : Token} {rest : List Token} {c : Char} {taken : List Char}
      (text : t.text.toList = c :: taken)
      (scanned : munch c (taken ++ spelling rest) = some (t.kind, taken, spelling rest))
      (later : Munched rest) : Munched (t :: rest)

theorem munched_of_tokensFrom {start : Nat} {text : List Char} {tokens : List Token}
    (lexed : tokensFrom start text = .ok tokens) : Munched tokens := by
  refine lexed_induction (motive := fun _ tokens => Munched tokens) .nil ?_ lexed
  intro c input kind taken rest start _ more scanned lexed munched
  have whole : spelling more = rest := (laid_of_tokensFrom lexed).2
  rw [← munch_append scanned, ← whole] at scanned
  exact .cons String.toList_ofList scanned munched

theorem munched_of_append {before after : List Token} (munched : Munched (before ++ after)) :
    Munched after := by
  induction before with
  | nil => exact munched
  | cons t before ih =>
      cases munched with
      | cons _ _ later => exact ih later

/-- A token as it is spelled, wherever it starts. -/
def Token.spelt (t : Token) : TokenKind × String :=
  (t.kind, t.text)

/-- The scanner finds such tokens, wherever they start. -/
theorem Munched.exists_tokensFrom {tokens : List Token} (munched : Munched tokens) (start : Nat) :
    ∃ found, tokensFrom start (spelling tokens) = .ok found
      ∧ found.map Token.spelt = tokens.map Token.spelt := by
  induction munched generalizing start with
  | nil =>
      refine ⟨[], ?_, rfl⟩
      rw [spelling, List.flatMap_nil, tokensFrom]
  | @cons t rest c taken text scanned _ ih =>
      obtain ⟨found, lexed, same⟩ := ih (start + (String.ofList (c :: taken)).utf8ByteSize)
      have own : String.ofList (c :: taken) = t.text := by
        rw [← text, String.ofList_toList]
      refine ⟨⟨t.kind, t.text, start⟩ :: found, ?_, ?_⟩
      · rw [spelling_cons text, tokensFrom_of_munch scanned, lexed, own]
        rfl
      · rw [List.map_cons, List.map_cons, same]
        rfl

/-- Tokens of which some identifiers have been replaced by identifiers, but none behind a number;
`numeral` says whether a number stands in front. -/
inductive Respelled : (numeral : Bool) → List Token → List Token → Prop where
  | nil (numeral : Bool) : Respelled numeral [] []
  | same (numeral : Bool) (t : Token) {rest others : List Token}
      (later : Respelled (t.kind == .number) rest others) :
      Respelled numeral (t :: rest) (t :: others)
  | other {t u : Token} {rest others : List Token} (kind : t.kind = .identifier)
      (kind' : u.kind = .identifier) (identifier : isIdentifier u.text = true)
      (later : Respelled false rest others) : Respelled false (t :: rest) (u :: others)

namespace Respelled

variable {numeral : Bool} {tokens others : List Token}

theorem beginAlike (respelled : Respelled numeral tokens others) (munched : Munched tokens) :
    BeginAlike (spelling tokens) (spelling others) := by
  cases respelled with
  | nil => exact .inl rfl
  | same numeral t later =>
      cases munched with
      | cons text scanned _ =>
          refine .inl ?_
          rw [spelling_cons text, spelling_cons text]
          rfl
  | @other t u rest others kind kind' identifier later =>
      cases munched with
      | @cons _ _ c taken text scanned _ =>
          rw [kind] at scanned
          refine .inr ⟨?_, ?_⟩
          · rw [spelling_cons text]
            exact (identifier_of_munch scanned).1
          · obtain ⟨d, word, spelled, start, -⟩ := exists_cons_of_isIdentifier identifier
            rw [spelling_cons spelled]
            exact start

/-- Behind a number, the next token is the same, and so is whether it goes on with a digit. -/
theorem noFurther (respelled : Respelled true tokens others) (munched : Munched tokens) :
    NoFurther (spelling tokens) (spelling others) := by
  cases respelled with
  | nil => exact ⟨fun _ first => first, id⟩
  | same numeral t later =>
      cases munched with
      | @cons _ rest c taken text scanned munched =>
          rw [spelling_cons text, spelling_cons text]
          exact ⟨fun _ first => first, ((later.beginAlike munched).behind taken).digit.trans⟩

/-- Respelled tokens are found where they stand. -/
theorem munched (respelled : Respelled numeral tokens others) (munched : Munched tokens) :
    Munched others := by
  induction respelled with
  | nil => exact .nil
  | same numeral t later ih =>
      cases munched with
      | cons text scanned munched =>
          refine .cons text (munch_replace scanned (later.beginAlike munched) ?_) (ih munched)
          intro number
          rw [number] at later
          exact later.noFurther munched
  | @other t u rest others kind kind' identifier later ih =>
      cases munched with
      | cons text scanned munched =>
          rw [kind] at scanned
          have stop := (identifier_of_munch scanned).2
          rw [(later.beginAlike munched).part] at stop
          obtain ⟨d, word, spelled, start, parts⟩ := exists_cons_of_isIdentifier identifier
          refine .cons spelled ?_ (ih munched)
          rw [kind']
          exact munch_word start parts stop

end Respelled

namespace Fragment

/-! ## Renaming -/

/-- One renaming and then another: what the first names anew, the second looks up under its new
name, and a name that one of them does not know stays as it is. -/
def thenRename (first second : String → Option String) (name : String) : Option String :=
  (second ((first name).getD name)).or (first name)

theorem renameToken_renameToken (first second : String → Option String) (p : Placed) :
    renameToken second ⟨renameToken first p, p.before, p.isVariable⟩
      = renameToken (thenRename first second) p := by
  cases shape : p.isVariable with
  | false => simp [renameToken, shape]
  | true =>
      simp only [renameToken, shape, if_true, thenRename]
      cases second ((first p.token.text).getD p.token.text) <;> rfl

/-- Renaming twice is renaming once. -/
theorem renameVariables_renameVariables (f : Fragment) (first second : String → Option String) :
    (f.renameVariables first).renameVariables second
      = f.renameVariables (thenRename first second) := by
  -- of a placed token, renaming looks at the token and at whether it is a variable
  let again (t : Token × Bool) : Token := renameToken second ⟨t.1, none, t.2⟩
  have twice := congrArg (List.map again) (placed_rename f first)
  rw [List.map_map, List.map_map] at twice
  refine congrArg Fragment.mk (twice.trans ?_)
  exact List.map_congr_left fun p _ => renameToken_renameToken first second p

/-- A token that is not kept when it is renamed is an identifier with a new name. -/
theorem renamed_of_ne {rename : String → Option String} {p : Placed}
    (changed : renameToken rename p ≠ p.token) :
    p.isVariable = true ∧ ∃ new, rename p.token.text = some new
      ∧ renameToken rename p = { p.token with text := new } := by
  unfold renameToken at changed ⊢
  split at changed
  · rename_i isVariable
    cases found : rename p.token.text with
    | none => rw [found] at changed; exact absurd rfl changed
    | some new => exact ⟨isVariable, new, rfl, by rw [if_pos isVariable]; rfl⟩
  · exact absurd rfl changed

/-- Renamed tokens are respelled, if the new names are identifiers and nothing is renamed behind a
number. -/
theorem respelled_rename {rename : String → Option String}
    (identifiers : ∀ name new, rename name = some new → isIdentifier new = true)
    (brackets : List Char) (before : Option Token) (numeral : Bool) (tokens : List Token)
    (apart : (placedFrom brackets before tokens).IsChain fun p q =>
      p.token.kind = .number → renameToken rename q = q.token)
    (first : numeral = true → ∀ p ∈ (placedFrom brackets before tokens).head?,
      renameToken rename p = p.token) :
    Respelled numeral tokens ((placedFrom brackets before tokens).map (renameToken rename)) := by
  induction tokens generalizing brackets before numeral with
  | nil => exact .nil numeral
  | cons t rest ih =>
      rw [placedFrom] at apart first ⊢
      generalize shape : (t.kind == .identifier
        && isVariableBetween brackets.head? before (firstMeaningful rest)) = isVariable
        at apart first ⊢
      obtain ⟨next, later⟩ := List.isChain_cons.1 apart
      rw [List.map_cons]
      by_cases kept : renameToken rename ⟨t, before, isVariable⟩ = t
      · rw [kept]
        refine .same numeral t (ih _ _ _ later fun number p mem => ?_)
        exact next p mem (eq_of_beq number)
      · obtain ⟨standing, new, found, renamed⟩ := renamed_of_ne kept
        rw [show isVariable = true from standing, Bool.and_eq_true, beq_iff_eq] at shape
        have kind : t.kind = .identifier := shape.1
        cases numeral with
        | true => exact absurd (first rfl _ rfl) kept
        | false =>
            refine .other kind ((kind_renameToken rename _).trans kind) ?_
              (ih _ _ false later fun behind => absurd behind Bool.false_ne_true)
            rw [renamed]
            exact identifiers _ new found

/-- Renaming rewrites a text faithfully: the variables stay where they are; one renaming and then
another is one renaming; and if all new names are identifiers, and none stands behind a number, the
new text falls into the renamed tokens. -/
theorem renameVariables_faithful {text : String} {f : Fragment} (lexed : ofText text = .ok f)
    (rename again : String → Option String) :
    (f.renameVariables rename).placed.map (·.isVariable) = f.placed.map (·.isVariable)
      ∧ (f.renameVariables rename).renameVariables again
          = f.renameVariables (thenRename rename again)
      ∧ ((∀ name new, rename name = some new → isIdentifier new = true) →
          (f.placed.IsChain fun p q =>
            p.token.kind = .number → renameToken rename q = q.token) →
          ∃ g, ofText (f.renameVariables rename).text = .ok g
            ∧ g.tokens.map (fun t => (t.kind, t.text))
              = (f.renameVariables rename).tokens.map fun t => (t.kind, t.text)) := by
  refine ⟨?_, renameVariables_renameVariables f rename again, fun identifiers apart => ?_⟩
  · have places := congrArg (List.map Prod.snd) (placed_rename f rename)
    rwa [List.map_map, List.map_map] at places
  · have munched := munched_of_tokensFrom (tokenize_of_ofText lexed)
    have respelled := respelled_rename identifiers [] none false f.tokens apart
      fun behind => absurd behind Bool.false_ne_true
    obtain ⟨found, lexed', same⟩ := (respelled.munched munched).exists_tokensFrom 0
    refine ⟨⟨found⟩, ?_, same⟩
    rw [ofText, tokenize, toList_text]
    exact congrArg (Except.map Fragment.mk) lexed'

/-- Neither the parameter nor the comment is renamed with the variable. -/
theorem renameVariables_faithful_parameter :
    let text := "MATCH (a)-[*1..2]->(b) WHERE b.x>1.5 AND a.y=$b RETURN a//b"
    let renamed := "MATCH (this_a)-[*1..2]->(é) WHERE é.x>1.5 AND this_a.y=$b RETURN this_a//b"
    let rename (name : String) : Option String :=
      if name = "a" then some "this_a" else if name = "b" then some "é" else none
    let again (name : String) : Option String := if name = "é" then some "b" else none
    ∃ f g, ofText text = .ok f ∧ (f.renameVariables rename).text = renamed
      ∧ (f.renameVariables rename).renameVariables again
          = f.renameVariables (thenRename rename again)
      ∧ ofText renamed = .ok g
      ∧ g.tokens.map (fun t => (t.kind, t.text))
          = (f.renameVariables rename).tokens.map fun t => (t.kind, t.text) := by
  intro text renamed rename again
  have identifiers : ∀ name new, rename name = some new → isIdentifier new = true := by
    intro name new found
    by_cases a : name = "a"
    · rw [show rename name = some "this_a" from if_pos a] at found
      cases found
      decide
    by_cases b : name = "b"
    · rw [show rename name = some "é" from (if_neg a).trans (if_pos b)] at found
      cases found
      decide
    · rw [show rename name = none from (if_neg a).trans (if_neg b)] at found
      cases found
  have shape : ((ofText text).toOption.any fun f => (f.renameVariables rename).text == renamed
      && decide (f.placed.IsChain fun p q =>
        p.token.kind = .number → renameToken rename q = q.token)) = true := by
    decide +kernel
  obtain ⟨f, lexed, shape⟩ := exists_ok_of_any shape
  rw [Bool.and_eq_true, beq_iff_eq, decide_eq_true_iff] at shape
  obtain ⟨-, twice, reread⟩ := renameVariables_faithful lexed rename again
  obtain ⟨g, lexed', same⟩ := reread identifiers shape.2
  rw [shape.1] at lexed'
  exact ⟨f, g, lexed, shape.1, twice, lexed', same⟩

/-- What is put in place of a name behind a number may go on with the number. -/
example : ((ofText "1x").map fun f =>
    (f.renameVariables fun _ => some "e1").tokens.map (·.text)) = .ok ["1", "e1"]
      ∧ (ofText "1e1").map (fun f => f.tokens.map (·.text)) = .ok ["1e1"] := by
  decide +kernel

end Fragment

end GraphBridge.Query
