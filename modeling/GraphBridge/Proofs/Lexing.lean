import GraphBridge.Proofs.Outcome
import GraphBridge.Proofs.Spelling
import Mathlib.Data.List.TakeWhile

/-!
# Where a scanner stands

What the scanner makes of a text depends on the text in front of it only through the place where
that leaves it: in the open, inside quotes, or inside a comment. A text that leaves it in the open
has words of its own, which do not change with what follows, as long as that begins a new token. So
texts that differ in white space and comments have the same words.
-/

namespace GraphBridge.Query

open Text

/-! ## Modes -/

/-- Where a scanner stands in a text. -/
inductive Mode where
  /-- At the beginning, or behind white space. -/
  | start
  /-- In the open, behind anything else. -/
  | plain
  /-- Behind a slash, where another one opens a comment. -/
  | slash
  | comment
  | quoted (quote : Char)
  /-- Behind a backslash in quotes. -/
  | escaped (quote : Char)
  deriving DecidableEq, Repr

namespace Mode

/-- Whether a character opens a quoted text. -/
def isQuote (c : Char) : Bool :=
  c == '\'' || c == '"' || c == '`'

/-- Where the first character of a token leads. -/
def first (c : Char) : Mode :=
  if isBlank c then .start
  else if c == '/' then .slash
  else if isQuote c then .quoted c
  else .plain

/-- Where one character leads. -/
def step : Mode → Char → Mode
  | .start, c | .plain, c => first c
  | .slash, c => if c == '/' then .comment else first c
  | .comment, c => if c == '\n' then .start else .comment
  | .quoted q, c =>
      if c == '\\' && q != '`' then .escaped q else if c == q then .plain else .quoted q
  | .escaped q, _ => .quoted q

/-- Where a text leads. -/
def run (m : Mode) (text : List Char) : Mode :=
  text.foldl step m

@[simp] theorem run_nil (m : Mode) : m.run [] = m := rfl

@[simp] theorem run_cons (m : Mode) (c : Char) (text : List Char) :
    m.run (c :: text) = (m.step c).run text := rfl

@[simp] theorem run_append (m : Mode) (front back : List Char) :
    m.run (front ++ back) = (m.run front).run back :=
  List.foldl_append

/-- Whether white space or a comment is what was read last. -/
def isGap (m : Mode) : Bool :=
  m == .start || m == .comment

/-- Whether the scanner stands between tokens, or at the end of a comment. -/
def isOpen : Mode → Bool
  | .quoted _ | .escaped _ => false
  | _ => true

/-- Whether a text begins a new token where the scanner stands, or ends the comment that it is in;
only white space and slashes are sure to begin one. -/
def admits (m : Mode) (text : List Char) : Bool :=
  m.isOpen && match text, m with
    | [], _ => true
    | c :: _, .comment => c == '\n'
    | c :: _, .slash => isBlank c
    | c :: _, _ => isBlank c || c == '/'

/-- Whether the scanner takes the text for the beginning of a token. -/
def Begins (m : Mode) (text : List Char) : Prop :=
  ∀ c ∈ text.head?, m.step c = first c

theorem begins_nil (m : Mode) : m.Begins [] := by
  rintro c ⟨⟩

theorem begins_of_not_slash {m : Mode} (known : m = .start ∨ m = .plain) (text : List Char) :
    m.Begins text := by
  rcases known with rfl | rfl <;> exact fun _ _ => rfl

theorem isBlank_of_first {c : Char} (leads : first c = .start) : isBlank c = true := by
  unfold first at leads
  split at leads
  · assumption
  split at leads
  · cases leads
  split at leads <;> cases leads

theorem first_of_isBlank {c : Char} (blank : isBlank c = true) : first c = .start := by
  rw [first, if_pos blank]

/-- Where letters, digits and most marks lead. -/
theorem first_of_other {c : Char} (blank : isBlank c = false) (slash : c ≠ '/')
    (quote : isQuote c = false) : first c = .plain := by
  simp [first, blank, slash, quote]

theorem first_of_isIdentifierPart {c : Char} (part : isIdentifierPart c = true) :
    first c = .plain := by
  have other (d : Char) (known : d ∈ punctuation) := ne_of_mem_punctuation part known
  refine first_of_other (not_isBlank_of_isIdentifierPart part) (other '/' (by decide)) ?_
  simp [isQuote, other '\'' (by decide), other '"' (by decide), other '`' (by decide)]

/-- Only white space leads behind white space, and it begins a token wherever it does. -/
theorem of_step_eq_start {m : Mode} {c : Char} (leads : m.step c = .start) :
    isBlank c = true ∧ ∀ more, m.admits (c :: more) = true := by
  cases m with
  | start | plain =>
      have blank := isBlank_of_first leads
      exact ⟨blank, fun more => by simp [admits, isOpen, blank]⟩
  | slash =>
      rw [step] at leads
      split at leads
      · cases leads
      · have blank := isBlank_of_first leads
        exact ⟨blank, fun more => by simp [admits, isOpen, blank]⟩
  | comment =>
      rw [step] at leads
      split at leads
      · rename_i line
        exact ⟨isBlank_of_space_or_line (.inr (eq_of_beq line)), fun more => line⟩
      · cases leads
  | quoted quote =>
      rw [step] at leads
      split at leads
      · cases leads
      split at leads <;> cases leads
  | escaped quote => cases leads

theorem step_quote {q : Char} (other : q ≠ '\\') : (quoted q).step q = .plain := by
  simp [step, other]

theorem step_backslash {q : Char} (escapes : q ≠ '`') : (quoted q).step '\\' = .escaped q := by
  simp [step, escapes]

theorem step_inside {q c : Char} (inside : c ≠ q) (plain : c = '\\' → q = '`') :
    (quoted q).step c = .quoted q := by
  have escapes : ¬ (c == '\\' && q != '`') = true := by simpa using plain
  rw [step, if_neg escapes, if_neg (by simpa using inside)]

theorem isOpen_of_admits {m : Mode} {text : List Char} (admits : m.admits text = true) :
    m.isOpen = true :=
  (Bool.and_eq_true_iff.1 admits).1

/-- A text of such characters leaves the scanner where its last character leads. -/
theorem run_plain {text : List Char} (all : ∀ c ∈ text, first c = .plain) :
    Mode.plain.run text = .plain := by
  induction text with
  | nil => rfl
  | cons c text ih =>
      obtain ⟨own, others⟩ := List.forall_mem_cons.1 all
      rw [run_cons]
      exact (congrArg (run · text) own).trans (ih others)

/-- White space leaves the scanner where it stands behind white space. -/
theorem run_blanks {text : List Char} (all : ∀ c ∈ text, isBlank c = true) :
    Mode.start.run text = .start := by
  induction text with
  | nil => rfl
  | cons c text ih =>
      obtain ⟨own, others⟩ := List.forall_mem_cons.1 all
      rw [run_cons]
      exact (congrArg (run · text) (first_of_isBlank own)).trans (ih others)

theorem run_comment {text : List Char} (line : '\n' ∉ text) : Mode.comment.run text = .comment := by
  induction text with
  | nil => rfl
  | cons c text ih =>
      rw [List.mem_cons, not_or] at line
      rw [run_cons, step, if_neg (by simpa using Ne.symm line.1)]
      exact ih line.2

end Mode

/-! ## Words -/

/-- Whether tokens of a kind carry no meaning. -/
def TokenKind.isTrivia (kind : TokenKind) : Bool :=
  kind == .blank || kind == .comment

/-- A token that carries meaning, as it stands in a text. -/
structure Word where
  kind : TokenKind
  text : String
  /-- Whether there is white space or a comment in front of it. -/
  isSpaced : Bool
  deriving DecidableEq, Repr

/-- Words behind one more token. -/
def Word.follow (gap : Bool) (kind : TokenKind) (text : String) (more : List Word) : List Word :=
  if kind.isTrivia then more else ⟨kind, text, gap⟩ :: more

/-- The words among tokens, behind a gap or not. -/
def words (gap : Bool) : List Token → List Word
  | [] => []
  | t :: rest => Word.follow gap t.kind t.text (words t.isTrivia rest)

/-- The words of a text behind a gap or not, unless a quote in it is left open. -/
def read (gap : Bool) (text : List Char) : Option (List Word) :=
  (tokensFrom 0 text).toOption.map (words gap)

theorem tokensFrom_of_open {c : Char} {input : List Char} (scanned : munch c input = none)
    (start : Nat) : tokensFrom start (c :: input) = .error ⟨c, start⟩ := by
  rw [tokensFrom]
  split
  · rfl
  · rename_i found
    rw [scanned] at found
    cases found

/-- What holds of the empty text and of texts that start with an open quote, and of a text if it
holds of what the first token leaves, holds of all texts. -/
theorem munch_induction {motive : List Char → Prop} (nil : motive [])
    (opened : ∀ c input, munch c input = none → motive (c :: input))
    (token : ∀ c input kind taken rest, munch c input = some (kind, taken, rest) → motive rest →
      motive (c :: input)) (text : List Char) : motive text :=
  tokensFrom.induct (fun _ text => motive text) (fun _ => nil) (fun _ => opened)
    (fun _ c input kind taken rest scanned _ _ later =>
      token c input kind taken rest scanned later)
    (fun _ c input kind taken rest scanned _ _ later =>
      token c input kind taken rest scanned later) 0 text

/-- What holds of the empty text and no tokens, and of a text and its tokens if it holds of what the
first token leaves and the others, holds of every text that is lexed. -/
theorem lexed_induction {motive : List Char → List Token → Prop} (nil : motive [] [])
    (token : ∀ c input kind taken rest start next tokens,
      munch c input = some (kind, taken, rest) → tokensFrom next rest = .ok tokens →
      motive rest tokens →
      motive (c :: input) (⟨kind, String.ofList (c :: taken), start⟩ :: tokens))
    {start : Nat} {text : List Char} {tokens : List Token}
    (lexed : tokensFrom start text = .ok tokens) : motive text tokens := by
  induction text using munch_induction generalizing start tokens with
  | nil =>
      rw [tokensFrom] at lexed
      cases lexed
      exact nil
  | opened c input scanned =>
      rw [tokensFrom_of_open scanned] at lexed
      cases lexed
  | token c input kind taken rest scanned ih =>
      rw [tokensFrom_of_munch scanned] at lexed
      obtain ⟨more, later, rfl⟩ := map_eq_ok_iff.1 lexed
      exact token c input kind taken rest start _ more scanned later (ih later)

/-- Where a text starts does not matter for its words. -/
theorem words_tokensFrom (gap : Bool) (start : Nat) (text : List Char) :
    (tokensFrom start text).toOption.map (words gap) = read gap text := by
  induction text using munch_induction generalizing gap start with
  | nil => rw [read, tokensFrom, tokensFrom]
  | opened c input scanned =>
      rw [read, tokensFrom_of_open scanned, tokensFrom_of_open scanned]
      rfl
  | token c input kind taken rest scanned ih =>
      have first (start : Nat) : (tokensFrom start (c :: input)).toOption.map (words gap)
          = (read kind.isTrivia rest).map (Word.follow gap kind (String.ofList (c :: taken))) := by
        rw [tokensFrom_of_munch scanned, ← ih kind.isTrivia]
        cases tokensFrom (start + (String.ofList (c :: taken)).utf8ByteSize) rest <;> rfl
      rw [read, first, first]

theorem read_nil (gap : Bool) : read gap [] = some [] := by
  rw [read, tokensFrom]
  rfl

/-- The words of a text are the first token and those of what it leaves. -/
theorem read_of_munch {c : Char} {input taken rest : List Char} {kind : TokenKind}
    (scanned : munch c input = some (kind, taken, rest)) (gap : Bool) :
    read gap (c :: input)
      = (read kind.isTrivia rest).map (Word.follow gap kind (String.ofList (c :: taken))) := by
  rw [← words_tokensFrom kind.isTrivia (0 + (String.ofList (c :: taken)).utf8ByteSize), read,
    tokensFrom_of_munch scanned]
  cases tokensFrom (0 + (String.ofList (c :: taken)).utf8ByteSize) rest <;> rfl

/-- White space or a comment in front of a text is no word. -/
theorem read_of_trivia {c : Char} {input taken rest : List Char} {kind : TokenKind}
    (scanned : munch c input = some (kind, taken, rest)) (trivia : kind.isTrivia = true)
    (gap : Bool) : read gap (c :: input) = read true rest := by
  rw [read_of_munch scanned, trivia]
  have same : Word.follow gap kind (String.ofList (c :: taken)) = id := by
    funext more
    exact if_pos trivia
  rw [same, Option.map_id]
  rfl

theorem read_dropWhile_isBlank (text : List Char) :
    read true (text.dropWhile isBlank) = read true text := by
  cases text with
  | nil => rfl
  | cons c input =>
      cases blank : isBlank c with
      | false => rw [List.dropWhile_cons, blank]; rfl
      | true =>
          have scanned : munch c input
              = some (.blank, input.takeWhile isBlank, input.dropWhile isBlank) := by
            rw [munch, if_pos blank]
          rw [List.dropWhile_cons, if_pos blank]
          exact (read_of_trivia scanned rfl true).symm

/-- White space in front of a text. -/
theorem read_blank {c : Char} (blank : isBlank c = true) (gap : Bool) (text : List Char) :
    read gap (c :: text) = read true text := by
  have scanned : munch c text = some (.blank, text.takeWhile isBlank, text.dropWhile isBlank) := by
    rw [munch, if_pos blank]
  rw [read_of_trivia scanned rfl, read_dropWhile_isBlank]

/-- A comment in front of the end of its line. -/
theorem read_comment {body : List Char} (line : '\n' ∉ body) (gap : Bool) (rest : List Char) :
    read gap ('/' :: '/' :: (body ++ '\n' :: rest)) = read true ('\n' :: rest) := by
  have all : ('/' :: body).all (· != '\n') = true := by
    rw [List.all_eq_true]
    intro c mem
    have other : '\n' ∉ '/' :: body := by simpa using line
    simpa using fun same : c = '\n' => other (same ▸ mem)
  obtain ⟨taken, left⟩ := @takeWhile_append_of_stop (· != '\n') _ ('\n' :: rest) all rfl
  have blank := (apart_of_mem_punctuation (c := '/') (by decide)).1
  have scanned : munch '/' ('/' :: (body ++ '\n' :: rest))
      = some (.comment, '/' :: body, '\n' :: rest) := by
    rw [munch, blank, if_neg (by decide), if_pos (by simp [startsWith])]
    exact congrArg some (congrArg (Prod.mk TokenKind.comment) (Prod.ext taken left))
  exact read_of_trivia scanned rfl gap

/-! ## Texts one after the other -/

/-- The longest run of a class is the same in front of more text, if it ends before that, or if that
does not go on with it. -/
theorem append_span {accepts : Char → Bool} {input more : List Char}
    (stop : input.dropWhile accepts = [] → startsWith accepts more = false) :
    (input ++ more).takeWhile accepts = input.takeWhile accepts
      ∧ (input ++ more).dropWhile accepts = input.dropWhile accepts ++ more := by
  induction input with
  | nil =>
      cases more with
      | nil => exact ⟨rfl, rfl⟩
      | cons c more =>
          have other : accepts c = false := stop rfl
          simp [other]
  | cons c input ih =>
      rw [List.dropWhile_cons] at stop
      rw [List.cons_append, List.takeWhile_cons, List.takeWhile_cons, List.dropWhile_cons,
        List.dropWhile_cons]
      split
      · rename_i taken
        rw [if_pos taken] at stop
        obtain ⟨span, left⟩ := ih stop
        exact ⟨congrArg (c :: ·) span, left⟩
      · exact ⟨rfl, rfl⟩

theorem append_span_of_stop {accepts : Char → Bool} {more : List Char}
    (stop : startsWith accepts more = false) (input : List Char) :
    (input ++ more).takeWhile accepts = input.takeWhile accepts
      ∧ (input ++ more).dropWhile accepts = input.dropWhile accepts ++ more :=
  append_span fun _ => stop

theorem scanQuoted_more {quote : Char} {input taken rest : List Char}
    (scanned : scanQuoted quote input = some (taken, rest)) (more : List Char) :
    scanQuoted quote (input ++ more) = some (taken, rest ++ more) := by
  rw [← scanQuoted_append scanned, List.append_assoc]
  exact scanQuoted_taken_append scanned (rest ++ more)

/-- A text leads out of the quotes that it closes, and no further. -/
theorem run_scanQuoted {quote : Char} {input taken rest : List Char}
    (scanned : scanQuoted quote input = some (taken, rest)) :
    (Mode.quoted quote).run taken = .plain := by
  refine scanQuoted_induction (motive := fun taken => (Mode.quoted quote).run taken = .plain)
    ?_ ?_ ?_ scanned
  · intro other
    rw [Mode.run_cons, Mode.step_quote other, Mode.run_nil]
  · intro c inner escapes ih
    rw [Mode.run_cons, Mode.step_backslash escapes]
    exact ih
  · intro c inner inside plain ih
    rw [Mode.run_cons, Mode.step_inside inside plain]
    exact ih

/-- A text that does not close its quotes leaves the scanner inside. -/
theorem run_scanQuoted_of_none {quote : Char} {input : List Char}
    (scanned : scanQuoted quote input = none) :
    ((Mode.quoted quote).run input).isOpen = false := by
  fun_induction scanQuoted quote input with
  | case1 => rfl
  | case2 c escapes =>
      rw [Mode.run_cons, Mode.step, if_pos escapes]
      rfl
  | case3 c escapes d input ih =>
      rw [Mode.run_cons, Mode.step, if_pos escapes]
      exact ih (Option.map_eq_none_iff.1 scanned)
  | case4 c input escapes closes => cases scanned
  | case5 c input escapes closes ih =>
      rw [Mode.run_cons, Mode.step, if_neg escapes, if_neg closes]
      exact ih (Option.map_eq_none_iff.1 scanned)

/-- What starts with no character of a class starts with none of a smaller class. -/
theorem startsWith_of_imp {accepts others : Char → Bool} {text : List Char}
    (part : ∀ c, accepts c = true → others c = true) (stop : startsWith others text = false) :
    startsWith accepts text = false := by
  cases text with
  | nil => rfl
  | cons c text =>
      cases taken : accepts c with
      | false => exact taken
      | true => exact absurd (part c taken) (Bool.eq_false_iff.1 stop)

theorem scanMarkedDigits_more (isMark : Char → Bool) {more : List Char}
    (mark : startsWith isMark more = false) (digit : startsWith Char.isDigit more = false)
    (input : List Char) :
    scanMarkedDigits isMark (input ++ more)
      = ((scanMarkedDigits isMark input).1, (scanMarkedDigits isMark input).2 ++ more) := by
  match input with
  | [] => exact scanMarkedDigits_of_stop mark
  | [c] =>
      cases more with
      | nil => rfl
      | cons d more =>
          have other : d.isDigit = false := digit
          simp [scanMarkedDigits, other]
  | c :: d :: rest =>
      obtain ⟨taken, left⟩ := append_span_of_stop digit (d :: rest)
      rw [List.cons_append] at taken left
      simp only [List.cons_append, scanMarkedDigits, taken, left]
      split <;> rfl

theorem scanNumber_more {more : List Char} (word : startsWith isIdentifierPart more = false)
    (point : startsWith (· == '.') more = false) (input : List Char) :
    scanNumber (input ++ more) = ((scanNumber input).1, (scanNumber input).2 ++ more) := by
  have digit : startsWith Char.isDigit more = false :=
    startsWith_of_imp (fun _ digit => (identifier_of_isDigit digit).1) word
  have power : startsWith (fun c => c == 'e' || c == 'E') more = false := by
    refine startsWith_of_imp (fun c mark => ?_) word
    simp only [Bool.or_eq_true, beq_iff_eq] at mark
    rcases mark with rfl | rfl <;> decide +kernel
  obtain ⟨taken, left⟩ := append_span_of_stop digit input
  simp only [scanNumber, taken, left, scanMarkedDigits_more _ point digit,
    scanMarkedDigits_more _ power digit]

/-- Where a token of a kind leaves the scanner. -/
def TokenKind.mode : TokenKind → Mode
  | .blank => .start
  | .comment => .comment
  | .symbol c => if c == '/' then .slash else .plain
  | _ => .plain

theorem TokenKind.isGap_mode (kind : TokenKind) : kind.mode.isGap = kind.isTrivia := by
  cases kind with
  | symbol c =>
      rw [mode]
      split <;> rfl
  | _ => rfl

/-- What is behind the longest run of characters of a class does not start with one. -/
theorem startsWith_dropWhile (accepts : Char → Bool) (input : List Char) :
    startsWith accepts (input.dropWhile accepts) = false := by
  induction input with
  | nil => rfl
  | cons c input ih =>
      rw [List.dropWhile_cons]
      split
      · exact ih
      · rename_i other
        exact Bool.eq_false_iff.2 other

/-- White space and slashes start none of the characters of a word. -/
theorem startsWith_of_admits {m : Mode} {more : List Char} (admits : m.admits more = true)
    {accepts : Char → Bool} (apart : ∀ c, accepts c = true → isBlank c = false ∧ c ≠ '/') :
    startsWith accepts more = false := by
  cases more with
  | nil => rfl
  | cons c more =>
      have known : isBlank c = true ∨ c = '/' := by
        cases m with
        | start | plain =>
            simpa [Mode.admits, Mode.isOpen] using admits
        | slash => exact .inl (by simpa [Mode.admits, Mode.isOpen] using admits)
        | comment =>
            have line : c = '\n' := by simpa [Mode.admits, Mode.isOpen] using admits
            exact .inl (isBlank_of_space_or_line (.inr line))
        | quoted | escaped => cases admits
      cases taken : accepts c with
      | false => exact taken
      | true =>
          obtain ⟨blank, slash⟩ := apart c taken
          rcases known with other | same
          · rw [blank] at other
            cases other
          · exact absurd same slash

theorem first_of_mem_scanMarkedDigits {isMark : Char → Bool}
    (mark : ∀ c, isMark c = true → Mode.first c = .plain) (input : List Char) :
    ∀ c ∈ (scanMarkedDigits isMark input).1, Mode.first c = .plain := by
  unfold scanMarkedDigits
  split
  · rename_i c d rest
    split
    · rename_i both
      rw [Bool.and_eq_true] at both
      refine List.forall_mem_cons.2 ⟨mark c both.1, fun digit mem => ?_⟩
      have isDigit := List.mem_takeWhile_imp mem
      exact Mode.first_of_isIdentifierPart (identifier_of_isDigit isDigit).1
    · exact List.forall_mem_nil _
  · exact List.forall_mem_nil _

/-- A number has neither quotes nor slashes in it. -/
theorem first_of_mem_scanNumber (input : List Char) :
    ∀ c ∈ (scanNumber input).1, Mode.first c = .plain := by
  have digits : ∀ c ∈ input.takeWhile Char.isDigit, Mode.first c = .plain := fun c mem =>
    Mode.first_of_isIdentifierPart (identifier_of_isDigit (List.mem_takeWhile_imp mem)).1
  have point : ∀ c : Char, (c == '.') = true → Mode.first c = .plain := by
    intro c same
    rw [eq_of_beq same]
    decide +kernel
  have power : ∀ c : Char, (c == 'e' || c == 'E') = true → Mode.first c = .plain := by
    intro c same
    simp only [Bool.or_eq_true, beq_iff_eq] at same
    rcases same with rfl | rfl <;> decide +kernel
  simp only [scanNumber, List.forall_mem_append]
  exact ⟨⟨digits, first_of_mem_scanMarkedDigits point _⟩, first_of_mem_scanMarkedDigits power _⟩

/-- How the scanner goes on behind the first character of a token. -/
inductive Scan where
  | blanks
  | comment
  | quoted (kind : TokenKind)
  | word (kind : TokenKind)
  | number
  | symbol

/-- How the scanner goes on behind a character. -/
def scanOf (c : Char) (input : List Char) : Scan :=
  if isBlank c then .blanks
  else if c == '/' && startsWith (· == '/') input then .comment
  else if c == '\'' || c == '"' then .quoted .string
  else if c == '`' then .quoted .quotedIdentifier
  else if c == '$' && startsWith isIdentifierStart input then .word .parameter
  else if c.isDigit then .number
  else if isIdentifierStart c then .word .identifier
  else .symbol

/-- What the scanner takes behind a character and what it leaves. -/
def Scan.take (c : Char) (input : List Char) :
    Scan → Option (TokenKind × List Char × List Char)
  | .blanks => some (.blank, input.takeWhile isBlank, input.dropWhile isBlank)
  | .comment => some (.comment, input.takeWhile (· != '\n'), input.dropWhile (· != '\n'))
  | .quoted kind => (scanQuoted c input).map fun (taken, rest) => (kind, taken, rest)
  | .word kind =>
      some (kind, input.takeWhile isIdentifierPart, input.dropWhile isIdentifierPart)
  | .number => some (.number, (scanNumber input).1, (scanNumber input).2)
  | .symbol => some (.symbol c, [], input)

theorem munch_eq_take (c : Char) (input : List Char) :
    munch c input = (scanOf c input).take c input := by
  rw [munch, scanOf]
  split
  · rfl
  split
  · rfl
  split
  · rfl
  split
  · rfl
  split
  · rfl
  split
  · rfl
  split <;> rfl

/-- What is known of the first character of a token. -/
def Scan.Fits (c : Char) (input : List Char) : Scan → Prop
  | .blanks => Mode.first c = .start
  | .comment => c = '/' ∧ startsWith (· == '/') input = true
  | .quoted kind => Mode.first c = .quoted c ∧ kind.mode = .plain
  | .word kind => Mode.first c = .plain ∧ kind.mode = .plain
  | .number => Mode.first c = .plain
  | .symbol => Mode.first c = (TokenKind.symbol c).mode
      ∧ (c = '/' → startsWith (· == '/') input = false)

theorem fits_scanOf (c : Char) (input : List Char) : (scanOf c input).Fits c input := by
  unfold scanOf
  split
  · exact Mode.first_of_isBlank ‹_›
  rename_i solid
  split
  · rename_i slashes
    rwa [Bool.and_eq_true, beq_iff_eq] at slashes
  rename_i single
  split
  · rename_i quote
    simp only [Bool.or_eq_true, beq_iff_eq] at quote
    rcases quote with rfl | rfl <;> exact ⟨by decide +kernel, rfl⟩
  rename_i unquoted
  split
  · rename_i quote
    obtain rfl := eq_of_beq quote
    exact ⟨by decide +kernel, rfl⟩
  rename_i unticked
  split
  · rename_i dollar
    rw [Bool.and_eq_true, beq_iff_eq] at dollar
    exact ⟨by rw [dollar.1]; decide +kernel, rfl⟩
  split
  · exact Mode.first_of_isIdentifierPart (identifier_of_isDigit ‹_›).1
  split
  · exact ⟨Mode.first_of_isIdentifierPart (isIdentifierPart_of_start ‹_›), rfl⟩
  · refine ⟨?_, fun slash => by simpa [slash] using single⟩
    by_cases slash : c = '/'
    · rw [slash]
      decide +kernel
    · have quote : Mode.isQuote c = false := by
        simp only [Bool.or_eq_true, not_or, Bool.not_eq_true] at unquoted
        simp only [Mode.isQuote, Bool.or_eq_false_iff]
        exact ⟨unquoted, Bool.eq_false_iff.2 unticked⟩
      rw [Mode.first_of_other (Bool.eq_false_iff.2 solid) slash quote, TokenKind.mode,
        if_neg (by simpa using slash)]

/-- Only where another slash may follow a slash does it matter what follows. -/
theorem scanOf_append {c : Char} {input more : List Char}
    (word : startsWith isIdentifierPart more = false)
    (slash : c = '/' → input = [] → startsWith (· == '/') more = false) :
    scanOf c (input ++ more) = scanOf c input := by
  cases input with
  | cons d input => rfl
  | nil =>
      have dollar : startsWith isIdentifierStart more = false :=
        startsWith_of_imp (fun _ => isIdentifierPart_of_start) word
      have slashes : (c == '/' && startsWith (· == '/') more) = false := by
        by_cases same : c = '/'
        · rw [slash same rfl, Bool.and_false]
        · rw [beq_eq_false_iff_ne.2 same, Bool.false_and]
      have none (accepts : Char → Bool) : startsWith accepts [] = false := rfl
      simp only [scanOf, List.nil_append, slashes, dollar, none, Bool.and_false]

/-- How a token comes about: where its first character leads, and what it takes of the input. -/
inductive Munches (c : Char) (input : List Char) : TokenKind → List Char → List Char → Prop where
  | blanks (first : Mode.first c = .start) :
      Munches c input .blank (input.takeWhile isBlank) (input.dropWhile isBlank)
  | comment {body : List Char} (slash : c = '/') (second : input = '/' :: body) :
      Munches c input .comment ('/' :: body.takeWhile (· != '\n')) (body.dropWhile (· != '\n'))
  | quoted {kind : TokenKind} {taken rest : List Char} (first : Mode.first c = .quoted c)
      (plain : kind.mode = .plain) (found : scanQuoted c input = some (taken, rest)) :
      Munches c input kind taken rest
  | word {kind : TokenKind} (first : Mode.first c = .plain) (plain : kind.mode = .plain) :
      Munches c input kind (input.takeWhile isIdentifierPart) (input.dropWhile isIdentifierPart)
  | number (first : Mode.first c = .plain) :
      Munches c input .number (scanNumber input).1 (scanNumber input).2
  | symbol (first : Mode.first c = (TokenKind.symbol c).mode)
      (single : c = '/' → startsWith (· == '/') input = false) :
      Munches c input (.symbol c) [] input

theorem munches_of_munch {c : Char} {input taken rest : List Char} {kind : TokenKind}
    (scanned : munch c input = some (kind, taken, rest)) : Munches c input kind taken rest := by
  have fits := fits_scanOf c input
  rw [munch_eq_take] at scanned
  cases scan : scanOf c input with
  | blanks =>
      rw [scan] at fits scanned
      cases scanned
      exact .blanks fits
  | comment =>
      rw [scan] at fits scanned
      cases scanned
      obtain ⟨slash, second⟩ := fits
      cases input with
      | nil => cases second
      | cons d body =>
          obtain rfl : d = '/' := eq_of_beq second
          exact .comment slash rfl
  | quoted kind =>
      rw [scan] at fits scanned
      obtain ⟨⟨inner, left⟩, found, same⟩ := Option.map_eq_some_iff.1 scanned
      cases same
      exact .quoted fits.1 fits.2 found
  | word kind =>
      rw [scan] at fits scanned
      cases scanned
      exact .word fits.1 fits.2
  | number =>
      rw [scan] at fits scanned
      cases scanned
      exact .number fits
  | symbol =>
      rw [scan] at fits scanned
      cases scanned
      exact .symbol fits.1 fits.2

/-- A token leads from its first character to where a token of its kind leaves the scanner, and
there the next token begins. -/
theorem run_munch {c : Char} {input taken rest : List Char} {kind : TokenKind}
    (scanned : munch c input = some (kind, taken, rest)) :
    (Mode.first c).run taken = kind.mode ∧ kind.mode.Begins rest := by
  have begins := Mode.begins_of_not_slash (.inr rfl)
  cases munches_of_munch scanned with
  | blanks first =>
      rw [first]
      exact ⟨Mode.run_blanks fun d mem => List.mem_takeWhile_imp mem,
        Mode.begins_of_not_slash (.inl rfl) _⟩
  | @comment body slash second =>
      have line : '\n' ∉ body.takeWhile (· != '\n') := fun mem => by
        simpa using List.mem_takeWhile_imp mem
      refine ⟨?_, fun e mem => ?_⟩
      · rw [slash, show Mode.first '/' = .slash by decide +kernel, Mode.run_cons]
        exact Mode.run_comment line
      · -- the comment ends with its line
        have stop := startsWith_dropWhile (· != '\n') body
        obtain ⟨rest, shape⟩ := List.head?_eq_some_iff.1 mem
        rw [shape] at stop
        obtain rfl : e = '\n' := by simpa [startsWith] using stop
        decide +kernel
  | quoted first plain found =>
      rw [first, plain]
      exact ⟨run_scanQuoted found, begins _⟩
  | word first plain =>
      rw [first, plain]
      exact ⟨Mode.run_plain fun d mem =>
        Mode.first_of_isIdentifierPart (List.mem_takeWhile_imp mem), begins _⟩
  | number first =>
      rw [first]
      exact ⟨Mode.run_plain (first_of_mem_scanNumber input), begins _⟩
  | symbol first single =>
      refine ⟨first, fun d mem => ?_⟩
      obtain ⟨rest, shape⟩ := List.head?_eq_some_iff.1 mem
      by_cases slash : c = '/'
      · have other := single slash
        rw [shape] at other
        have apart : ¬ (d == '/') = true := Bool.eq_false_iff.1 other
        rw [TokenKind.mode, if_pos (beq_iff_eq.2 slash), Mode.step, if_neg apart]
      · rw [TokenKind.mode, if_neg (by simpa using slash)]
        rfl

/-- An open quote leaves the scanner inside of it. -/
theorem run_of_munch_eq_none {c : Char} {input : List Char} (scanned : munch c input = none) :
    ((Mode.first c).run input).isOpen = false := by
  have fits := fits_scanOf c input
  rw [munch_eq_take] at scanned
  cases scan : scanOf c input with
  | quoted kind =>
      rw [scan] at fits scanned
      rw [fits.1]
      exact run_scanQuoted_of_none (Option.map_eq_none_iff.1 scanned)
  | _ =>
      rw [scan] at scanned
      cases scanned

/-- A token is the same in front of a text that does not go on with it. White space and comments may
end before that. -/
theorem munch_append_of_stop {c : Char} {input taken rest more : List Char} {kind : TokenKind}
    (scanned : munch c input = some (kind, taken, rest))
    (word : startsWith isIdentifierPart more = false) (point : startsWith (· == '.') more = false)
    (slash : c = '/' → input = [] → startsWith (· == '/') more = false)
    (blank : kind = .blank → rest = [] → startsWith isBlank more = false)
    (line : kind = .comment → rest = [] → startsWith (· != '\n') more = false) :
    munch c (input ++ more) = some (kind, taken, rest ++ more) := by
  rw [munch_eq_take] at scanned ⊢
  rw [scanOf_append word slash]
  cases scan : scanOf c input with
  | blanks =>
      rw [scan] at scanned
      cases scanned
      obtain ⟨taken, left⟩ := append_span (blank rfl)
      rw [Scan.take, taken, left]
  | comment =>
      rw [scan] at scanned
      cases scanned
      obtain ⟨taken, left⟩ := append_span (line rfl)
      rw [Scan.take, taken, left]
  | quoted kind =>
      rw [scan] at scanned
      obtain ⟨⟨inner, left⟩, found, same⟩ := Option.map_eq_some_iff.1 scanned
      cases same
      rw [Scan.take, scanQuoted_more found]
      rfl
  | word kind =>
      rw [scan] at scanned
      cases scanned
      obtain ⟨taken, left⟩ := append_span_of_stop word input
      rw [Scan.take, taken, left]
  | number =>
      rw [scan] at scanned
      cases scanned
      rw [Scan.take, scanNumber_more word point]
  | symbol =>
      rw [scan] at scanned
      cases scanned
      rfl

/-- A token is the same in front of a text that begins another one. -/
theorem munch_more {c : Char} {input taken rest more : List Char} {kind : TokenKind}
    (scanned : munch c input = some (kind, taken, rest)) (apart : kind ≠ .blank)
    (admits : (kind.mode.run rest).admits more = true) :
    munch c (input ++ more) = some (kind, taken, rest ++ more) := by
  have word : startsWith isIdentifierPart more = false :=
    startsWith_of_admits admits fun d part =>
      ⟨not_isBlank_of_isIdentifierPart part, ne_of_mem_punctuation part (by decide)⟩
  have point : startsWith (· == '.') more = false :=
    startsWith_of_admits admits fun d same => by
      rw [eq_of_beq same]
      exact ⟨(apart_of_mem_punctuation (by decide)).1, by decide⟩
  refine munch_append_of_stop scanned word point ?_ (fun blank => absurd blank apart) ?_
  · -- a slash that is all there is stays a slash, because the next token begins with none
    rintro rfl rfl
    have symbol : munch '/' [] = some (.symbol '/', [], []) := by decide +kernel
    rw [symbol] at scanned
    cases scanned
    cases more with
    | nil => rfl
    | cons d more =>
        have blank : isBlank d = true := admits
        refine Bool.eq_false_iff.2 fun same => ?_
        obtain rfl : d = '/' := eq_of_beq same
        exact absurd blank (by decide +kernel)
  · -- a comment at the end is ended only by its line
    rintro rfl rfl
    cases more with
    | nil => rfl
    | cons d more =>
        have line : d = '\n' := by
          simpa [TokenKind.mode, Mode.admits, Mode.isOpen] using admits
        simp [startsWith, line]

/-- A token of white space holds nothing else. -/
theorem isBlank_of_munch {c : Char} {input taken rest : List Char}
    (scanned : munch c input = some (.blank, taken, rest)) :
    isBlank c = true ∧ ∀ d ∈ taken, isBlank d = true := by
  cases munches_of_munch scanned with
  | blanks first => exact ⟨Mode.isBlank_of_first first, fun d mem => List.mem_takeWhile_imp mem⟩
  | quoted _ plain => cases plain
  | word _ plain => cases plain

theorem read_blanks {blanks : List Char} (all : ∀ c ∈ blanks, isBlank c = true)
    (text : List Char) : read true (blanks ++ text) = read true text := by
  induction blanks with
  | nil => rfl
  | cons c blanks ih =>
      obtain ⟨own, others⟩ := List.forall_mem_cons.1 all
      rw [List.cons_append, read_blank own, ih others]

/-- Words behind one more token, in front of others. -/
theorem Word.follow_append (gap : Bool) (kind : TokenKind) (text : String)
    (front back : List Word) :
    Word.follow gap kind text (front ++ back) = Word.follow gap kind text front ++ back := by
  unfold follow
  split <;> rfl

/-- A text that leaves the scanner in the open has words of its own, which stand in front of those
of any text that begins a new token there. -/
theorem exists_words {m : Mode} {text : List Char} (begins : m.Begins text)
    (opens : (m.run text).isOpen = true) :
    ∃ front, ∀ more, (m.run text).admits more = true →
      read m.isGap (text ++ more) = (read (m.run text).isGap more).map (front ++ ·) := by
  induction text using munch_induction generalizing m with
  | nil =>
      refine ⟨[], fun more _ => ?_⟩
      have same : (fun words : List Word => [] ++ words) = id := funext fun _ => rfl
      rw [same, Option.map_id]
      rfl
  | opened c input scanned =>
      rw [Mode.run_cons, begins c rfl, run_of_munch_eq_none scanned] at opens
      cases opens
  | token c input kind taken rest scanned ih =>
      obtain ⟨leads, begins'⟩ := run_munch scanned
      have run : m.run (c :: input) = kind.mode.run rest := by
        rw [Mode.run_cons, begins c rfl, ← munch_append scanned, Mode.run_append, leads]
      rw [run] at opens ⊢
      obtain ⟨front, back⟩ := ih begins' opens
      rw [TokenKind.isGap_mode] at back
      by_cases blank : kind = .blank
      · -- white space may go on in the text behind
        subst blank
        obtain ⟨own, others⟩ := isBlank_of_munch scanned
        refine ⟨front, fun more admits => ?_⟩
        rw [← back more admits, List.cons_append, read_blank own, ← munch_append scanned,
          List.append_assoc, read_blanks others]
        rfl
      · refine ⟨Word.follow m.isGap kind (String.ofList (c :: taken)) front, fun more admits => ?_⟩
        rw [List.cons_append, read_of_munch (munch_more scanned blank admits), back more admits,
          Option.map_map]
        simp only [Function.comp_def, Word.follow_append]

/-- Behind white space any text begins a new token. -/
theorem exists_words_start {text : List Char} (leads : Mode.start.run text = .start) :
    ∃ front, ∀ more, read true (text ++ more) = (read true more).map (front ++ ·) := by
  rcases List.eq_nil_or_concat text with rfl | ⟨text, c, rfl⟩
  · refine ⟨[], fun more => ?_⟩
    have same : (fun words : List Word => [] ++ words) = id := funext fun _ => rfl
    rw [same, Option.map_id]
    rfl
  · rw [List.concat_eq_append, Mode.run_append, Mode.run_cons, Mode.run_nil] at leads
    obtain ⟨blank, admits⟩ := Mode.of_step_eq_start leads
    obtain ⟨front, back⟩ := exists_words (Mode.begins_of_not_slash (.inl rfl) text)
      (Mode.isOpen_of_admits (admits []))
    refine ⟨front, fun more => ?_⟩
    have split := back (c :: more) (admits more)
    rw [read_blank blank] at split
    rw [List.concat_eq_append, List.append_assoc]
    exact split

/-- A text that leaves the scanner in the open is lexed. -/
theorem exists_read {text : List Char} (opens : (Mode.start.run text).isOpen = true) :
    ∃ found, read true text = some found := by
  obtain ⟨front, back⟩ := exists_words (Mode.begins_of_not_slash (.inl rfl) text) opens
  have admits : (Mode.start.run text).admits [] = true := by
    rw [Mode.admits, opens]
    rfl
  have found := back [] admits
  rw [List.append_nil, read_nil] at found
  exact ⟨_, found⟩

end GraphBridge.Query
