import GraphBridge.Proofs.Layout
import Mathlib.Data.List.Chain

/-!
# White space and comments

A text in which white space and comments are made shorter, as far as they separate tokens, has the
same words. The shortest such text depends on the layout alone. So fragments with one layout can
stand for each other in a statement, as long as what is written behind them cannot become part of a
comment at their end.
-/

namespace GraphBridge.Query

open Text

/-! ## Shorter gaps -/

theorem Mode.first_ne_comment (c : Char) : Mode.first c ≠ .comment := by
  unfold Mode.first
  split
  · exact Mode.noConfusion
  split
  · exact Mode.noConfusion
  split <;> exact Mode.noConfusion

/-- Whether white space or a comment comes next. -/
def Mode.meetsGap (m : Mode) : List Char → Bool
  | [] => false
  | c :: rest => isBlank c || m == .plain && (c == '/' && startsWith (· == '/') rest)

namespace Mode

variable {m : Mode} {text : List Char}

theorem meetsGap_cases (meets : m.meetsGap text = true) :
    ∃ c rest, text = c :: rest
      ∧ (isBlank c = true ∨ m = .plain ∧ c = '/' ∧ startsWith (· == '/') rest = true) := by
  cases text with
  | nil => cases meets
  | cons c rest =>
      refine ⟨c, rest, rfl, ?_⟩
      simpa [meetsGap] using meets

theorem meetsGap_append (meets : m.meetsGap text = true) (more : List Char) :
    m.meetsGap (text ++ more) = true := by
  obtain ⟨c, rest, rfl, blank | ⟨rfl, rfl, second⟩⟩ := meetsGap_cases meets
  · simp [meetsGap, blank]
  · cases rest with
    | nil => cases second
    | cons d rest =>
        have same : (d == '/') = true := second
        simp [meetsGap, startsWith, same]

theorem admits_of_meetsGap (solid : m = .plain ∨ m = .slash) (meets : m.meetsGap text = true) :
    m.admits text = true := by
  obtain ⟨c, rest, rfl, blank | ⟨rfl, rfl, -⟩⟩ := meetsGap_cases meets
  · rcases solid with rfl | rfl <;> simp [admits, isOpen, blank]
  · rfl

/-- A gap leads to the same place from behind a token as from behind white space. -/
theorem run_of_meetsGap (solid : m = .plain ∨ m = .slash) (meets : m.meetsGap text = true) :
    m.run text = Mode.start.run text := by
  obtain ⟨c, rest, rfl, blank | ⟨rfl, rfl, -⟩⟩ := meetsGap_cases meets
  · have other : ¬ (c == '/') = true := by
      intro same
      rw [eq_of_beq same] at blank
      exact absurd blank (by decide +kernel)
    rcases solid with rfl | rfl
    · rfl
    · rw [run_cons, step, if_neg other]
      rfl
  · rfl

end Mode

/-- A word behind a gap that the text starts with is behind one anyhow. -/
theorem read_of_meetsGap {m : Mode} {text : List Char} (meets : m.meetsGap text = true)
    (gap : Bool) : read gap text = read true text := by
  obtain ⟨c, rest, rfl, blank | ⟨-, rfl, second⟩⟩ := Mode.meetsGap_cases meets
  · rw [read_blank blank, read_blank blank]
  · have scanned : munch '/' rest
        = some (.comment, rest.takeWhile (· != '\n'), rest.dropWhile (· != '\n')) := by
      have blank := (apart_of_mem_punctuation (c := '/') (by decide)).1
      rw [munch, blank, if_neg (by decide), if_pos (by rw [second]; rfl)]
    rw [read_of_trivia scanned rfl, read_of_trivia scanned rfl]

/-- The second text is the first with each run of white space and comments made shorter, as far as
it separates tokens. The modes are those in front of the texts and behind them. -/
inductive Thins : Mode → List Char → List Char → Mode → Prop where
  | nil (m : Mode) : Thins m [] [] m
  | char {m n : Mode} {a b : List Char} (c : Char) (later : Thins (m.step c) a b n) :
      Thins m (c :: a) (c :: b) n
  /-- A gap that follows a token stays one. -/
  | mark {m n : Mode} {a b : List Char} {c : Char} (solid : m = .plain ∨ m = .slash)
      (meets : m.meetsGap a = true) (blank : isBlank c = true) (later : Thins .start a b n) :
      Thins m a (c :: b) n
  | blank {n : Mode} {a b : List Char} {c : Char} (blank : isBlank c = true)
      (later : Thins .start a b n) : Thins .start (c :: a) b n
  | comment {n : Mode} {a b : List Char} {body : List Char} (line : '\n' ∉ body)
      (later : Thins .start ('\n' :: a) b n) :
      Thins .start ('/' :: '/' :: (body ++ '\n' :: a)) b n

namespace Thins

variable {m n k : Mode} {a b : List Char}

theorem refl (m : Mode) (a : List Char) : Thins m a a (m.run a) := by
  induction a generalizing m with
  | nil => exact .nil m
  | cons c a ih => exact .char c (ih (m.step c))

theorem append {c d : List Char} (first : Thins m a b n) (second : Thins n c d k) :
    Thins m (a ++ c) (b ++ d) k := by
  induction first with
  | nil => exact second
  | char c _ ih => exact .char c (ih second)
  | mark solid meets blank _ ih =>
      exact .mark solid (Mode.meetsGap_append meets c) blank (ih second)
  | blank blank _ ih => exact .blank blank (ih second)
  | comment line _ ih =>
      have later := ih second
      rw [List.cons_append] at later
      have whole := Thins.comment line later
      simpa using whole

/-- A blank begins a new token behind another one. -/
theorem admits_blank (solid : m = .plain ∨ m = .slash) {c : Char} (blank : isBlank c = true)
    (text : List Char) : m.admits (c :: text) = true := by
  rcases solid with rfl | rfl <;> simp [Mode.admits, Mode.isOpen, blank]

/-- Both texts leave the scanner in one place. -/
theorem run (thins : Thins m a b n) : m.run a = n ∧ m.run b = n := by
  induction thins with
  | nil m => exact ⟨rfl, rfl⟩
  | char c _ ih => exact ih
  | @mark m n a b c solid meets blank _ ih =>
      refine ⟨(Mode.run_of_meetsGap solid meets).trans ih.1, ?_⟩
      have gap : m.meetsGap (c :: b) = true := by rw [Mode.meetsGap, blank, Bool.true_or]
      rw [Mode.run_of_meetsGap solid gap, Mode.run_cons, Mode.step, Mode.first_of_isBlank blank]
      exact ih.2
  | blank blank _ ih =>
      refine ⟨?_, ih.2⟩
      rw [Mode.run_cons, Mode.step, Mode.first_of_isBlank blank]
      exact ih.1
  | @comment n a b body line _ ih =>
      refine ⟨?_, ih.2⟩
      have newline : Mode.start.run ('\n' :: a) = Mode.start.run a :=
        congrArg (Mode.run · a) (by decide +kernel)
      have inside : Mode.start.run ('/' :: '/' :: (body ++ '\n' :: a))
          = Mode.comment.run (body ++ '\n' :: a) :=
        congrArg (Mode.run · (body ++ '\n' :: a)) (by decide +kernel)
      rw [inside, Mode.run_append, Mode.run_comment line, Mode.run_cons, ← ih.1, newline]
      rfl

/-- Behind the same text, both texts have the same words. -/
theorem read_append (thins : Thins m a b n) {front : List Char} (leads : Mode.start.run front = m) :
    read true (front ++ a) = read true (front ++ b) := by
  induction thins generalizing front with
  | nil m => rfl
  | char c _ ih =>
      have longer := @ih (front ++ [c]) (by rw [Mode.run_append, leads]; rfl)
      simpa using longer
  | @mark m n a b c solid meets blank _ ih =>
      have opens : (Mode.start.run front).isOpen = true := by
        rw [leads]
        rcases solid with rfl | rfl <;> rfl
      obtain ⟨words, back⟩ := exists_words (Mode.begins_of_not_slash (.inl rfl) front) opens
      rw [leads] at back
      have first := back a (Mode.admits_of_meetsGap solid meets)
      have second := back (c :: b) (admits_blank solid blank b)
      rw [read_of_meetsGap meets] at first
      rw [read_blank blank] at second
      exact first.trans ((congrArg _ (@ih [] rfl)).trans second.symm)
  | @blank n a b c blank _ ih =>
      obtain ⟨words, back⟩ := exists_words_start leads
      rw [back, back, read_blank blank]
      exact congrArg _ (@ih [] rfl)
  | @comment n a b body line _ ih =>
      obtain ⟨words, back⟩ := exists_words_start leads
      rw [back, back, read_comment line]
      exact congrArg _ (@ih [] rfl)

/-- Both texts have the same words. -/
theorem read_eq (thins : Thins .start a b n) : read true a = read true b :=
  @read_append _ _ _ _ thins [] rfl

end Thins

/-! ## Tokens that stand one behind the other -/

/-- A token that the scanner finds at the front of some text. -/
def Token.IsScanned (t : Token) : Prop :=
  ∃ c input taken rest, munch c input = some (t.kind, taken, rest) ∧ t.text.toList = c :: taken

/-- Whether the scanner takes the text of a token for a new token behind another one. -/
def Token.Adjoins (t u : Token) : Prop :=
  t.kind.mode.Begins u.text.toList

/-- Tokens as they stand one behind the other in a text, or in part of one. -/
structure Laid (tokens : List Token) : Prop where
  scanned : ∀ t ∈ tokens, t.IsScanned
  adjoining : tokens.IsChain Token.Adjoins

/-- The text of tokens. -/
def spelling (tokens : List Token) : List Char :=
  tokens.flatMap (·.text.toList)

theorem spelling_cons {t : Token} {c : Char} {taken : List Char} (text : t.text.toList = c :: taken)
    (rest : List Token) : spelling (t :: rest) = c :: (taken ++ spelling rest) := by
  rw [spelling, List.flatMap_cons, text]
  rfl

theorem Fragment.toList_text (f : Fragment) : f.text.toList = spelling f.tokens := by
  unfold text spelling
  induction f.tokens with
  | nil => rfl
  | cons t rest ih =>
      rw [List.map_cons, String.join_cons, String.toList_append, ih, List.flatMap_cons]

theorem Mode.Begins.front {m : Mode} {front back : List Char} (begins : m.Begins (front ++ back)) :
    m.Begins front := by
  cases front with
  | nil => exact begins_nil m
  | cons c front => exact begins

theorem Mode.Begins.whole {m : Mode} {front : List Char} (begins : m.Begins front)
    (nonempty : front ≠ []) (back : List Char) : m.Begins (front ++ back) := by
  cases front with
  | nil => exact absurd rfl nonempty
  | cons c front => exact begins

/-- The tokens of a text are laid, and spell the text. -/
theorem laid_of_tokensFrom {start : Nat} {text : List Char} {tokens : List Token}
    (lexed : tokensFrom start text = .ok tokens) : Laid tokens ∧ spelling tokens = text := by
  refine lexed_induction (motive := fun text tokens => Laid tokens ∧ spelling tokens = text)
    ⟨⟨List.forall_mem_nil _, .nil⟩, rfl⟩ ?_ lexed
  rintro c input kind taken rest start _ more scanned - ⟨laid, whole⟩
  have text : (Token.mk kind (String.ofList (c :: taken)) start).text.toList = c :: taken :=
    String.toList_ofList
  refine ⟨⟨List.forall_mem_cons.2 ⟨⟨c, input, taken, rest, scanned, text⟩, laid.scanned⟩,
    laid.adjoining.cons fun u first => ?_⟩, ?_⟩
  · obtain ⟨others, rfl⟩ := List.head?_eq_some_iff.1 first
    have begins := (run_munch scanned).2
    rw [← whole] at begins
    exact begins.front
  · rw [spelling_cons text, whole, munch_append scanned]

/-- A comment holds no line break. -/
theorem line_of_munch {c : Char} {input taken rest : List Char}
    (scanned : munch c input = some (.comment, taken, rest)) :
    c = '/' ∧ ∃ body, taken = '/' :: body ∧ '\n' ∉ body := by
  cases munches_of_munch scanned with
  | comment slash =>
      exact ⟨slash, _, rfl, fun mem => by simpa using List.mem_takeWhile_imp mem⟩
  | quoted _ plain => cases plain
  | word _ plain => cases plain

/-- What is known of the text of a token. -/
theorem Token.IsScanned.text_cases {t : Token} (scanned : t.IsScanned) :
    ∃ c rest, t.text.toList = c :: rest ∧ (Mode.first c).run rest = t.kind.mode
      ∧ (t.kind = .blank → isBlank c = true ∧ ∀ d ∈ rest, isBlank d = true)
      ∧ (t.kind = .comment → c = '/' ∧ ∃ body, rest = '/' :: body ∧ '\n' ∉ body) := by
  obtain ⟨c, input, taken, rest, found, text⟩ := scanned
  refine ⟨c, taken, text, (run_munch found).1, fun blank => ?_, fun comment => ?_⟩
  · rw [blank] at found
    exact isBlank_of_munch found
  · rw [comment] at found
    exact line_of_munch found

/-- Words spelled out with one blank for each gap, behind a gap or not. -/
def spell (gap : Bool) : List Word → List Char
  | [] => []
  | w :: rest => (if w.isSpaced && !gap then [' '] else []) ++ w.text.toList ++ spell false rest

/-- The first word is spelled behind a gap if it stands behind one. -/
theorem spell_words {tokens : List Token} (meaningful : ∃ t ∈ tokens, t.isTrivia = false) :
    spell false (words true tokens) = ' ' :: spell true (words true tokens) := by
  induction tokens with
  | nil =>
      obtain ⟨t, mem, -⟩ := meaningful
      cases mem
  | cons t rest ih =>
      cases own : t.isTrivia with
      | false =>
          rw [words_cons_of_word own]
          rfl
      | true =>
          rw [words_cons_of_trivia own]
          refine ih ?_
          obtain ⟨u, mem, word⟩ := meaningful
          rcases List.mem_cons.1 mem with rfl | later
          · rw [own] at word
            cases word
          · exact ⟨u, later, word⟩

theorem isTrivia_cases {t : Token} (trivia : t.isTrivia = true) :
    t.kind = .blank ∨ t.kind = .comment := by
  simpa [Token.isTrivia] using trivia

/-- Where a word leaves the scanner. -/
theorem TokenKind.mode_of_word {kind : TokenKind} (word : kind.isTrivia = false) :
    kind.mode = .plain ∨ kind.mode = .slash := by
  cases kind with
  | symbol c =>
      rw [mode]
      split
      · exact .inr rfl
      · exact .inl rfl
  | blank | comment => cases word
  | _ => exact .inl rfl

theorem Thins.blanks {blanks a b : List Char} {n : Mode} (all : ∀ c ∈ blanks, isBlank c = true)
    (later : Thins .start a b n) : Thins .start (blanks ++ a) b n := by
  induction blanks with
  | nil => exact later
  | cons c blanks ih =>
      obtain ⟨own, others⟩ := List.forall_mem_cons.1 all
      exact .blank own (ih others)

namespace Laid

variable {tokens : List Token} {t : Token} {rest : List Token}

theorem of_isInfix {part : List Token} (laid : Laid tokens) (inside : part <:+: tokens) :
    Laid part where
  scanned t mem := laid.scanned t (inside.subset mem)
  adjoining := laid.adjoining.infix inside

theorem tail (laid : Laid (t :: rest)) : Laid rest :=
  laid.of_isInfix (List.suffix_cons t rest).isInfix

/-- What is behind a token begins a new one. -/
theorem begins (laid : Laid (t :: rest)) : t.kind.mode.Begins (spelling rest) := by
  cases rest with
  | nil => exact Mode.begins_nil _
  | cons u rest =>
      have adjoins : t.Adjoins u := laid.adjoining.rel_head? rfl
      obtain ⟨c, others, text, -⟩ :=
        (laid.scanned u (List.mem_cons_of_mem _ List.mem_cons_self)).text_cases
      exact Mode.Begins.whole adjoins (by rw [text]; exact List.cons_ne_nil c others) _

/-- A token leads from wherever it begins to where a token of its kind leaves the scanner. -/
theorem run_text (laid : Laid (t :: rest)) {m : Mode} (begins : m.Begins (spelling (t :: rest))) :
    m.run t.text.toList = t.kind.mode := by
  obtain ⟨c, others, text, run, -⟩ := (laid.scanned t List.mem_cons_self).text_cases
  have first : m.step c = Mode.first c := begins c (by
    rw [spelling_cons text]
    rfl)
  rw [text, Mode.run_cons, first, run]

/-- Behind a comment its line ends. -/
theorem line_of_comment (laid : Laid (t :: rest)) (comment : t.kind = .comment) {a : List Char}
    (ends : rest = [] → ∃ text, a = '\n' :: text) : ∃ text, spelling rest ++ a = '\n' :: text := by
  cases rest with
  | nil => exact ends rfl
  | cons u others =>
      have adjoins : t.Adjoins u := laid.adjoining.rel_head? rfl
      obtain ⟨c, more, text, -⟩ :=
        (laid.scanned u (List.mem_cons_of_mem _ List.mem_cons_self)).text_cases
      have begins := adjoins c (by rw [text]; rfl)
      obtain rfl : c = '\n' := by
        rw [comment] at begins
        refine Classical.byContradiction fun other => Mode.first_ne_comment c ?_
        rwa [TokenKind.mode, Mode.step, if_neg (by simpa using other), eq_comm] at begins
      refine ⟨more ++ spelling others ++ a, ?_⟩
      show u.text.toList ++ spelling others ++ a = _
      rw [text]
      simp

/-- White space and comments at the beginning of a line may be left out. -/
theorem skip (laid : Laid (t :: rest)) (trivia : t.isTrivia = true) {a b : List Char} {n : Mode}
    (line : t.kind = .comment → ∃ more, a = '\n' :: more) (later : Thins .start a b n) :
    Thins .start (t.text.toList ++ a) b n := by
  obtain ⟨c, others, text, -, blank, comment⟩ :=
    (laid.scanned t List.mem_cons_self).text_cases
  rw [text]
  rcases isTrivia_cases trivia with kind | kind
  · obtain ⟨own, all⟩ := blank kind
    exact .blank own (later.blanks all)
  · obtain ⟨rfl, body, rfl, free⟩ := comment kind
    obtain ⟨more, rfl⟩ := line kind
    exact .comment free later

/-- White space and comments in front of a line break may be left out. -/
theorem skipAll (laid : Laid tokens) (trivia : ∀ t ∈ tokens, t.isTrivia = true)
    {more b : List Char} {n : Mode} (later : Thins .start ('\n' :: more) b n) :
    Thins .start (spelling tokens ++ '\n' :: more) b n := by
  induction tokens with
  | nil => exact later
  | cons t rest ih =>
      obtain ⟨own, others⟩ := List.forall_mem_cons.1 trivia
      have line (kind : t.kind = .comment) := laid.line_of_comment kind fun _ => ⟨more, rfl⟩
      have skipped := laid.skip own line (ih laid.tail others)
      rwa [← List.append_assoc] at skipped

/-- Behind a word, white space or a comment is a gap. -/
theorem meetsGap (laid : Laid (t :: rest)) (trivia : t.isTrivia = true) {m : Mode}
    (solid : m = .plain ∨ m = .slash) (begins : m.Begins (spelling (t :: rest))) :
    m.meetsGap (spelling (t :: rest)) = true := by
  obtain ⟨c, others, text, -, blank, comment⟩ :=
    (laid.scanned t List.mem_cons_self).text_cases
  have whole : spelling (t :: rest) = c :: (others ++ spelling rest) := spelling_cons text rest
  rw [whole] at begins ⊢
  rcases isTrivia_cases trivia with kind | kind
  · rw [Mode.meetsGap, (blank kind).1, Bool.true_or]
  · obtain ⟨rfl, body, rfl, -⟩ := comment kind
    rcases solid with rfl | rfl
    · exact @Mode.meetsGap_append _ ['/', '/'] (by decide +kernel) _
    · have opened := begins '/' rfl
      exact absurd opened (by decide +kernel)

/-- Tokens up to a last word thin out to their words. -/
theorem thins_words (laid : Laid tokens) (ends : ∀ t ∈ tokens.getLast?, t.isTrivia = false) :
    (∃ n, Thins .start (spelling tokens) (spell true (words true tokens)) n)
      ∧ ∀ m, m = .plain ∨ m = .slash → m.Begins (spelling tokens) →
        ∃ n, Thins m (spelling tokens) (spell false (words false tokens)) n := by
  induction tokens with
  | nil => exact ⟨⟨_, .nil _⟩, fun m _ _ => ⟨_, .nil m⟩⟩
  | cons t rest ih =>
      have words' : ∀ u ∈ rest.getLast?, u.isTrivia = false := fun u mem =>
        ends u (List.mem_getLast?_cons mem)
      obtain ⟨open', solid'⟩ := ih laid.tail words'
      cases trivia : t.isTrivia with
      | false =>
          have word (m : Mode) (begins : m.Begins (spelling (t :: rest))) (gap : Bool)
              (tight : (gap && !gap) = false) :
              ∃ n, Thins m (spelling (t :: rest)) (spell gap (words gap (t :: rest))) n := by
            obtain ⟨n, later⟩ := solid' _ (TokenKind.mode_of_word trivia) laid.begins
            rw [← laid.run_text begins] at later
            refine ⟨n, ?_⟩
            rw [words_cons_of_word trivia, spell, tight]
            exact (Thins.refl m t.text.toList).append later
          exact ⟨word .start (Mode.begins_of_not_slash (.inl rfl) _) true rfl,
            fun m _ begins => word m begins false rfl⟩
      | true =>
          obtain ⟨n, later⟩ := open'
          cases last : rest.getLast? with
          | none =>
              -- the last token would be white space or a comment
              rw [List.getLast?_eq_none_iff] at last
              subst last
              have word := ends t rfl
              rw [trivia] at word
              cases word
          | some u =>
              have word := words' u last
              have opened :
                  Thins .start (spelling (t :: rest)) (spell true (words true rest)) n := by
                refine laid.skip trivia (fun kind => ?_) later
                have line := laid.line_of_comment kind (a := []) fun none => by
                  rw [none] at last
                  cases last
                rwa [List.append_nil] at line
              refine ⟨⟨n, by rwa [words_cons_of_trivia trivia]⟩, fun m solid begins => ⟨n, ?_⟩⟩
              rw [words_cons_of_trivia trivia, spell_words ⟨u, List.mem_of_getLast? last, word⟩]
              exact .mark solid (laid.meetsGap trivia solid begins)
                (isBlank_of_space_or_line (.inl rfl)) opened

/-- Tokens leave the scanner where the last of them does. -/
theorem run_spelling {last : Token} (laid : Laid (tokens ++ [last])) {m : Mode}
    (begins : m.Begins (spelling (tokens ++ [last]))) :
    m.run (spelling (tokens ++ [last])) = last.kind.mode := by
  induction tokens generalizing m with
  | nil =>
      have run := laid.run_text begins
      simpa [spelling] using run
  | cons t rest ih =>
      have run := laid.run_text begins
      show m.run (t.text.toList ++ spelling (rest ++ [last])) = _
      rw [Mode.run_append, run]
      exact ih laid.tail laid.begins

/-- A line thins out to its words. -/
theorem thins_line (laid : Laid tokens) :
    Thins .start (spelling tokens ++ ['\n']) (spell true (words true tokens) ++ ['\n']) .start := by
  have newline : isBlank '\n' = true := isBlank_of_space_or_line (.inr rfl)
  have ended (m : Mode) (stop : m.step '\n' = .start) : Thins m ['\n'] ['\n'] .start :=
    .char '\n' (stop ▸ .nil _)
  have split : tokens.rdropWhile Token.isTrivia ++ tokens.rtakeWhile Token.isTrivia = tokens :=
    List.rdropWhile_append_rtakeWhile
  have trail : ∀ t ∈ tokens.rtakeWhile Token.isTrivia, t.isTrivia = true :=
    fun t mem => List.mem_rtakeWhile_imp mem
  have last (nonempty : tokens.rdropWhile Token.isTrivia ≠ []) :=
    List.rdropWhile_last_not Token.isTrivia tokens nonempty
  generalize tokens.rdropWhile Token.isTrivia = front at split last
  generalize tokens.rtakeWhile Token.isTrivia = back at split trail
  subst split
  rw [words_append_trivia trail, spelling, List.flatMap_append, List.append_assoc]
  have laidBack : Laid back := laid.of_isInfix (List.suffix_append _ _).isInfix
  rcases List.eq_nil_or_concat front with rfl | ⟨front, u, rfl⟩
  · exact laidBack.skipAll trail (ended .start (by decide +kernel))
  · rw [List.concat_eq_append] at laid last ⊢
    have word : u.isTrivia = false := by simpa using last
    have laidFront : Laid (front ++ [u]) := laid.of_isInfix (List.prefix_append _ _).isInfix
    obtain ⟨n, thins⟩ := (laidFront.thins_words (by simpa using word)).1
    have run : n = u.kind.mode :=
      thins.run.1.symm.trans (laidFront.run_spelling (Mode.begins_of_not_slash (.inl rfl) _))
    have solid : n = .plain ∨ n = .slash := run ▸ TokenKind.mode_of_word word
    refine thins.append ?_
    cases back with
    | nil =>
        refine ended n ?_
        rcases solid with rfl | rfl <;> decide +kernel
    | cons t rest =>
        have begins : n.Begins (spelling (t :: rest)) := by
          rw [run]
          have behind : Laid (u :: t :: rest) := laid.of_isInfix (by
            rw [List.append_assoc]
            exact (List.suffix_append _ _).isInfix)
          exact behind.begins
        have meets := laidBack.meetsGap (trail t List.mem_cons_self) solid begins
        exact .mark solid (Mode.meetsGap_append meets _) newline
          (laidBack.skipAll trail (.blank newline (.nil _)))

end Laid

/-- A line break at the end of a text that leaves the scanner in the open adds nothing. -/
theorem read_line {text : List Char} (leads : Mode.start.run (text ++ ['\n']) = .start) :
    read true (text ++ ['\n']) = read true text := by
  rw [Mode.run_append, Mode.run_cons, Mode.run_nil] at leads
  obtain ⟨blank, admits⟩ := Mode.of_step_eq_start leads
  have opens := Mode.isOpen_of_admits (admits [])
  obtain ⟨front, back⟩ := exists_words (Mode.begins_of_not_slash (.inl rfl) text) opens
  have alone := back [] (by rw [Mode.admits, opens]; rfl)
  rw [List.append_nil, read_nil] at alone
  have line := back ['\n'] (admits [])
  rw [read_blank blank, read_nil] at line
  exact line.trans alone.symm

/-- Lines that thin out to the same have the same words. -/
theorem Thins.read_line {a b : List Char}
    (thins : Thins .start (a ++ ['\n']) (b ++ ['\n']) .start) :
    read true a = read true b := by
  rw [← Query.read_line thins.run.1, ← Query.read_line thins.run.2]
  exact thins.read_eq

end GraphBridge.Query
