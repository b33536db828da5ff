import GraphBridge.Proofs.Trivia

/-!
# Fragments without their comments

Replacing each comment of a text by a blank gives a text with the same layout and without comments.
Two fragments with one layout stay so when both are cut at their `RETURN` and when both get the same
new names.
-/

namespace GraphBridge.Query

open Text

/-! ## Comments removed -/

/-- A token, with a blank in place of a comment. -/
def Token.blanked (t : Token) : Token :=
  if t.kind == .comment then { t with kind := .blank, text := " " } else t

/-- A text with each comment replaced by a blank; one with an open quote stays as it is. -/
def withoutComments (text : String) : String :=
  match tokenize text with
  | .ok tokens => (Fragment.mk (tokens.map Token.blanked)).text
  | .error _ => text

namespace Token

theorem blanked_of_comment {t : Token} (comment : t.kind = .comment) :
    t.blanked = { t with kind := .blank, text := " " } := by
  rw [blanked, if_pos (beq_iff_eq.2 comment)]

theorem blanked_of_ne {t : Token} (other : t.kind ≠ .comment) : t.blanked = t := by
  rw [blanked, if_neg (by simpa using other)]

theorem isScanned_blanked {t : Token} (scanned : t.IsScanned) : t.blanked.IsScanned := by
  by_cases comment : t.kind = .comment
  · rw [blanked_of_comment comment]
    exact ⟨' ', [], [], [], munch_blank (isBlank_of_space_or_line (.inl rfl)) rfl,
      show " ".toList = [' '] by decide +kernel⟩
  · rwa [blanked_of_ne comment]

theorem kind_blanked (t : Token) : t.blanked.kind ≠ .comment := by
  by_cases comment : t.kind = .comment
  · rw [blanked_of_comment comment]
    exact TokenKind.noConfusion
  · rwa [blanked_of_ne comment]

/-- A blank begins a new token where no comment is open. -/
theorem Adjoins.blanked {t u : Token} (adjoins : t.Adjoins u) : t.blanked.Adjoins u.blanked := by
  by_cases comment : t.kind = .comment
  · rw [blanked_of_comment comment]
    exact Mode.begins_of_not_slash (.inl rfl) _
  rw [blanked_of_ne comment]
  by_cases hidden : u.kind = .comment
  · rw [blanked_of_comment hidden]
    intro c mem
    obtain rfl : ' ' = c := by simpa using mem
    have blank : isBlank ' ' = true := isBlank_of_space_or_line (.inl rfl)
    cases kind : t.kind with
    | comment => exact absurd kind comment
    | symbol d =>
        rw [TokenKind.mode]
        split <;> decide +kernel
    | _ => rfl
  · rwa [blanked_of_ne hidden]

end Token

theorem Laid.blanked {tokens : List Token} (laid : Laid tokens) :
    Laid (tokens.map Token.blanked) where
  scanned := by
    rintro _ blanked
    obtain ⟨t, mem, rfl⟩ := List.mem_map.1 blanked
    exact Token.isScanned_blanked (laid.scanned t mem)
  adjoining := (List.isChain_map _).2 (laid.adjoining.imp fun _ _ adjoins => adjoins.blanked)

theorem words_blanked (gap : Bool) (tokens : List Token) :
    words gap (tokens.map Token.blanked) = words gap tokens := by
  induction tokens generalizing gap with
  | nil => rfl
  | cons t rest ih =>
      rw [List.map_cons]
      by_cases comment : t.kind = .comment
      · have trivia : t.isTrivia = true := by simp [Token.isTrivia, comment]
        rw [Token.blanked_of_comment comment, words_cons_of_trivia rfl, words_cons_of_trivia trivia,
          ih]
      · rw [Token.blanked_of_ne comment, words, words, ih]

/-! ## Texts that open no comment -/

/-- Whether the scanner never stands in a comment on its way through a text. -/
def Mode.Quiet (m : Mode) (text : List Char) : Prop :=
  ∀ front, front <+: text → m.run front ≠ .comment

theorem Mode.Quiet.append {m : Mode} {front back : List Char} (first : m.Quiet front)
    (second : (m.run front).Quiet back) : m.Quiet (front ++ back) := by
  rintro part ⟨rest, whole⟩
  rcases List.append_eq_append_iff.1 whole with ⟨more, sooner, -⟩ | ⟨more, rfl, later⟩
  · exact first part ⟨more, sooner.symm⟩
  · rw [run_append]
    exact second more ⟨rest, later.symm⟩

theorem Mode.Quiet.cons {m : Mode} {c : Char} {text : List Char} (here : m ≠ .comment)
    (later : (m.step c).Quiet text) : m.Quiet (c :: text) := by
  intro front inside
  rcases List.prefix_cons_iff.1 inside with rfl | ⟨rest, rfl, inside⟩
  · exact here
  · exact later rest (List.prefix_cons_inj c |>.1 inside)

theorem quiet_scanQuoted {quote : Char} {input taken rest : List Char}
    (scanned : scanQuoted quote input = some (taken, rest)) :
    (Mode.quoted quote).Quiet taken := by
  refine scanQuoted_induction (motive := (Mode.quoted quote).Quiet) ?_ ?_ ?_ scanned
  · intro other
    refine .cons Mode.noConfusion ?_
    rw [Mode.step_quote other]
    intro front inside
    rw [List.prefix_nil.1 inside]
    exact Mode.noConfusion
  · intro c inner escapes ih
    refine .cons Mode.noConfusion ?_
    rw [Mode.step_backslash escapes]
    exact .cons Mode.noConfusion ih
  · intro c inner inside plain ih
    refine .cons Mode.noConfusion ?_
    rw [Mode.step_inside inside plain]
    exact ih

/-- No token but a comment has one inside. -/
theorem quiet_munch {c : Char} {input taken rest : List Char} {kind : TokenKind}
    (scanned : munch c input = some (kind, taken, rest)) (other : kind ≠ .comment) :
    (Mode.first c).Quiet taken := by
  cases munches_of_munch scanned with
  | blanks first =>
      intro front inside
      rw [first, Mode.run_blanks fun d mem => List.mem_takeWhile_imp (inside.subset mem)]
      exact Mode.noConfusion
  | comment => exact absurd rfl other
  | quoted first _ found =>
      rw [first]
      exact quiet_scanQuoted found
  | word first =>
      intro front inside
      rw [first, Mode.run_plain fun d mem =>
        Mode.first_of_isIdentifierPart (List.mem_takeWhile_imp (inside.subset mem))]
      exact Mode.noConfusion
  | number first =>
      intro front inside
      rw [first, Mode.run_plain fun d mem => first_of_mem_scanNumber input d (inside.subset mem)]
      exact Mode.noConfusion
  | symbol =>
      intro front inside
      rw [List.prefix_nil.1 inside]
      exact Mode.first_ne_comment c

/-- Tokens among which there is no comment open none. -/
theorem Laid.quiet {tokens : List Token} (laid : Laid tokens)
    (free : ∀ t ∈ tokens, t.kind ≠ .comment) {m : Mode} (here : m ≠ .comment)
    (begins : m.Begins (spelling tokens)) : m.Quiet (spelling tokens) := by
  induction tokens generalizing m with
  | nil =>
      intro front inside
      rw [List.prefix_nil.1 inside]
      exact here
  | cons t rest ih =>
      obtain ⟨own, others⟩ := List.forall_mem_cons.1 free
      have run := laid.run_text begins
      obtain ⟨c, input, taken, left, scanned, text⟩ := laid.scanned t List.mem_cons_self
      have first : m.step c = Mode.first c := begins c (by
        rw [spelling_cons text]
        rfl)
      have quiet : m.Quiet t.text.toList := by
        rw [text]
        exact .cons here (first ▸ quiet_munch scanned own)
      refine quiet.append (run ▸ ih laid.tail others ?_ laid.begins)
      intro comment
      exact quiet _ (List.prefix_refl _) (run.trans comment)

/-- Tokens of a text that opens no comment are none. -/
theorem Laid.free {tokens : List Token} (laid : Laid tokens)
    (quiet : Mode.start.Quiet (spelling tokens)) : ∀ t ∈ tokens, t.kind ≠ .comment := by
  intro t mem comment
  obtain ⟨front, back, rfl⟩ := List.append_of_mem mem
  rw [List.append_cons] at laid quiet
  have inside : spelling (front ++ [t]) <+: spelling (front ++ [t] ++ back) :=
    ⟨spelling back, List.flatMap_append.symm⟩
  have laidFront : Laid (front ++ [t]) := laid.of_isInfix (List.prefix_append _ _).isInfix
  refine quiet _ inside ?_
  rw [laidFront.run_spelling (Mode.begins_of_not_slash (.inl rfl) _), comment]
  rfl

/-! ## Fragments alike -/

namespace Fragment

/-- Whether there is neither white space nor a comment at the end. -/
def endsInWord (f : Fragment) : Bool :=
  f.tokens.getLast?.all (!·.isTrivia)

/-- Fragments that can stand for each other: they have one layout, and the second ends in a word if
the first does. -/
structure Alike (f g : Fragment) : Prop where
  layout : f.layout = g.layout
  first : Laid f.tokens
  second : Laid g.tokens
  ends : f.endsInWord = true → g.endsInWord = true

/-- A fragment with its layout is what is read from a text. -/
theorem read_eq_some {text : String} {found : List Word} :
    read true text.toList = some found ↔ ∃ f, ofText text = .ok f ∧ f.layout = found := by
  unfold read ofText tokenize
  cases tokensFrom 0 text.toList with
  | error fault => simp [Except.toOption, Except.map]
  | ok tokens => simp [Except.toOption, Except.map, layout]

theorem tokenize_of_ofText {text : String} {f : Fragment} (lexed : ofText text = .ok f) :
    tokenize text = .ok f.tokens := by
  unfold ofText at lexed
  cases found : tokenize text with
  | error fault =>
      rw [found] at lexed
      cases lexed
  | ok tokens =>
      rw [found] at lexed
      cases lexed
      rfl

theorem laid_of_ofText {text : String} {f : Fragment} (lexed : ofText text = .ok f) :
    Laid f.tokens ∧ spelling f.tokens = text.toList :=
  laid_of_tokensFrom (tokenize_of_ofText lexed)

/-- A text ends in a word if it leaves the scanner behind one. -/
theorem endsInWord_of_run {f : Fragment} (laid : Laid f.tokens)
    (behind : (Mode.start.run (spelling f.tokens)).isGap = false) : f.endsInWord = true := by
  rcases List.eq_nil_or_concat f.tokens with none | ⟨front, last, shape⟩
  · rw [endsInWord, none]
    rfl
  · rw [List.concat_eq_append] at shape
    rw [shape] at laid behind
    rw [laid.run_spelling (Mode.begins_of_not_slash (.inl rfl) _), TokenKind.isGap_mode] at behind
    have word : last.isTrivia = false := behind
    rw [endsInWord, shape, List.getLast?_concat, Option.all_some, word]
    rfl

/-- A text without its comments spells a fragment like its own, in which there is no comment. -/
theorem exists_withoutComments {text : String} {f : Fragment} (lexed : ofText text = .ok f) :
    ∃ g, ofText (withoutComments text) = .ok g ∧ Alike f g ∧ ∀ t ∈ g.tokens, t.kind ≠ .comment := by
  obtain ⟨laid, whole⟩ := laid_of_ofText lexed
  have blanked : (withoutComments text).toList = spelling (f.tokens.map Token.blanked) := by
    rw [withoutComments, tokenize_of_ofText lexed]
    exact toList_text _
  have read : read true (withoutComments text).toList = some f.layout := by
    have first := laid.thins_line.read_line
    have second := laid.blanked.thins_line.read_line
    rw [words_blanked] at second
    rw [blanked, second, ← first, whole]
    exact read_eq_some.2 ⟨f, lexed, rfl⟩
  obtain ⟨g, lexed', layout⟩ := read_eq_some.1 read
  obtain ⟨laid', whole'⟩ := laid_of_ofText lexed'
  have start (text : List Char) := Mode.begins_of_not_slash (.inl rfl) text
  refine ⟨g, lexed', ⟨layout.symm, laid, laid', fun ends => ?_⟩, laid'.free ?_⟩
  · rcases List.eq_nil_or_concat f.tokens with none | ⟨front, last, shape⟩
    · rw [none] at blanked
      rw [ofText, tokenize, blanked, List.map_nil, spelling, List.flatMap_nil, tokensFrom] at lexed'
      cases lexed'
      rfl
    · rw [List.concat_eq_append] at shape
      rw [endsInWord, shape, List.getLast?_concat, Option.all_some] at ends
      have word : last.isTrivia = false := by simpa using ends
      have kept : last.blanked = last :=
        Token.blanked_of_ne fun comment => by
          simp [Token.isTrivia, comment] at word
      have laidBlanked := laid.blanked
      rw [shape, List.map_append, List.map_singleton, kept] at blanked laidBlanked
      refine endsInWord_of_run laid' ?_
      rw [whole', blanked, laidBlanked.run_spelling (start _), TokenKind.isGap_mode]
      exact word
  · rw [whole', blanked]
    refine laid.blanked.quiet ?_ Mode.noConfusion (start _)
    intro t mem
    obtain ⟨u, -, rfl⟩ := List.mem_map.1 mem
    exact u.kind_blanked

/-! ## Cutting -/

/-- The two sides of a `RETURN` are parts of the text. -/
theorem prefix_of_splitFrom {depth : Nat} {tokens body tail : List Token}
    (split : splitFrom depth tokens = some (body, tail)) : body <+: tokens ∧ tail <:+ tokens := by
  induction tokens generalizing depth body with
  | nil => cases split
  | cons t rest ih =>
      rw [splitFrom] at split
      cases inner : splitFrom (depthAfter depth t) rest with
      | some parts =>
          simp only [inner, Option.some.injEq, Prod.mk.injEq] at split
          obtain ⟨rfl, rfl⟩ := split
          obtain ⟨front, back⟩ := ih inner
          exact ⟨(List.prefix_cons_inj t).2 front, back.trans (List.suffix_cons t _)⟩
      | none =>
          simp only [inner] at split
          split at split
          · cases split
            exact ⟨List.nil_prefix, List.suffix_cons t _⟩
          · cases split

theorem trim_isInfix (tokens : List Token) : trim tokens <:+: tokens := by
  have front : tokens.dropWhile (·.kind == .blank) <:+: tokens := (List.dropWhile_suffix _).isInfix
  exact (List.rdropWhile_prefix _ _).isInfix.trans front

/-- What is trimmed and has no comment ends in a word. -/
theorem endsInWord_trim {tokens : List Token} (free : ∀ t ∈ tokens, t.kind ≠ .comment) :
    (Fragment.mk (trim tokens)).endsInWord = true := by
  by_cases none : trim tokens = []
  · rw [none]
    rfl
  · have solid : ¬ (((trim tokens).getLast none).kind == .blank) = true :=
      List.rdropWhile_last_not _ _ none
    have comment := free _ ((trim_isInfix tokens).subset (List.getLast_mem none))
    rw [endsInWord, List.getLast?_eq_some_getLast none, Option.all_some]
    simp [Token.isTrivia, solid, comment]

/-- Fragments alike have sides alike, if they are the same or the second has no comment. -/
theorem Alike.splitReturn {f g : Fragment} (alike : Alike f g)
    (free : g = f ∨ ∀ t ∈ g.tokens, t.kind ≠ .comment) :
    Option.Rel (fun parts others => Alike parts.1 others.1 ∧ Alike parts.2 others.2)
      f.splitReturn g.splitReturn := by
  have layouts := layout_splitReturn f
  rw [alike.layout, ← layout_splitReturn g] at layouts
  unfold Fragment.splitReturn at layouts ⊢
  cases first : splitFrom 0 f.tokens with
  | none =>
      cases second : splitFrom 0 g.tokens with
      | none => exact .none
      | some others => simp [first, second] at layouts
  | some parts =>
      cases second : splitFrom 0 g.tokens with
      | none => simp [first, second] at layouts
      | some others =>
          simp only [first, second, Option.map_some, Option.some.injEq, Prod.mk.injEq] at layouts
          obtain ⟨front, back⟩ := prefix_of_splitFrom first
          obtain ⟨front', back'⟩ := prefix_of_splitFrom second
          have side {part other : List Token} (inside : part <:+: f.tokens)
              (inside' : other <:+: g.tokens)
              (layout : (Fragment.mk (trim part)).layout = (Fragment.mk (trim other)).layout)
              (same : g = f → part = other) :
              Alike ⟨trim part⟩ ⟨trim other⟩ := by
            refine ⟨layout, alike.first.of_isInfix ((trim_isInfix part).trans inside),
              alike.second.of_isInfix ((trim_isInfix other).trans inside'), fun ends => ?_⟩
            rcases free with equal | free
            · rwa [← same equal]
            · exact endsInWord_trim fun t mem => free t (inside'.subset mem)
          have same (equal : g = f) : parts = others := by
            rw [equal, first] at second
            exact Option.some.inj second
          exact .some ⟨side front.isInfix front'.isInfix layouts.1 fun equal => by rw [same equal],
            side back.isInfix back'.isInfix layouts.2 fun equal => by rw [same equal]⟩

/-! ## New names -/

/-- A name as a token. -/
theorem isScanned_of_isIdentifier {t : Token} (kind : t.kind = .identifier)
    (named : isIdentifier t.text = true) :
    t.IsScanned ∧ ∀ c ∈ t.text.toList.head?, Mode.first c = .plain := by
  obtain ⟨c, word, text, start, parts⟩ := exists_cons_of_isIdentifier named
  refine ⟨⟨c, word ++ [], word, [], ?_, text⟩, fun d mem => ?_⟩
  · rw [munch_word start parts rfl, kind]
  · obtain rfl : c = d := by simpa [text] using mem
    exact Mode.first_of_isIdentifierPart (isIdentifierPart_of_start start)

/-- A name may stand wherever another one stands. -/
theorem adjoins_of_isIdentifier {t u v : Token} (scanned : u.IsScanned)
    (kind : u.kind = .identifier) (adjoins : t.Adjoins u)
    (word : ∀ c ∈ v.text.toList.head?, Mode.first c = .plain) : t.Adjoins v := by
  intro c mem
  rw [word c mem]
  cases before : t.kind with
  | comment =>
      -- a comment ends with a line break, with which no name begins
      obtain ⟨d, input, taken, rest, found, text⟩ := scanned
      have begins := adjoins d (by rw [text]; rfl)
      rw [before, TokenKind.mode, Mode.step] at begins
      split at begins
      · rename_i line
        rw [munch, if_pos (isBlank_of_space_or_line (.inr (eq_of_beq line))), kind] at found
        cases found
      · exact absurd begins.symm (Mode.first_ne_comment d)
  | symbol d =>
      rw [TokenKind.mode]
      split
      · have slash : c ≠ '/' := by
          rintro rfl
          exact absurd (word _ mem) (by decide +kernel)
        rw [Mode.step, if_neg (by simpa using slash), word c mem]
      · exact word c mem
  | _ => exact word c mem

/-- New names that are identifiers leave the text in tokens. -/
theorem laid_rename {f : Fragment} (laid : Laid f.tokens) {rename : String → Option String}
    (named : ∀ name ∈ f.variableNames.filterMap rename, isIdentifier name = true) :
    Laid (f.renameVariables rename).tokens := by
  have own (p : Placed) (mem : p ∈ f.placed) : renameToken rename p = p.token
      ∨ p.token.kind = .identifier ∧ isIdentifier (renameToken rename p).text = true := by
    unfold renameToken
    split
    · rename_i isVariable
      cases new : rename p.token.text with
      | none => exact .inl rfl
      | some name =>
          refine .inr ⟨kind_of_isVariable p mem isVariable, named name ?_⟩
          exact List.mem_filterMap.2 ⟨p.token.text,
            List.mem_map.2 ⟨p, List.mem_filter.2 ⟨mem, isVariable⟩, rfl⟩, new⟩
    · exact .inl rfl
  have tokens : f.placed.map (·.token) = f.tokens := map_token_placedFrom [] none f.tokens
  have scanned (p : Placed) (mem : p ∈ f.placed) : p.token.IsScanned :=
    laid.scanned _ (tokens ▸ List.mem_map_of_mem mem)
  constructor
  · intro t renamed
    obtain ⟨p, mem, rfl⟩ := List.mem_map.1 renamed
    rcases own p mem with same | ⟨kind, new⟩
    · rw [same]
      exact scanned p mem
    · exact (isScanned_of_isIdentifier ((kind_renameToken rename p).trans kind) new).1
  · have chain := laid.adjoining
    rw [← tokens, List.isChain_map] at chain
    refine (List.isChain_map _).2 (chain.imp_of_mem_imp fun p q first second adjoins => ?_)
    have kept : p.token.Adjoins (renameToken rename q) := by
      rcases own q second with same | ⟨kind, new⟩
      · rwa [same]
      · exact adjoins_of_isIdentifier (scanned q second) kind adjoins
          (isScanned_of_isIdentifier ((kind_renameToken rename q).trans kind) new).2
    unfold Token.Adjoins
    rw [kind_renameToken]
    exact kept

theorem endsInWord_rename (f : Fragment) (rename : String → Option String) :
    (f.renameVariables rename).endsInWord = f.endsInWord := by
  have tokens : f.placed.map (·.token) = f.tokens := map_token_placedFrom [] none f.tokens
  rw [endsInWord, endsInWord, renameVariables, ← tokens, List.getLast?_map, List.getLast?_map]
  cases f.placed.getLast? with
  | none => rfl
  | some p => simp [Token.isTrivia]

theorem core_eq_of_layout {f g : Fragment} (same : f.layout = g.layout) : f.core = g.core := by
  rw [core, core, same]

/-- What is answered by the core is answered by the layout. -/
theorem answer_of_layout {α : Type} {asks : Fragment → α}
    (blind : ∀ f : Fragment, asks f.core = asks f) {f g : Fragment}
    (same : f.layout = g.layout) : asks f = asks g := by
  rw [← blind f, core_eq_of_layout same, blind]

theorem Alike.layout_rename {f g : Fragment} (alike : Alike f g)
    (rename : String → Option String) :
    (f.renameVariables rename).layout = (g.renameVariables rename).layout := by
  rw [Fragment.layout_rename, Fragment.layout_rename, core_eq_of_layout alike.layout, alike.layout]

end Fragment

end GraphBridge.Query
