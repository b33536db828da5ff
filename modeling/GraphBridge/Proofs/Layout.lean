import GraphBridge.Proofs.Lexing
import GraphBridge.Proofs.Renaming
import Mathlib.Data.List.DropRight

/-!
# The layout of a fragment

The layout of a fragment is its words, each with whether it stands behind a gap. All that compiling
asks of a fragment is answered by the layout: what it binds and mentions, where its `RETURN` stands,
what its first word is. And the layout of what becomes of a fragment, by cutting it in two or by
renaming its variables, is answered by the layout as well.
-/

namespace GraphBridge.Query

/-! ## Words of tokens -/

/-- A token without its place in the text. -/
def Token.bare (t : Token) : Token :=
  { t with start := 0 }

/-- The token of a word. -/
def Word.token (w : Word) : Token :=
  ⟨w.kind, w.text, 0⟩

/-- Words of which the first stands behind a gap. -/
def Word.leading : List Word → List Word
  | [] => []
  | w :: rest => { w with isSpaced := true } :: rest

theorem words_cons_of_trivia {t : Token} (trivia : t.isTrivia = true) (gap : Bool)
    (rest : List Token) : words gap (t :: rest) = words true rest := by
  have kind : t.kind.isTrivia = true := trivia
  rw [words, Word.follow, if_pos kind, trivia]

theorem words_cons_of_word {t : Token} (word : t.isTrivia = false) (gap : Bool)
    (rest : List Token) : words gap (t :: rest) = ⟨t.kind, t.text, gap⟩ :: words false rest := by
  have kind : ¬ t.kind.isTrivia = true := Bool.eq_false_iff.1 word
  rw [words, Word.follow, if_neg kind, word]

/-- The first word stands behind a gap in front of all words, or behind one of the tokens. -/
theorem leading_words (gap : Bool) (tokens : List Token) :
    Word.leading (words gap tokens) = words true tokens := by
  induction tokens generalizing gap with
  | nil => rfl
  | cons t rest ih =>
      cases trivia : t.isTrivia with
      | true => rw [words_cons_of_trivia trivia, words_cons_of_trivia trivia, ih]
      | false => rw [words_cons_of_word trivia, words_cons_of_word trivia]; rfl

theorem words_append_trivia {trail : List Token} (trivia : ∀ t ∈ trail, t.isTrivia = true)
    (gap : Bool) (tokens : List Token) : words gap (tokens ++ trail) = words gap tokens := by
  induction tokens generalizing gap with
  | nil =>
      induction trail generalizing gap with
      | nil => rfl
      | cons t trail ih =>
          obtain ⟨own, others⟩ := List.forall_mem_cons.1 trivia
          rw [List.nil_append, words_cons_of_trivia own]
          exact ih others true
  | cons t rest ih =>
      cases own : t.isTrivia with
      | true => rw [List.cons_append, words_cons_of_trivia own, words_cons_of_trivia own, ih]
      | false => rw [List.cons_append, words_cons_of_word own, words_cons_of_word own, ih]

theorem words_dropWhile_trivia {accepts : Token → Bool}
    (trivia : ∀ t, accepts t = true → t.isTrivia = true) (tokens : List Token) :
    words true (tokens.dropWhile accepts) = words true tokens := by
  induction tokens with
  | nil => rfl
  | cons t rest ih =>
      rw [List.dropWhile_cons]
      split
      · rw [ih, words_cons_of_trivia (trivia t ‹_›)]
      · rfl

/-- The tokens of the words are the meaningful tokens. -/
theorem map_token_words (gap : Bool) (tokens : List Token) :
    (words gap tokens).map Word.token = (tokens.filter (!·.isTrivia)).map Token.bare := by
  induction tokens generalizing gap with
  | nil => rfl
  | cons t rest ih =>
      cases own : t.isTrivia with
      | true => rw [words_cons_of_trivia own, List.filter_cons_of_neg (by simp [own]), ih]
      | false =>
          rw [words_cons_of_word own, List.filter_cons_of_pos (by simp [own]), List.map_cons,
            List.map_cons, ih]
          rfl

namespace Fragment

/-- The words of a fragment, the first of which counts as standing behind a gap. -/
def layout (f : Fragment) : List Word :=
  words true f.tokens

/-- The words of a fragment alone. -/
def core (f : Fragment) : Fragment :=
  ⟨f.layout.map Word.token⟩

theorem tokens_core (f : Fragment) :
    f.core.tokens = (f.tokens.filter (!·.isTrivia)).map Token.bare :=
  map_token_words true f.tokens

/-- The meaningful tokens of the core are those of the fragment. -/
theorem filter_core (f : Fragment) :
    f.core.tokens.filter (!·.isTrivia) = (f.tokens.filter (!·.isTrivia)).map Token.bare := by
  rw [tokens_core, List.filter_map]
  exact congrArg (List.map Token.bare)
    (List.filter_filter.trans (by simp [Token.bare, Token.isTrivia]))

/-! ## Questions to a fragment -/

theorem isEmpty_core (f : Fragment) : f.core.isEmpty = f.isEmpty := by
  have meaningful (f : Fragment) : f.isEmpty = (f.tokens.filter (!·.isTrivia)).isEmpty := by
    rw [isEmpty, Bool.eq_iff_iff, List.isEmpty_iff, List.filter_eq_nil_iff]
    simp
  rw [meaningful, meaningful f, filter_core, List.isEmpty_map]

theorem leadingKeyword_core (f : Fragment) : f.core.leadingKeyword = f.leadingKeyword := by
  unfold leadingKeyword firstMeaningful
  rw [← List.head?_filter, ← List.head?_filter, filter_core, List.head?_map]
  cases (f.tokens.filter (!·.isTrivia)).head? <;> rfl

theorem soleVariable_core (f : Fragment) : f.core.soleVariable = f.soleVariable := by
  unfold soleVariable
  rw [filter_core]
  generalize f.tokens.filter (!·.isTrivia) = tokens
  match tokens with
  | [] => rfl
  | [t] => rfl
  | _ :: _ :: _ => rfl

theorem isAggregate_core (f : Fragment) : f.core.isAggregate = f.isAggregate := by
  have meaningful (tokens : List Token) : (tokens.filter (!·.isTrivia)).any (·.isSymbol '(')
      = tokens.any (·.isSymbol '(') := by
    rw [List.any_filter]
    congr 1
    funext t
    cases bracket : t.isSymbol '(' with
    | false => rw [Bool.and_false]
    | true =>
        have kind : t.kind = .symbol '(' := eq_of_beq bracket
        simp [Token.isTrivia, kind]
  rw [isAggregate, isAggregate, tokens_core, List.any_map, ← meaningful f.tokens]
  rfl

/-! ## Variables -/

end Fragment

/-- A placed token without its place in the text. -/
def Placed.bare (p : Placed) : Placed :=
  ⟨p.token.bare, p.before.map Token.bare, p.isVariable⟩

namespace Fragment

theorem firstMeaningful_words (gap : Bool) (tokens : List Token) :
    firstMeaningful ((words gap tokens).map Word.token)
      = (firstMeaningful tokens).map Token.bare := by
  have same : (tokens.filter (!·.isTrivia)).filter (fun t => !t.bare.isTrivia)
      = tokens.filter (!·.isTrivia) :=
    List.filter_filter.trans (by simp [Token.bare, Token.isTrivia])
  unfold firstMeaningful
  rw [← List.head?_filter, ← List.head?_filter, map_token_words, List.filter_map, List.head?_map]
  exact congrArg (fun tokens => (List.head? tokens).map Token.bare) same

theorem bracketsAfter_of_trivia {t : Token} (trivia : t.isTrivia = true) (brackets : List Char) :
    bracketsAfter brackets t = brackets := by
  rw [Token.isTrivia, Bool.or_eq_true, beq_iff_eq, beq_iff_eq] at trivia
  unfold bracketsAfter
  rcases trivia with kind | kind <;> rw [kind]

/-- The meaningful tokens of a text are placed alike without the others. -/
theorem placedFrom_words (brackets : List Char) (before : Option Token) (gap : Bool)
    (tokens : List Token) :
    placedFrom brackets (before.map Token.bare) ((words gap tokens).map Word.token)
      = ((placedFrom brackets before tokens).filter (!·.token.isTrivia)).map Placed.bare := by
  induction tokens generalizing brackets before gap with
  | nil => rfl
  | cons t rest ih =>
      cases own : t.isTrivia with
      | true =>
          rw [words_cons_of_trivia own, ih, placedFrom, List.filter_cons_of_neg (by simp [own]),
            bracketsAfter_of_trivia own, own]
          rfl
      | false =>
          have token : (Word.mk t.kind t.text gap).token = t.bare := rfl
          have kept (t? : Option Token) : SameKind (t?.map Token.bare) t? := by
            cases t? <;> rfl
          have place : isVariableBetween brackets.head? (before.map Token.bare)
                (firstMeaningful ((words false rest).map Word.token))
              = isVariableBetween brackets.head? before (firstMeaningful rest) := by
            rw [firstMeaningful_words]
            exact isVariableBetween_congr (kept _) (kept _) _
          have later := ih (bracketsAfter brackets t) (some t) false
          rw [words_cons_of_word own, List.map_cons, token, placedFrom, placedFrom,
            List.filter_cons_of_pos (by simp [own]), List.map_cons, place,
            bracketsAfter_congr (show t.bare.kind = t.kind from rfl),
            show t.bare.isTrivia = false from own, own]
          exact congrArg (_ :: ·) later

theorem kind_of_isVariable {brackets : List Char} {before : Option Token} {tokens : List Token} :
    ∀ p ∈ placedFrom brackets before tokens, p.isVariable = true → p.token.kind = .identifier := by
  induction tokens generalizing brackets before with
  | nil => exact List.forall_mem_nil _
  | cons t rest ih =>
      refine List.forall_mem_cons.2 ⟨fun isVariable => ?_, ih⟩
      exact eq_of_beq (Bool.and_eq_true_iff.1 isVariable).1

/-- What is asked of the variables of a fragment is answered by its words. -/
theorem filter_placed_core (f : Fragment) {asks : Placed → Bool}
    (standing : ∀ p, asks p = true → p.isVariable = true)
    (blind : ∀ p : Placed, asks p.bare = asks p) :
    f.core.placed.filter asks = (f.placed.filter asks).map Placed.bare := by
  have words : f.core.placed = (f.placed.filter (!·.token.isTrivia)).map Placed.bare :=
    placedFrom_words [] none true f.tokens
  rw [words, List.filter_map, List.filter_filter]
  congr 1
  refine List.filter_congr fun p mem => ?_
  cases asked : asks p with
  | false => rw [Function.comp_apply, blind, asked, Bool.false_and]
  | true =>
      have kind := kind_of_isVariable p mem (standing p asked)
      simp [blind, asked, Token.isTrivia, kind]

theorem boundVariables_core (f : Fragment) : f.core.boundVariables = f.boundVariables := by
  have blind (p : Placed) : binds p.bare = binds p := by
    unfold binds Placed.bare
    cases p.before <;> rfl
  unfold boundVariables
  rw [filter_placed_core f (fun p bound => ?_) blind, List.map_map]
  · rfl
  · rw [binds, Bool.and_eq_true, Bool.and_eq_true] at bound
    exact bound.1.1

theorem variableNames_core (f : Fragment) : f.core.variableNames = f.variableNames := by
  unfold variableNames
  rw [filter_placed_core f (fun p isVariable => isVariable) (fun p => rfl), List.map_map]
  rfl

theorem mentions_core (f : Fragment) (name : String) : f.core.mentions name = f.mentions name := by
  rw [Bool.eq_iff_iff, mentions_iff, mentions_iff, variableNames_core]

/-- A word under the new name of its token. -/
def renameWord (rename : String → Option String) (w : Word) (p : Placed) : Word :=
  { w with text := (renameToken rename p).text }

theorem words_rename (rename : String → Option String) (brackets : List Char)
    (before : Option Token) (gap : Bool) (tokens : List Token) :
    words gap ((placedFrom brackets before tokens).map (renameToken rename))
      = List.zipWith (renameWord rename) (words gap tokens)
          ((placedFrom brackets before tokens).filter (!·.token.isTrivia)) := by
  induction tokens generalizing brackets before gap with
  | nil => rfl
  | cons t rest ih =>
      rw [placedFrom, List.map_cons]
      generalize (t.kind == .identifier
        && isVariableBetween brackets.head? before (firstMeaningful rest)) = isVariable
      have kind := kind_renameToken rename ⟨t, before, isVariable⟩
      cases own : t.isTrivia with
      | true =>
          rw [words_cons_of_trivia ((isTrivia_congr kind).trans own), words_cons_of_trivia own, ih,
            List.filter_cons_of_neg (by simp [own])]
      | false =>
          rw [words_cons_of_word ((isTrivia_congr kind).trans own), words_cons_of_word own, ih,
            List.filter_cons_of_pos (by simp [own]), List.zipWith_cons_cons, kind]
          rfl

/-- The layout of a renamed fragment. -/
theorem layout_rename (f : Fragment) (rename : String → Option String) :
    (f.renameVariables rename).layout
      = List.zipWith (renameWord rename) f.layout f.core.placed := by
  have placed : f.core.placed = (f.placed.filter (!·.token.isTrivia)).map Placed.bare :=
    placedFrom_words [] none true f.tokens
  have blind : (fun w (p : Placed) => renameWord rename w p.bare) = renameWord rename := by
    funext w p
    unfold renameWord renameToken
    cases shape : p.isVariable <;> simp [Placed.bare, Token.bare, shape]
  rw [placed, List.zipWith_map_right, blind]
  exact words_rename rename [] none true f.tokens

/-! ## Cutting -/

theorem depthAfter_of_trivia {t : Token} (trivia : t.isTrivia = true) (depth : Nat) :
    depthAfter depth t = depth := by
  rw [Token.isTrivia, Bool.or_eq_true, beq_iff_eq, beq_iff_eq] at trivia
  unfold depthAfter Token.opens Token.closes Token.isSymbol
  rcases trivia with kind | kind <;> rw [kind] <;> rfl

/-- The words before and after the last `RETURN` outside all brackets. -/
def splitWords (depth : Nat) : List Word → Option (List Word × List Word)
  | [] => none
  | w :: rest =>
      match splitWords (depthAfter depth w.token) rest with
      | some (body, tail) => some (w :: body, tail)
      | none => if depth == 0 && w.token.isKeyword "RETURN" then some ([], rest) else none

theorem splitWords_words (depth : Nat) (gap : Bool) (tokens : List Token) :
    splitWords depth (words gap tokens)
      = (splitFrom depth tokens).map fun parts => (words gap parts.1, words false parts.2) := by
  induction tokens generalizing depth gap with
  | nil => rfl
  | cons t rest ih =>
      cases own : t.isTrivia with
      | true =>
          have other : t.isKeyword "RETURN" = false := by
            rw [Token.isTrivia, Bool.or_eq_true, beq_iff_eq, beq_iff_eq] at own
            unfold Token.isKeyword
            rcases own with kind | kind <;> rw [kind] <;> rfl
          rw [words_cons_of_trivia own, ih, splitFrom, depthAfter_of_trivia own, other,
            Bool.and_false]
          cases splitFrom depth rest with
          | none => rfl
          | some parts =>
              rw [Option.map_some, Option.map_some, words_cons_of_trivia own]
      | false =>
          have token : depthAfter depth (Word.mk t.kind t.text gap).token = depthAfter depth t :=
            rfl
          rw [words_cons_of_word own, splitWords, token, ih, splitFrom]
          cases splitFrom (depthAfter depth t) rest with
          | none =>
              dsimp only [Option.map_none]
              rw [show (Word.mk t.kind t.text gap).token.isKeyword "RETURN"
                = t.isKeyword "RETURN" from rfl]
              split <;> rfl
          | some parts =>
              rw [Option.map_some, Option.map_some, words_cons_of_word own]

/-- White space at the ends is not part of the layout. -/
theorem words_trim (tokens : List Token) : words true (trim tokens) = words true tokens := by
  have trivia (t : Token) (blank : (t.kind == .blank) = true) : t.isTrivia = true := by
    rw [Token.isTrivia, blank, Bool.true_or]
  have ends (tokens : List Token) :
      words true (tokens.rdropWhile (·.kind == .blank)) = words true tokens := by
    have whole : tokens.rdropWhile (·.kind == .blank) ++ tokens.rtakeWhile (·.kind == .blank)
        = tokens := List.rdropWhile_append_rtakeWhile
    conv => rhs; rw [← whole]
    refine (words_append_trivia (fun t mem => ?_) true _).symm
    have blank := List.mem_rtakeWhile_imp (p := fun t : Token => t.kind == .blank) mem
    exact trivia t blank
  exact (ends _).trans (words_dropWhile_trivia trivia tokens)

/-- The layouts of the two sides of the last `RETURN`. -/
theorem layout_splitReturn (f : Fragment) :
    (f.splitReturn.map fun parts => (parts.1.layout, parts.2.layout))
      = (splitWords 0 f.layout).map fun parts => (parts.1, Word.leading parts.2) := by
  rw [layout, splitWords_words, splitReturn, Option.map_map, Option.map_map]
  congr 1
  funext parts
  simp only [Function.comp_apply, layout, words_trim, leading_words]

end Fragment

end GraphBridge.Query
