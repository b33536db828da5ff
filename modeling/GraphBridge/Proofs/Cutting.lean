import GraphBridge.Proofs.Layout
import GraphBridge.Proofs.Outcome

/-!
# Cutting a fragment at its `RETURN`

A fragment is cut at the last `RETURN` outside of all brackets, and nothing is lost but that word
and white space around the two sides. Where the depth is counted, a closing bracket does not take it
below zero; where variables are told apart, brackets are kept on a stack, and a closing bracket
takes off whatever is on top. Both count alike, also where brackets do not match: the depth is the
height of the stack. So no bracket is open at the cut, and since `RETURN` is none of the neighbours
that make an identifier something other than a variable, either side has the variables that it had
in the whole.
-/

namespace GraphBridge.Query

/-- Whether a token is white space. -/
def Token.isSpace (t : Token) : Bool :=
  t.kind == .blank

theorem Token.isSpace_iff {t : Token} : t.isSpace = true ↔ t.kind = .blank :=
  beq_iff_eq

namespace Fragment

/-! ## Where a fragment is cut -/

/-- The bracket depth behind tokens. -/
def depthBehind (tokens : List Token) : Nat :=
  tokens.foldl depthAfter 0

theorem splitFrom_cons_eq_none {depth : Nat} {t : Token} {rest : List Token} :
    splitFrom depth (t :: rest) = none
      ↔ splitFrom (depthAfter depth t) rest = none
        ∧ ¬ (depth = 0 ∧ t.isKeyword "RETURN" = true) := by
  rw [splitFrom]
  cases splitFrom (depthAfter depth t) rest with
  | some parts => simp
  | none => simp

theorem kind_of_isKeyword {t : Token} {word : String} (keyword : t.isKeyword word = true) :
    t.kind = .identifier :=
  eq_of_beq (Bool.and_eq_true_iff.1 keyword).1

theorem depthAfter_of_identifier {t : Token} (kind : t.kind = .identifier) (depth : Nat) :
    depthAfter depth t = depth := by
  unfold depthAfter Token.opens Token.closes Token.isSymbol
  rw [kind]
  rfl

/-- What stands in front of the cut, the `RETURN`, and what stands behind, where there is no other
cut. -/
theorem splitFrom_eq_some {depth : Nat} {tokens body tail : List Token}
    (split : splitFrom depth tokens = some (body, tail)) :
    ∃ ret, tokens = body ++ ret :: tail ∧ ret.isKeyword "RETURN" = true
      ∧ body.foldl depthAfter depth = 0 ∧ splitFrom 0 tail = none := by
  induction tokens generalizing depth body with
  | nil => cases split
  | cons t rest ih =>
      rw [splitFrom] at split
      cases inner : splitFrom (depthAfter depth t) rest with
      | some parts =>
          rw [inner] at split
          cases split
          obtain ⟨ret, rfl, keyword, outside, last⟩ := ih inner
          exact ⟨ret, rfl, keyword, outside, last⟩
      | none =>
          rw [inner] at split
          dsimp only at split
          split at split
          · rename_i here
            cases split
            rw [Bool.and_eq_true, beq_iff_eq] at here
            obtain ⟨rfl, keyword⟩ := here
            rw [depthAfter_of_identifier (kind_of_isKeyword keyword)] at inner
            exact ⟨t, rfl, keyword, rfl, inner⟩
          · cases split

/-- A `RETURN` outside of all brackets behind which there is no other is where tokens are cut. -/
theorem splitFrom_append {depth : Nat} {body tail : List Token} {ret : Token}
    (keyword : ret.isKeyword "RETURN" = true) (outside : body.foldl depthAfter depth = 0)
    (last : splitFrom 0 tail = none) :
    splitFrom depth (body ++ ret :: tail) = some (body, tail) := by
  induction body generalizing depth with
  | nil =>
      obtain rfl : depth = 0 := outside
      rw [List.nil_append, splitFrom, depthAfter_of_identifier (kind_of_isKeyword keyword), last]
      simp only [keyword, beq_self_eq_true, Bool.and_self, if_true]
  | cons t body ih => rw [List.cons_append, splitFrom, ih outside]

/-- Tokens that are not cut have no `RETURN` outside of all brackets. -/
theorem depth_ne_zero_of_splitFrom {depth : Nat} {before after : List Token} {t : Token}
    (none : splitFrom depth (before ++ t :: after) = none) (keyword : t.isKeyword "RETURN" = true) :
    before.foldl depthAfter depth ≠ 0 := by
  induction before generalizing depth with
  | nil => exact fun outside => (splitFrom_cons_eq_none.1 none).2 ⟨outside, keyword⟩
  | cons first before ih => exact ih (splitFrom_cons_eq_none.1 none).1

theorem trim_eq (tokens : List Token) :
    trim tokens = (tokens.dropWhile Token.isSpace).rdropWhile Token.isSpace := rfl

/-- Trimming takes white space off both ends. -/
theorem exists_trim (tokens : List Token) :
    ∃ front back, (∀ t ∈ front, t.kind = .blank) ∧ (∀ t ∈ back, t.kind = .blank)
      ∧ tokens = front ++ trim tokens ++ back := by
  refine ⟨tokens.takeWhile Token.isSpace, (tokens.dropWhile Token.isSpace).rtakeWhile Token.isSpace,
    fun t mem => Token.isSpace_iff.1 (List.mem_takeWhile_imp mem),
    fun t mem => Token.isSpace_iff.1 (List.mem_rtakeWhile_imp mem), ?_⟩
  rw [List.append_assoc, trim_eq, List.rdropWhile_append_rtakeWhile,
    List.takeWhile_append_dropWhile]

/-! ## Renaming the parts -/

/-- Renamed tokens, given the open brackets and the last meaningful token before. -/
def renamedFrom (rename : String → Option String) (brackets : List Char) (before : Option Token)
    (tokens : List Token) : List Token :=
  (placedFrom brackets before tokens).map (renameToken rename)

section Renamed

variable (rename : String → Option String) (brackets : List Char) (before : Option Token)

theorem map_kind_renamedFrom (tokens : List Token) :
    (renamedFrom rename brackets before tokens).map (·.kind) = tokens.map (·.kind) := by
  rw [renamedFrom, List.map_map]
  conv => rhs; rw [← map_token_placedFrom brackets before tokens, List.map_map]
  exact List.map_congr_left fun p _ => kind_renameToken rename p

/-- White space in front is not renamed. -/
theorem renamedFrom_blank {t : Token} (blank : t.kind = .blank) (rest : List Token) :
    renamedFrom rename brackets before (t :: rest)
      = t :: renamedFrom rename brackets before rest := by
  have trivia : t.isTrivia = true := by rw [Token.isTrivia, blank]; rfl
  have other : (t.kind == .identifier) = false := by rw [blank]; rfl
  rw [renamedFrom, placedFrom, bracketsAfter_of_trivia trivia, trivia, other]
  rfl

/-- Nor does white space behind change what tokens stand for. -/
theorem renamedFrom_concat_blank {t : Token} (blank : t.kind = .blank) (tokens : List Token) :
    renamedFrom rename brackets before (tokens ++ [t])
      = renamedFrom rename brackets before tokens ++ [t] := by
  have trivia : t.isTrivia = true := by rw [Token.isTrivia, blank]; rfl
  have behind (rest : List Token) : firstMeaningful (rest ++ [t]) = firstMeaningful rest := by
    rw [firstMeaningful, List.find?_append]
    simp [firstMeaningful, trivia]
  induction tokens generalizing brackets before with
  | nil => exact renamedFrom_blank rename brackets before blank []
  | cons first rest ih =>
      unfold renamedFrom at ih ⊢
      rw [List.cons_append, placedFrom, placedFrom, behind, List.map_cons, List.map_cons, ih]
      rfl

theorem renamedFrom_dropWhile (tokens : List Token) :
    renamedFrom rename brackets before (tokens.dropWhile Token.isSpace)
      = (renamedFrom rename brackets before tokens).dropWhile Token.isSpace := by
  induction tokens generalizing brackets before with
  | nil => rfl
  | cons t rest ih =>
      cases space : t.isSpace with
      | true =>
          rw [renamedFrom_blank rename brackets before (Token.isSpace_iff.1 space),
            List.dropWhile_cons_of_pos space, List.dropWhile_cons_of_pos space, ih]
      | false =>
          have solid : ¬ t.isSpace = true := Bool.eq_false_iff.1 space
          rw [List.dropWhile_cons_of_neg solid, renamedFrom, placedFrom, List.map_cons,
            List.dropWhile_cons_of_neg (by rwa [Token.isSpace, kind_renameToken])]

theorem renamedFrom_rdropWhile (tokens : List Token) :
    renamedFrom rename brackets before (tokens.rdropWhile Token.isSpace)
      = (renamedFrom rename brackets before tokens).rdropWhile Token.isSpace := by
  induction tokens using List.reverseRecOn with
  | nil => rfl
  | append_singleton tokens t ih =>
      cases space : t.isSpace with
      | true =>
          rw [renamedFrom_concat_blank rename brackets before (Token.isSpace_iff.1 space),
            List.rdropWhile_concat_pos _ _ _ space, List.rdropWhile_concat_pos _ _ _ space, ih]
      | false =>
          have solid : ¬ t.isSpace = true := Bool.eq_false_iff.1 space
          -- the last token keeps its kind
          obtain ⟨front, last, made, -, kinds⟩ := List.map_eq_append_iff.1
            ((map_kind_renamedFrom rename brackets before (tokens ++ [t])).trans List.map_append)
          obtain ⟨u, rfl, kind⟩ : ∃ u, last = [u] ∧ u.kind = t.kind := by
            simpa [List.map_eq_cons_iff] using kinds
          rw [List.rdropWhile_concat_neg _ _ _ solid, made,
            List.rdropWhile_concat_neg _ _ _ (by rwa [Token.isSpace, kind])]

/-- Trimmed tokens are renamed as they are among the white space. -/
theorem trim_renamedFrom (tokens : List Token) :
    trim (renamedFrom rename brackets before tokens)
      = renamedFrom rename brackets before (trim tokens) := by
  rw [trim_eq, trim_eq, renamedFrom_rdropWhile, renamedFrom_dropWhile]

/-- An identifier in front is no neighbour that matters, and neither is none. -/
theorem renamedFrom_behind {ret : Token} (kind : ret.kind = .identifier) (tokens : List Token) :
    renamedFrom rename brackets (some ret) tokens = renamedFrom rename brackets none tokens := by
  have other (c : Char) : ret.isSymbol c = false := by rw [Token.isSymbol, kind]; rfl
  induction tokens generalizing brackets with
  | nil => rfl
  | cons t rest ih =>
      have place : isVariableBetween brackets.head? (some ret) (firstMeaningful rest)
          = isVariableBetween brackets.head? none (firstMeaningful rest) := by
        simp only [isVariableBetween, Option.any_some, Option.any_none, other]
      unfold renamedFrom at ih ⊢
      rw [placedFrom, placedFrom, place, List.map_cons, List.map_cons]
      congr 1
      split
      · exact ih _
      · rfl

/-- An identifier cuts tokens in two that are renamed one after the other. -/
theorem renamedFrom_append {ret : Token} (kind : ret.kind = .identifier) (body tail : List Token) :
    ∃ isVariable, renamedFrom rename brackets before (body ++ ret :: tail)
      = renamedFrom rename brackets before body ++ renameToken rename ⟨ret, none, isVariable⟩
        :: renamedFrom rename (body.foldl bracketsAfter brackets) none tail := by
  have other (c : Char) : ret.isSymbol c = false := by rw [Token.isSymbol, kind]; rfl
  have meaningful : ret.isTrivia = false := by rw [Token.isTrivia, kind]; rfl
  induction body generalizing brackets before with
  | nil =>
      have same : bracketsAfter brackets ret = brackets := by rw [bracketsAfter, kind]
      rw [List.nil_append, renamedFrom, placedFrom, same, meaningful, List.map_cons]
      exact ⟨_, congrArg (_ :: ·) (renamedFrom_behind rename brackets kind tail)⟩
  | cons t rest ih =>
      -- the cut is no neighbour that matters to what stands in front of it
      have place : isVariableBetween brackets.head? before (firstMeaningful (rest ++ ret :: tail))
          = isVariableBetween brackets.head? before (firstMeaningful rest) := by
        unfold firstMeaningful
        rw [List.find?_append]
        cases rest.find? fun t => !t.isTrivia with
        | some next => rfl
        | none => simp [isVariableBetween, meaningful, other]
      obtain ⟨isVariable, later⟩ := ih (bracketsAfter brackets t)
        (if t.isTrivia then before else some t)
      refine ⟨isVariable, ?_⟩
      unfold renamedFrom at later ⊢
      rw [List.cons_append, placedFrom, placedFrom, place, List.map_cons, List.map_cons, later]
      rfl

end Renamed

/-! ## Brackets and depth -/

/-- The depth is the number of open brackets. -/
theorem length_bracketsAfter (brackets : List Char) (t : Token) :
    (bracketsAfter brackets t).length = depthAfter brackets.length t := by
  unfold bracketsAfter
  split
  · unfold depthAfter
    split
    · rfl
    · split
      · rw [List.length_drop]
      · rfl
  · rename_i other
    have apart (c : Char) : t.isSymbol c = false := beq_eq_false_iff_ne.2 (other c)
    simp only [depthAfter, Token.opens, Token.closes, apart, Bool.or_self]
    rfl

theorem length_foldl_bracketsAfter (brackets : List Char) (tokens : List Token) :
    (tokens.foldl bracketsAfter brackets).length = tokens.foldl depthAfter brackets.length := by
  induction tokens generalizing brackets with
  | nil => rfl
  | cons t rest ih => rw [List.foldl_cons, List.foldl_cons, ih, length_bracketsAfter]

theorem depthAfter_congr {t u : Token} (same : t.kind = u.kind) (depth : Nat) :
    depthAfter depth t = depthAfter depth u := by
  have symbol : t.isSymbol = u.isSymbol := funext (isSymbol_congr same)
  unfold depthAfter Token.opens Token.closes
  rw [symbol]

/-- Renaming moves no brackets. -/
theorem foldl_depthAfter_renamedFrom (rename : String → Option String) (brackets : List Char)
    (before : Option Token) (depth : Nat) (tokens : List Token) :
    (renamedFrom rename brackets before tokens).foldl depthAfter depth
      = tokens.foldl depthAfter depth := by
  rw [renamedFrom, List.foldl_map]
  conv => rhs; rw [← map_token_placedFrom brackets before tokens, List.foldl_map]
  congr 1
  funext depth p
  exact depthAfter_congr (kind_renameToken rename p) depth

/-! ## Renaming what `RETURN` is -/

/-- A renaming that leaves `RETURN` alone, in any case, and makes nothing else to it. -/
structure SparesReturn (rename : String → Option String) : Prop where
  kept : ∀ name, Text.equalIgnoringCase name "RETURN" = true → (rename name).getD name = name
  apart : ∀ name, Text.equalIgnoringCase name "RETURN" = false →
    Text.equalIgnoringCase ((rename name).getD name) "RETURN" = false

namespace SparesReturn

variable {rename : String → Option String} (spares : SparesReturn rename)
include spares

theorem renameToken_eq {p : Placed} (keyword : p.token.isKeyword "RETURN" = true) :
    renameToken rename p = p.token := by
  unfold renameToken
  split
  · rw [spares.kept _ (Bool.and_eq_true_iff.1 keyword).2]
  · rfl

theorem isKeyword_renameToken (p : Placed) :
    (renameToken rename p).isKeyword "RETURN" = p.token.isKeyword "RETURN" := by
  cases keyword : p.token.isKeyword "RETURN" with
  | true => rw [spares.renameToken_eq keyword, keyword]
  | false =>
      unfold renameToken
      split
      · rw [Token.isKeyword, Bool.and_eq_false_iff] at keyword ⊢
        exact keyword.imp_right (spares.apart _)
      · exact keyword

/-- Where there was no cut, there is none under new names. -/
theorem splitFrom_renamedFrom_eq_none {depth : Nat} (brackets : List Char) (before : Option Token)
    {tokens : List Token} (none : splitFrom depth tokens = none) :
    splitFrom depth (renamedFrom rename brackets before tokens) = Option.none := by
  induction tokens generalizing depth brackets before with
  | nil => rfl
  | cons t rest ih =>
      obtain ⟨later, here⟩ := splitFrom_cons_eq_none.1 none
      rw [renamedFrom, placedFrom, List.map_cons, splitFrom_cons_eq_none,
        spares.isKeyword_renameToken, depthAfter_congr (kind_renameToken rename _)]
      exact ⟨ih _ _ later, here⟩

/-- The two sides of a fragment are renamed as in the whole. -/
theorem splitReturn_rename (f : Fragment) :
    (f.renameVariables rename).splitReturn
      = f.splitReturn.map fun parts =>
          (parts.1.renameVariables rename, parts.2.renameVariables rename) := by
  have whole (tokens : List Token) :
      (Fragment.mk tokens).renameVariables rename = ⟨renamedFrom rename [] none tokens⟩ := rfl
  unfold splitReturn
  rw [show f.renameVariables rename = _ from whole f.tokens]
  cases split : splitFrom 0 f.tokens with
  | none =>
      rw [spares.splitFrom_renamedFrom_eq_none [] none split]
      rfl
  | some parts =>
      obtain ⟨body, tail⟩ := parts
      obtain ⟨ret, tokens, keyword, outside, last⟩ := splitFrom_eq_some split
      have closed : body.foldl bracketsAfter [] = [] := by
        rw [← List.length_eq_zero_iff, length_foldl_bracketsAfter]
        exact outside
      obtain ⟨isVariable, cut⟩ := renamedFrom_append rename [] none (kind_of_isKeyword keyword)
        body tail
      rw [closed, spares.renameToken_eq (p := ⟨ret, none, isVariable⟩) keyword] at cut
      dsimp only
      rw [tokens, cut, splitFrom_append keyword
        ((foldl_depthAfter_renamedFrom rename [] none 0 body).trans outside)
        (spares.splitFrom_renamedFrom_eq_none [] none last)]
      simp only [Option.map_some, whole, trim_renamedFrom]

end SparesReturn

/-- A fragment is cut without loss, and the cut commutes with renaming. What is cut is white space
at the ends of either side and a `RETURN` at depth zero, behind which there is no other one at depth
zero; and a renaming that spares `RETURN` may be done before or after the cut, also where brackets
do not match. -/
theorem splitReturn_cuts (f : Fragment) :
    (∀ body tail, f.splitReturn = some (body, tail) →
        ∃ w₁ w₂ w₃ w₄ ret, (∀ t ∈ w₁ ++ w₂ ++ w₃ ++ w₄, t.kind = .blank)
          ∧ ret.isKeyword "RETURN" = true
          ∧ f.tokens = (w₁ ++ body.tokens ++ w₂) ++ ret :: (w₃ ++ tail.tokens ++ w₄)
          ∧ depthBehind (w₁ ++ body.tokens ++ w₂) = 0
          ∧ ∀ before t after, f.tokens = before ++ t :: after → t.isKeyword "RETURN" = true →
              depthBehind before = 0 → before.length ≤ (w₁ ++ body.tokens ++ w₂).length)
      ∧ ∀ rename, SparesReturn rename →
          (f.renameVariables rename).splitReturn
            = f.splitReturn.map fun parts =>
                (parts.1.renameVariables rename, parts.2.renameVariables rename) := by
  refine ⟨fun body tail split => ?_, fun rename spares => spares.splitReturn_rename f⟩
  obtain ⟨⟨front, back⟩, cut, made⟩ := Option.map_eq_some_iff.1 split
  cases made
  obtain ⟨ret, tokens, keyword, outside, last⟩ := splitFrom_eq_some cut
  obtain ⟨w₁, w₂, blank₁, blank₂, body⟩ := exists_trim front
  obtain ⟨w₃, w₄, blank₃, blank₄, tail⟩ := exists_trim back
  refine ⟨w₁, w₂, w₃, w₄, ret, ?_, keyword, ?_, ?_, fun before t after found again closed => ?_⟩
  · simp only [List.forall_mem_append]
    exact ⟨⟨⟨blank₁, blank₂⟩, blank₃⟩, blank₄⟩
  · rw [← body, ← tail]
    exact tokens
  · rw [← body]
    exact outside
  rw [← body]
  by_contra later
  -- a `RETURN` behind the cut would stand at depth zero in the tail
  obtain ⟨more, rfl⟩ : ∃ more, before = front ++ ret :: more := by
    rw [tokens] at found
    obtain ⟨more, rfl, behind⟩ | ⟨more, rfl, behind⟩ := List.append_eq_append_iff.1 found
    · cases more with
      | nil => exact absurd (by rw [List.append_nil]) later
      | cons first more =>
          cases behind
          exact ⟨more, rfl⟩
    · exact absurd (by rw [List.length_append]; exact Nat.le_add_right _ _) later
  rw [tokens, List.append_assoc, List.cons_append, List.append_cancel_left_eq] at found
  cases found
  refine depth_ne_zero_of_splitFrom last again ?_
  rw [depthBehind, List.foldl_append, List.foldl_cons, outside,
    depthAfter_of_identifier (kind_of_isKeyword keyword)] at closed
  exact closed

theorem splitReturn_cuts_unbalanced :
    let text := ") MATCH (this]-->(f] RETURN f.f, (f"
    let rename (name : String) : Option String :=
      if name = "this" then some "p" else if name = "f" then some "p_f" else none
    SparesReturn rename
      ∧ ∃ f body tail, Fragment.ofText text = .ok f ∧ f.splitReturn = some (body, tail)
        ∧ (f.renameVariables rename).splitReturn
          = some (body.renameVariables rename, tail.renameVariables rename)
        ∧ (body.renameVariables rename).text = ") MATCH (p]-->(p_f]"
        ∧ (tail.renameVariables rename).text = "p_f.f, (p_f" := by
  intro text rename
  have spares : SparesReturn rename := by
    constructor
    · intro name keyword
      have this : name ≠ "this" := by
        rintro rfl
        exact absurd keyword (by decide)
      have f : name ≠ "f" := by
        rintro rfl
        exact absurd keyword (by decide)
      rw [show rename name = none from (if_neg this).trans (if_neg f)]
      rfl
    · intro name other
      by_cases this : name = "this"
      · rw [show rename name = some "p" from if_pos this, Option.getD_some]
        decide
      by_cases f : name = "f"
      · rw [show rename name = some "p_f" from (if_neg this).trans (if_pos f), Option.getD_some]
        decide
      · rw [show rename name = none from (if_neg this).trans (if_neg f)]
        exact other
  have shape : ((Fragment.ofText text).toOption.any fun f => f.splitReturn.any fun parts =>
      (parts.1.renameVariables rename).text == ") MATCH (p]-->(p_f]"
        && (parts.2.renameVariables rename).text == "p_f.f, (p_f") = true := by
    decide +kernel
  obtain ⟨f, lexed, shape⟩ := exists_ok_of_any shape
  obtain ⟨⟨body, tail⟩, split, texts⟩ := (Option.any_eq_true _ _).1 shape
  rw [Bool.and_eq_true, beq_iff_eq, beq_iff_eq] at texts
  refine ⟨spares, f, body, tail, lexed, split, ?_, texts⟩
  rw [(splitReturn_cuts f).2 rename spares, split]
  rfl

end Fragment

end GraphBridge.Query
