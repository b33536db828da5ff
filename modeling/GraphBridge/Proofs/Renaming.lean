import GraphBridge.Query.Fragment

/-!
# Renaming keeps places

Whether an identifier of a fragment is a variable depends on the kinds of the tokens around it, and
renaming changes texts only. So a renamed fragment has its variables at the places where the
fragment had them, each under its new name.
-/

namespace GraphBridge.Query.Fragment

@[simp] theorem kind_renameToken (rename : String → Option String) (p : Placed) :
    (renameToken rename p).kind = p.token.kind := by
  unfold renameToken
  split <;> rfl

theorem isSymbol_congr {t u : Token} (same : t.kind = u.kind) (c : Char) :
    t.isSymbol c = u.isSymbol c := by
  simp [Token.isSymbol, same]

theorem isTrivia_congr {t u : Token} (same : t.kind = u.kind) : t.isTrivia = u.isTrivia := by
  simp [Token.isTrivia, same]

/-- Two tokens, or none, of the same kind. -/
def SameKind (t? u? : Option Token) : Prop :=
  t?.map (·.kind) = u?.map (·.kind)

theorem any_isSymbol_congr {t? u? : Option Token} (same : SameKind t? u?) (c : Char) :
    t?.any (·.isSymbol c) = u?.any (·.isSymbol c) := by
  cases t? with
  | none =>
      cases u? with
      | none => rfl
      | some u => simp [SameKind] at same
  | some t =>
      cases u? with
      | none => simp [SameKind] at same
      | some u => simpa using isSymbol_congr (by simpa [SameKind] using same) c

theorem isVariableBetween_congr {before before' after after' : Option Token}
    (sameBefore : SameKind before' before) (sameAfter : SameKind after' after)
    (bracket : Option Char) :
    isVariableBetween bracket before' after' = isVariableBetween bracket before after := by
  simp only [isVariableBetween, any_isSymbol_congr sameBefore, any_isSymbol_congr sameAfter]

theorem bracketsAfter_congr {t u : Token} (same : t.kind = u.kind) (brackets : List Char) :
    bracketsAfter brackets t = bracketsAfter brackets u := by
  unfold bracketsAfter Token.opens Token.closes
  simp only [isSymbol_congr same]
  rw [same]

theorem firstMeaningful_rename (rename : String → Option String) (brackets : List Char)
    (before : Option Token) (tokens : List Token) :
    SameKind (firstMeaningful ((placedFrom brackets before tokens).map (renameToken rename)))
      (firstMeaningful tokens) := by
  induction tokens generalizing brackets before with
  | nil => rfl
  | cons t rest ih =>
      simp only [placedFrom, List.map_cons]
      generalize (t.kind == .identifier
        && isVariableBetween brackets.head? before (firstMeaningful rest)) = isVariable
      have same := kind_renameToken rename ⟨t, before, isVariable⟩
      have inside := ih (bracketsAfter brackets t) (if t.isTrivia then before else some t)
      unfold firstMeaningful at inside ⊢
      rw [List.find?_cons, List.find?_cons, isTrivia_congr same]
      cases trivia : t.isTrivia with
      | true => simpa [trivia] using inside
      | false => simp [SameKind]

/-- The tokens of a renamed fragment and the places of its variables. -/
theorem placedFrom_rename (rename : String → Option String) (brackets : List Char)
    {before before' : Option Token} (same : SameKind before' before) (tokens : List Token) :
    (placedFrom brackets before' ((placedFrom brackets before tokens).map
        (renameToken rename))).map (fun p => (p.token, p.isVariable))
      = (placedFrom brackets before tokens).map
          (fun p => (renameToken rename p, p.isVariable)) := by
  induction tokens generalizing brackets before before' with
  | nil => rfl
  | cons t rest ih =>
      simp only [placedFrom, List.map_cons]
      generalize flag : (t.kind == .identifier
        && isVariableBetween brackets.head? before (firstMeaningful rest)) = isVariable
      have kind := kind_renameToken rename ⟨t, before, isVariable⟩
      congr 1
      · rw [kind, isVariableBetween_congr same (firstMeaningful_rename rename _ _ rest), flag]
      · rw [bracketsAfter_congr kind, isTrivia_congr kind]
        apply ih
        -- the meaningful token in front is the old one or the renamed one, of one kind either way
        cases t.isTrivia with
        | true => exact same
        | false => simp [SameKind]

/-- Renaming moves no variable. -/
theorem placed_rename (f : Fragment) (rename : String → Option String) :
    (f.renameVariables rename).placed.map (fun p => (p.token, p.isVariable))
      = f.placed.map (fun p => (renameToken rename p, p.isVariable)) :=
  placedFrom_rename rename [] rfl f.tokens

theorem mentions_iff {f : Fragment} {name : String} :
    f.mentions name = true ↔ name ∈ f.variableNames := by
  simp [mentions, variableNames, and_assoc]

/-- The variables of a renamed fragment are the new names of its variables. -/
theorem variableNames_rename (f : Fragment) (rename : String → Option String) :
    (f.renameVariables rename).variableNames
      = f.variableNames.map fun name => (rename name).getD name := by
  have split (placed : List Placed) : (placed.filter (·.isVariable)).map (·.token.text)
      = ((placed.map fun p => (p.token, p.isVariable)).filter (·.2)).map (·.1.text) := by
    simp [List.filter_map, Function.comp_def]
  unfold variableNames
  rw [split, placed_rename, List.filter_map, List.map_map, List.map_map]
  apply List.map_congr_left
  intro p mem
  have isVariable : p.isVariable = true := by simpa using (List.mem_filter.1 mem).2
  simp [renameToken, isVariable]

theorem map_token_placedFrom (brackets : List Char) (before : Option Token)
    (tokens : List Token) : (placedFrom brackets before tokens).map (·.token) = tokens := by
  induction tokens generalizing brackets before with
  | nil => rfl
  | cons t rest ih => rw [placedFrom, List.map_cons, ih]

/-- New names do not change whether an expression aggregates. -/
theorem isAggregate_rename (f : Fragment) (rename : String → Option String) :
    (f.renameVariables rename).isAggregate = f.isAggregate := by
  have kept (p : Placed) : (renameToken rename p).isSymbol '(' = p.token.isSymbol '(' := by
    unfold renameToken
    split
    · exact isSymbol_congr rfl '('
    · rfl
  rw [isAggregate, renameVariables, List.any_map]
  conv => rhs; rw [isAggregate, ← map_token_placedFrom [] none f.tokens, List.any_map]
  congr 1
  funext p
  exact kept p

/-- A variable with a new name occurs under it. -/
theorem mentions_rename {f : Fragment} {rename : String → Option String} {name new : String}
    (occurs : name ∈ f.variableNames) (renamed : rename name = some new) :
    (f.renameVariables rename).mentions new = true := by
  rw [mentions_iff, variableNames_rename]
  exact List.mem_map.2 ⟨name, occurs, by simp [renamed]⟩

end GraphBridge.Query.Fragment
