import GraphBridge.Proofs.Renaming
import GraphBridge.Proofs.Scope
import Mathlib.Data.List.Forall2

/-!
# Reserved words under renaming

The text of a scalar override is taken over with new names for its variables. A reserved word of the
query language is an identifier like any other, and what makes an identifier bound is the token in
front of it: an opening bracket or `AS`. So a reserved word is taken for a bound variable if it
stands behind a bracket anywhere in the fragment, as `NOT` in `(NOT x.hidden)`, and then it gets a
new name wherever it stands like a variable. In all other cases it stays as it is.
-/

namespace GraphBridge.Query

/-- The reserved words of the query language. -/
def reservedWords : List String :=
  ["MATCH", "OPTIONAL", "WHERE", "WITH", "RETURN", "AS", "DISTINCT", "NOT", "AND", "OR", "XOR",
    "IN", "CASE", "WHEN", "THEN", "ELSE", "END", "NULL", "TRUE", "FALSE"]

/-- Whether a token is a reserved word in any case. -/
def Token.isReserved (t : Token) : Bool :=
  reservedWords.any t.isKeyword

namespace Fragment

theorem ne_this_of_isReserved {t : Token} (reserved : t.isReserved = true) : t.text ≠ "this" := by
  obtain ⟨word, mem, keyword⟩ := List.any_eq_true.1 reserved
  intro this
  rw [Token.isKeyword, this, Bool.and_eq_true] at keyword
  have other : ∀ word ∈ reservedWords, Text.equalIgnoringCase "this" word = false := by decide
  rw [other word mem] at keyword
  cases keyword.2

/-- Collecting names once each loses none. -/
theorem mem_foldl_distinct {names start : List String} {name : String} :
    name ∈ names.foldl (fun bound name => if bound.contains name then bound else bound ++ [name])
        start
      ↔ name ∈ start ∨ name ∈ names := by
  induction names generalizing start with
  | nil => simp
  | cons first rest ih =>
      rw [List.foldl_cons, ih, List.mem_cons]
      split
      · rename_i known
        have mem : first ∈ start := by simpa using known
        constructor
        · exact fun h => h.imp_right .inr
        · rintro (h | rfl | h)
          · exact .inl h
          · exact .inl mem
          · exact .inr h
      · rw [List.mem_append, List.mem_singleton, or_assoc]

/-- What a fragment binds: the variables behind an opening bracket or `AS`. -/
theorem mem_boundVariables {f : Fragment} {name : String} :
    name ∈ f.boundVariables ↔ ∃ p ∈ f.placed, binds p = true ∧ p.token.text = name := by
  unfold boundVariables
  rw [mem_foldl_distinct]
  simp [and_assoc]

/-- Whether a token stands for a variable that a fragment binds. -/
def StandsForBound (f : Fragment) (p : Placed) : Prop :=
  p.isVariable = true ∧ ∃ q ∈ f.placed, binds q = true ∧ q.token.text = p.token.text

end Fragment

end GraphBridge.Query

namespace GraphBridge.Statement

/-- The texts that a clause takes over from an override. -/
def Clause.taken : Clause → List Inlined
  | .inlined _ body => [body]
  | .aggregate _ value _ => [value]
  | .subquery _ body value _ => [body, value]
  | _ => []

/-- The texts that an expression takes over from an override. -/
def Expression.taken : Expression → List Inlined
  | .inlined value => [value]
  | _ => []

end GraphBridge.Statement

namespace GraphBridge.Compile

open Operation Query Statement

/-- A token of a text that is taken over, next to the one it was. A reserved word stays the same
unless it stands for a variable that the fragment binds, and then it gets a new name. -/
structure KeepsReserved (f : Fragment) (stem : String) (p : Placed) (t : Token) : Prop where
  kind : t.kind = p.token.kind
  start : t.start = p.token.start
  same_iff : p.token.isReserved = true → (t = p.token ↔ ¬ f.StandsForBound p)
  renamed : p.token.isReserved = true → f.StandsForBound p →
    t.text = stem ++ "_" ++ p.token.text

theorem get?_scalarNames {path stem : String} {bound : List String} {name : String}
    (other : name ≠ "this") :
    (scalarNames path stem bound).get? name
      = if name ∈ bound then some (stem ++ "_" ++ name) else none := by
  unfold scalarNames
  rw [Table.get?, if_neg (by simpa using Ne.symm other)]
  exact Table.get?_map bound (fun name => stem ++ "_" ++ name) name

/-- What becomes of one token. -/
theorem keepsReserved_renameToken (f : Fragment) (path stem : String) (p : Placed) :
    KeepsReserved f stem p
      (Fragment.renameToken (scalarNames path stem f.boundVariables).get? p) := by
  have longer : stem ++ "_" ++ p.token.text ≠ p.token.text := by
    intro same
    have lengths := congrArg String.length same
    simp only [String.length_append] at lengths
    have one : "_".length = 1 := rfl
    omega
  have text (reserved : p.token.isReserved = true) :
      (scalarNames path stem f.boundVariables).get? p.token.text
        = if p.token.text ∈ f.boundVariables then some (stem ++ "_" ++ p.token.text) else none :=
    get?_scalarNames (Fragment.ne_this_of_isReserved reserved)
  by_cases placed : p.isVariable = true
  · refine ⟨Fragment.kind_renameToken _ p, ?_, fun reserved => ?_, fun reserved bound => ?_⟩
    · rw [Fragment.renameToken, if_pos placed]
    · rw [Fragment.renameToken, if_pos placed, text reserved, Fragment.StandsForBound,
        ← Fragment.mem_boundVariables]
      by_cases bound : p.token.text ∈ f.boundVariables
      · rw [if_pos bound]
        refine ⟨fun same => absurd (congrArg Token.text same) longer, ?_⟩
        exact fun free => absurd ⟨placed, bound⟩ free
      · rw [if_neg bound]
        exact ⟨fun _ stands => bound stands.2, fun _ => rfl⟩
    · have mem := Fragment.mem_boundVariables.2 bound.2
      rw [Fragment.renameToken, if_pos placed, text reserved, if_pos mem]
      rfl
  · rw [Fragment.renameToken, if_neg placed]
    refine ⟨rfl, rfl, fun _ => ⟨fun _ stands => placed stands.1, fun _ => rfl⟩, ?_⟩
    exact fun _ stands => absurd stands.1 placed

/-! ## What is taken over -/

theorem clauses_keepFor (b : Builder) (frame : Nat) (name : String) :
    (keepFor b frame name).clauses = b.clauses :=
  Builder.clauses_bindScope b name

theorem clauses_keepMentioned (b : Builder) (frame : Nat) (tail : Fragment)
    (names : List String) : (keepMentioned frame tail names b).clauses = b.clauses :=
  keepMentioned_induction (motive := fun later => later.clauses = b.clauses)
    (fun later name kept => (clauses_keepFor later frame name).trans kept) names rfl

/-- The body of an override adds a clause with its text or nothing. -/
theorem clauses_addBody (config : Config) (b : Builder) (body : Inlined) :
    ∃ added, (addBody config b body).clauses = b.clauses ++ added
      ∧ ∀ i ∈ added.flatMap Clause.taken, i = body := by
  unfold addBody
  split
  · exact ⟨[], (List.append_nil _).symm, List.forall_mem_nil _⟩
  · exact ⟨[inlinedClause config body], rfl, List.forall_mem_singleton.2 rfl⟩

/-- A scalar override adds clauses, and all that they and the expression of its value take over is
the two sides of the fragment under their new names. -/
theorem inlineScalar_taken (config : Config) (bound : List String) (body tail : Fragment)
    (path key : String) (frame : Nat) (b : Builder) :
    let names := scalarNames path (path ++ "_" ++ key) bound
    let made := inlineScalar config bound body tail path key frame b
    ∃ added, made.2.clauses = b.clauses ++ added
      ∧ (∀ i ∈ added.flatMap Clause.taken ++ made.1.taken, i = ⟨body, names⟩ ∨ i = ⟨tail, names⟩)
      ∧ ⟨tail, names⟩ ∈ added.flatMap Clause.taken ++ made.1.taken := by
  intro names
  unfold inlineScalar
  dsimp only
  obtain ⟨added, clauses, own⟩ := clauses_addBody config b ⟨body, names⟩
  split
  · refine ⟨[.subquery path ⟨body, names⟩ ⟨tail, names⟩ (path ++ "_" ++ key)],
      clauses_keepFor _ _ _, ?_, ?_⟩
    · exact List.forall_mem_cons.2 ⟨.inl rfl, List.forall_mem_singleton.2 (.inr rfl)⟩
    · exact List.mem_cons_of_mem _ List.mem_cons_self
  split
  · refine ⟨added ++ [.aggregate (addBody config b ⟨body, names⟩).scope ⟨tail, names⟩
      (path ++ "_" ++ key)], ?_, ?_, ?_⟩
    · rw [clauses_keepFor, Builder.addClause, clauses, List.append_assoc]
    · rw [List.flatMap_append, List.append_assoc]
      refine List.forall_mem_append.2 ⟨fun i mem => .inl (own i mem), ?_⟩
      exact List.forall_mem_singleton.2 (.inr rfl)
    · rw [List.flatMap_append, List.append_assoc]
      exact List.mem_append_right _ List.mem_cons_self
  · refine ⟨added, (clauses_keepMentioned _ _ _ _).trans clauses, ?_, ?_⟩
    · refine List.forall_mem_append.2 ⟨fun i mem => .inl (own i mem), ?_⟩
      exact List.forall_mem_singleton.2 (.inr rfl)
    · exact List.mem_append_right _ List.mem_cons_self

/-- What becomes of the reserved words of a scalar override. An override with a `RETURN` is always
inlined; all that it brings into the statement is its two sides under new names; and token by token
a reserved word in them stays as it is, unless it stands where a variable can stand and the same
word is bound somewhere in the fragment: then it is renamed like a variable. -/
theorem projectScalarOverride_keepsReserved (config : Config) {text : String} {field : Field}
    (path : String) (frame : Nat) (b : Builder) {fragment body tail : Fragment}
    (read : fragmentFor field text = .ok fragment)
    (split : fragment.splitReturn = some (body, tail)) :
    let stem := path ++ "_" ++ field.responseKey
    let names := scalarNames path stem fragment.boundVariables
    ∃ expression later added,
      projectScalarOverride config text field path frame b = .ok (expression, later)
      ∧ later.clauses = b.clauses ++ added
      ∧ (∀ i ∈ added.flatMap Clause.taken ++ expression.taken,
          i = ⟨body, names⟩ ∨ i = ⟨tail, names⟩)
      ∧ ⟨tail, names⟩ ∈ added.flatMap Clause.taken ++ expression.taken
      ∧ ∀ part ∈ [body, tail], part.placed.map (·.token) = part.tokens
          ∧ List.Forall₂ (KeepsReserved fragment stem) part.placed
              (Inlined.mk part names).renamed.tokens := by
  intro stem names
  have made : projectScalarOverride config text field path frame b = .ok
      (inlineScalar config fragment.boundVariables body tail path field.responseKey frame b) := by
    unfold projectScalarOverride splitFor
    rw [read]
    simp only [bind, Except.bind, split]
    rfl
  obtain ⟨added, clauses, sides, value⟩ := inlineScalar_taken config fragment.boundVariables body
    tail path field.responseKey frame b
  refine ⟨_, _, added, made, clauses, sides, value, fun part _ => ⟨?_, ?_⟩⟩
  · exact Fragment.map_token_placedFrom [] none part.tokens
  · refine List.forall₂_map_right_iff.2 (List.forall₂_same.2 fun p _ => ?_)
    exact keepsReserved_renameToken fragment path stem p

/-- A count of friends without arguments. -/
def friendCountField : Field :=
  ⟨none, "friendCount", [], []⟩

/-- The two sides of an override of the count, with what can be checked of them. -/
theorem exists_sides {text : String} {check : Fragment → Fragment → Bool}
    (shape : ((fragmentFor friendCountField text).toOption.any fun fragment =>
      fragment.splitReturn.any fun sides => check fragment sides.1) = true) :
    ∃ fragment body tail, fragmentFor friendCountField text = .ok fragment
      ∧ fragment.splitReturn = some (body, tail) ∧ check fragment body = true := by
  obtain ⟨fragment, read, shape⟩ := exists_ok_of_any shape
  obtain ⟨⟨body, tail⟩, split, checked⟩ := (Option.any_eq_true _ _).1 shape
  exact ⟨fragment, body, tail, read, split, checked⟩

theorem projectScalarOverride_keepsReserved_hidden :
    ∃ fragment body tail,
      fragmentFor friendCountField "MATCH (this)--(f) WHERE NOT f.hidden RETURN count(f)"
        = .ok fragment
      ∧ fragment.splitReturn = some (body, tail)
      ∧ (∃ p ∈ body.placed, p.isVariable = true ∧ p.token.isReserved = true)
      ∧ List.Forall₂ (fun p t => p.token.isReserved = true → t = p.token) body.placed
          (Inlined.mk body (scalarNames "p" ("p" ++ "_" ++ friendCountField.responseKey)
            fragment.boundVariables)).renamed.tokens := by
  obtain ⟨fragment, body, tail, read, split, checked⟩ :=
    @exists_sides "MATCH (this)--(f) WHERE NOT f.hidden RETURN count(f)"
      (fun fragment body => (body.placed.any fun p => p.isVariable && p.token.isReserved)
        && fragment.placed.all fun q => !(Fragment.binds q && reservedWords.any fun word =>
          Text.equalIgnoringCase q.token.text word)) (by decide +kernel)
  rw [Bool.and_eq_true, List.any_eq_true, List.all_eq_true] at checked
  obtain ⟨⟨p, mem, stands⟩, none⟩ := checked
  rw [Bool.and_eq_true] at stands
  refine ⟨fragment, body, tail, read, split, ⟨p, mem, stands⟩, ?_⟩
  obtain ⟨_, _, _, -, -, -, -, parts⟩ :=
    projectScalarOverride_keepsReserved {} "p" 0 {} read split
  refine (parts body List.mem_cons_self).2.imp fun p t keeps reserved => ?_
  refine (keeps.same_iff reserved).2 fun bound => ?_
  obtain ⟨q, among, binds, same⟩ := bound.2
  have free := none q among
  rw [binds, same, Bool.true_and, Bool.not_eq_true', List.any_eq_false] at free
  obtain ⟨word, known, keyword⟩ := List.any_eq_true.1 reserved
  rw [Token.isKeyword, Bool.and_eq_true] at keyword
  exact free word known keyword.2

/-- A negation in brackets is renamed like a variable. -/
theorem negation_renamed :
    ∃ fragment body tail,
      fragmentFor friendCountField "MATCH (this)--(f) WHERE (NOT f.hidden) RETURN count(f)"
        = .ok fragment
      ∧ fragment.splitReturn = some (body, tail)
      ∧ ∃ pair ∈ body.tokens.zip (Inlined.mk body (scalarNames "p" "p_friendCount"
            fragment.boundVariables)).renamed.tokens,
          pair.1.isReserved = true ∧ pair.1.text = "NOT" ∧ pair.2.text = "p_friendCount_NOT" := by
  obtain ⟨fragment, body, tail, read, split, checked⟩ :=
    @exists_sides "MATCH (this)--(f) WHERE (NOT f.hidden) RETURN count(f)"
      (fun fragment body => (body.tokens.zip (Inlined.mk body (scalarNames "p" "p_friendCount"
          fragment.boundVariables)).renamed.tokens).any fun pair =>
        pair.1.isReserved && (pair.1.text == "NOT" && pair.2.text == "p_friendCount_NOT"))
      (by decide +kernel)
  obtain ⟨pair, mem, facts⟩ := List.any_eq_true.1 checked
  simp only [Bool.and_eq_true, beq_iff_eq] at facts
  exact ⟨fragment, body, tail, read, split, pair, mem, facts⟩

end GraphBridge.Compile
