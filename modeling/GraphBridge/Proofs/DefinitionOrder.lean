import GraphBridge.Proofs.Emission
import GraphBridge.Proofs.Outcome
import Mathlib

/-!
# The order in which definitions are written

Operations and fragments are found by their names, and whoever keeps them under their names may
hand them out in any order, the fragments again for each operation. Both are sorted, and because no
name is used twice there is one sorted order only. An operation can be wrong in one way only, so
that it does not matter either which of them is looked at first. A document is therefore the same in
every order of its definitions, and so is what is compiled from it.
-/

namespace GraphBridge

/-- Sorting by distinct keys forgets the order there was. -/
theorem mergeSort_eq_of_perm {α β : Type} {key : α → β} {before : β → β → Bool}
    (trans : ∀ a b c, before a b = true → before b c = true → before a c = true)
    (total : ∀ a b, (before a b || before b a) = true)
    (antisymm : ∀ a b, before a b = true → before b a = true → a = b)
    {as bs : List α} (same : bs.Perm as) (distinct : (as.map key).Nodup) :
    bs.mergeSort (fun a b => before (key a) (key b))
      = as.mergeSort (fun a b => before (key a) (key b)) := by
  have sorted (cs : List α) := @List.pairwise_mergeSort _ (fun a b => before (key a) (key b))
    (fun a b c => trans (key a) (key b) (key c)) (fun a b => total (key a) (key b)) cs
  have perm (cs : List α) := List.mergeSort_perm cs fun a b => before (key a) (key b)
  refine List.Perm.eq_of_pairwise ?_ (sorted bs) (sorted as)
    ((perm bs).trans (same.trans (perm as).symm))
  intro a b mem mem' ab ba
  have mem : a ∈ as := same.mem_iff.1 ((perm bs).mem_iff.1 mem)
  have mem' : b ∈ as := (perm as).mem_iff.1 mem'
  exact List.inj_on_of_nodup_map distinct mem mem' (antisymm _ _ ab ba)

/-- Where only one thing can go wrong, the order in which a list is looked at decides nothing but
the order of the results. -/
theorem SameOutcome.mapM_perm {ε α β : Type} {look : α → Except ε β} {only : ε}
    (alike : ∀ a e, look a = .error e → e = only) {as bs : List α} (same : bs.Perm as) :
    SameOutcome id List.Perm (bs.mapM look) (as.mapM look) := by
  induction same with
  | nil => exact .ok .nil
  | cons a _ ih =>
      rw [List.mapM_cons, List.mapM_cons]
      refine (of_eq rfl).bind fun b _ _ _ equal => ih.bind fun _ _ _ _ rest => ?_
      subst equal
      exact .ok (rest.cons b)
  | swap a b cs =>
      simp only [List.mapM_cons]
      cases first : look a with
      | error e =>
          cases second : look b with
          | error e' => exact .error ((alike b e' second).trans (alike a e first).symm)
          | ok y => exact .error rfl
      | ok x =>
          cases second : look b with
          | error e' => exact .error rfl
          | ok y =>
              cases cs.mapM look with
              | error e => exact .error rfl
              | ok zs => exact .ok (.swap x y zs)
  | trans _ _ first second =>
      exact (first.trans second).imp fun _ _ ⟨_, perm, perm'⟩ => perm.trans perm'

end GraphBridge

namespace GraphBridge.Operation.Source

/-! ## Documents that may be converted -/

/-- The operations of a document in the order in which they are written. -/
def operationsOf (definitions : List Definition) : List OperationDefinition :=
  definitions.filterMap Definition.operation?

/-- The fragments of a document in the order in which they are written. -/
def fragmentsOf (definitions : List Definition) : List FragmentDefinition :=
  definitions.filterMap Definition.fragment?

/-- Two names that operations of one document may have. -/
def AreApart (a b : Option String) : Prop :=
  a ≠ none ∧ b ≠ none ∧ a ≠ b

/-- What a list of definitions has to be for there to be a document at all. -/
structure IsDocument (definitions : List Definition) : Prop where
  sound : definitions.findSome? Definition.fault? = none
  apart : Definition.clash? [] [] definitions = none
  nonempty : operationsOf definitions ≠ []

theorem AreApart.symm {a b : Option String} (apart : AreApart a b) : AreApart b a :=
  ⟨apart.2.1, apart.1, fun equal => apart.2.2 equal.symm⟩

theorem clash?_operation {operations : List (Option String)} {fragments : List String}
    (o : OperationDefinition) (rest : List Definition) :
    Definition.clash? operations fragments (.operation o :: rest) = none
      ↔ (∀ name ∈ operations, AreApart name o.name?)
        ∧ Definition.clash? (o.name? :: operations) fragments rest = none := by
  rw [Definition.clash?]
  cases o.name? with
  | none =>
      cases operations with
      | nil => simp
      | cons first operations =>
          have clashing : ¬ ∀ name ∈ first :: operations, AreApart name none := fun apart =>
            (apart first List.mem_cons_self).2.1 rfl
          simp only [List.isEmpty_cons, Bool.false_eq_true, if_false, clashing, false_and,
            reduceCtorEq]
  | some name =>
      have free : (∀ other ∈ operations, AreApart other (some name))
          ↔ none ∉ operations ∧ some name ∉ operations := by
        constructor
        · intro apart
          exact ⟨fun alone => (apart _ alone).1 rfl, fun taken => (apart _ taken).2.2 rfl⟩
        · rintro ⟨alone, taken⟩ other mem
          refine ⟨?_, Option.some_ne_none name, ?_⟩
          · rintro rfl
            exact alone mem
          · rintro rfl
            exact taken mem
      by_cases alone : none ∈ operations
      · simp [free, alone]
      · by_cases taken : some name ∈ operations
        · simp [free, alone, taken]
        · simp [free, alone, taken]

theorem clash?_fragment {operations : List (Option String)} {fragments : List String}
    (f : FragmentDefinition) (rest : List Definition) :
    Definition.clash? operations fragments (.fragment f :: rest) = none
      ↔ f.name ∉ fragments ∧ Definition.clash? operations (f.name :: fragments) rest = none := by
  rw [Definition.clash?]
  by_cases taken : f.name ∈ fragments
  · simp [taken]
  · simp [taken]

/-- Names do not clash exactly if those of the operations are pairwise apart and those of the
fragments distinct, also from the names before. -/
theorem clash?_eq_none_iff {operations : List (Option String)} {fragments : List String}
    {definitions : List Definition} :
    Definition.clash? operations fragments definitions = none
      ↔ (((operationsOf definitions).map (·.name?)).Pairwise AreApart
          ∧ ∀ o ∈ operationsOf definitions, ∀ name ∈ operations, AreApart name o.name?)
        ∧ ((fragmentsOf definitions).map (·.name)).Nodup
          ∧ ∀ f ∈ fragmentsOf definitions, f.name ∉ fragments := by
  induction definitions generalizing operations fragments with
  | nil => simp [Definition.clash?, operationsOf, fragmentsOf]
  | cons d rest ih =>
      cases d with
      | operation o =>
          have written : operationsOf (.operation o :: rest) = o :: operationsOf rest
              ∧ fragmentsOf (.operation o :: rest) = fragmentsOf rest := ⟨rfl, rfl⟩
          rw [clash?_operation, ih, written.1, written.2, List.map_cons, List.pairwise_cons]
          simp only [List.forall_mem_cons, List.forall_mem_map, forall_and]
          tauto
      | fragment f =>
          have written : operationsOf (.fragment f :: rest) = operationsOf rest
              ∧ fragmentsOf (.fragment f :: rest) = f :: fragmentsOf rest := ⟨rfl, rfl⟩
          rw [clash?_fragment, ih, written.1, written.2, List.map_cons, List.nodup_cons,
            List.forall_mem_cons]
          simp only [List.mem_cons, List.mem_map, not_or, not_exists,
            not_and, forall_and]
          tauto

namespace IsDocument

variable {definitions others : List Definition}

theorem perm (document : IsDocument definitions) (same : others.Perm definitions) :
    IsDocument others where
  sound := by
    rw [List.findSome?_eq_none_iff]
    intro d mem
    exact List.findSome?_eq_none_iff.1 document.sound d (same.mem_iff.1 mem)
  apart := by
    obtain ⟨⟨operations, -⟩, fragments, -⟩ := clash?_eq_none_iff.1 document.apart
    refine clash?_eq_none_iff.2 ⟨⟨?_, by simp⟩, ?_, by simp⟩
    · exact (((same.filterMap _).map _).pairwise_iff AreApart.symm).2 operations
    · exact ((same.filterMap _).map _).nodup_iff.2 fragments
  nonempty := by
    intro empty
    have none : (operationsOf definitions).Perm [] := empty ▸ (same.filterMap _).symm
    exact document.nonempty none.eq_nil

theorem nodup_operations (document : IsDocument definitions) :
    ((operationsOf definitions).map (·.name?)).Nodup :=
  (clash?_eq_none_iff.1 document.apart).1.1.imp fun apart => apart.2.2

theorem nodup_fragments (document : IsDocument definitions) :
    ((fragmentsOf definitions).map (·.name)).Nodup :=
  (clash?_eq_none_iff.1 document.apart).2.1

/-- A document is its operations, each among all fragments, in the order of their names. -/
theorem ofDefinitions_eq (document : IsDocument definitions) (values : Table Json) :
    Document.ofDefinitions definitions values
      = (operationsOf definitions).mapM (fun o => o.resolve (fragmentsOf definitions) values)
          >>= fun resolved => .ok ⟨sortOperations resolved⟩ := by
  have some_operation : (operationsOf definitions).isEmpty = false :=
    List.isEmpty_eq_false_iff.2 document.nonempty
  unfold Document.ofDefinitions
  rw [document.sound, document.apart]
  dsimp only
  rw [operationsOf] at some_operation
  rw [some_operation]
  rfl

end IsDocument

/-! ## Orders in which definitions may be met -/

/-- An order in which the operations of a document may be met, each with an order in which its
fragments may be met then. -/
structure Meets (definitions : List Definition)
    (met : List (OperationDefinition × List FragmentDefinition)) : Prop where
  operations : (met.map Prod.fst).Perm (operationsOf definitions)
  fragments : ∀ m ∈ met, m.2.Perm (fragmentsOf definitions)

/-- The document that results from operations and fragments as they are met. -/
def documentOf (met : List (OperationDefinition × List FragmentDefinition))
    (values : Table Json) : Except ParseError Document := do
  let resolved ← met.mapM fun (o, fragments) => o.resolve fragments values
  return ⟨sortOperations resolved⟩

theorem nameBefore_trans (a b c : Option String) (ab : nameBefore a b = true)
    (bc : nameBefore b c = true) : nameBefore a c = true := by
  cases a with
  | none => rfl
  | some a =>
      cases b with
      | none => cases ab
      | some b =>
          cases c with
          | none => cases bc
          | some c =>
              exact decide_eq_true (String.le_trans (of_decide_eq_true ab) (of_decide_eq_true bc))

theorem nameBefore_total (a b : Option String) : (nameBefore a b || nameBefore b a) = true := by
  cases a with
  | none => rfl
  | some a =>
      cases b with
      | none => rfl
      | some b =>
          rw [nameBefore, nameBefore, Bool.or_eq_true, decide_eq_true_iff, decide_eq_true_iff]
          exact String.le_total a b

theorem nameBefore_antisymm (a b : Option String) (ab : nameBefore a b = true)
    (ba : nameBefore b a = true) : a = b := by
  cases a with
  | none =>
      cases b with
      | none => rfl
      | some b => cases ba
  | some a =>
      cases b with
      | none => cases ab
      | some b => rw [String.le_antisymm (of_decide_eq_true ab) (of_decide_eq_true ba)]

theorem sortOperations_perm {operations others : List Operation} (same : others.Perm operations)
    (distinct : (operations.map (·.name?)).Nodup) :
    sortOperations others = sortOperations operations :=
  mergeSort_eq_of_perm nameBefore_trans nameBefore_total nameBefore_antisymm same distinct

theorem sortFragments_perm {fragments others : List Operation.FragmentDefinition}
    (same : others.Perm fragments) (distinct : (fragments.map (·.name)).Nodup) :
    OperationDefinition.sortFragments others = OperationDefinition.sortFragments fragments := by
  have named : (fragments.map fun f => some f.name).Nodup := by
    have injective : Function.Injective (some : String → Option String) := fun _ _ same =>
      Option.some.inj same
    have mapped := distinct.map injective
    rwa [List.map_map] at mapped
  exact mergeSort_eq_of_perm nameBefore_trans nameBefore_total nameBefore_antisymm same named

theorem resolve_perm {fragments others : List FragmentDefinition} (same : others.Perm fragments)
    (distinct : (fragments.map (·.name)).Nodup) (o : OperationDefinition) (values : Table Json) :
    o.resolve others values = o.resolve fragments values := by
  have names : ((fragments.map (·.resolve (o.lookup values))).map (·.name)).Nodup := by
    rw [List.map_map]
    exact distinct
  unfold OperationDefinition.resolve
  dsimp only
  rw [sortFragments_perm (same.map _) names]

/-- Only the type of an operation can be wrong with it. -/
theorem resolve_error {o : OperationDefinition} {fragments : List FragmentDefinition}
    {values : Table Json} {e : ParseError} (failed : o.resolve fragments values = .error e) :
    e = .subscription := by
  obtain ⟨type, name?, declared, directives, selections⟩ := o
  cases type with
  | query => cases failed
  | mutation => cases failed
  | subscription =>
      cases failed
      rfl

theorem resolve_name? {o : OperationDefinition} {fragments : List FragmentDefinition}
    {values : Table Json} {converted : Operation}
    (resolved : o.resolve fragments values = .ok converted) : converted.name? = o.name? := by
  obtain ⟨kind, -, made⟩ := Compile.bind_eq_ok resolved
  cases made
  rfl

/-- Whatever the order in which operations and fragments are met, the document is the one that is
written, or the error is. -/
theorem Meets.documentOf_eq {definitions : List Definition}
    {met : List (OperationDefinition × List FragmentDefinition)} (meets : Meets definitions met)
    (document : IsDocument definitions) (values : Table Json) :
    documentOf met values = Document.ofDefinitions definitions values := by
  have each : met.mapM (fun (o, fragments) => o.resolve fragments values)
      = (met.map Prod.fst).mapM (fun o => o.resolve (fragmentsOf definitions) values) := by
    rw [List.mapM_map]
    refine Compile.mapM_congr fun m mem => ?_
    exact resolve_perm (meets.fragments m mem) document.nodup_fragments m.1 values
  unfold documentOf
  rw [each, document.ofDefinitions_eq]
  refine ((SameOutcome.mapM_perm (fun _ _ => resolve_error) meets.operations).bind ?_).eq
  intro resolved resolved' _ found' same
  have names : resolved'.map (·.name?) = (operationsOf definitions).map (·.name?) :=
    Compile.map_eq_of_mapM (fun _ _ => resolve_name?) found'
  rw [sortOperations_perm same (names ▸ document.nodup_operations)]
  exact .ok rfl

theorem IsDocument.ofDefinitions_perm {definitions others : List Definition}
    (document : IsDocument definitions) (same : others.Perm definitions) (values : Table Json) :
    Document.ofDefinitions others values = Document.ofDefinitions definitions values := by
  -- the definitions as they stand in the other order are one way of meeting those of the first
  let met := (operationsOf others).map fun o => (o, fragmentsOf others)
  have first : met.map Prod.fst = operationsOf others := by
    rw [List.map_map]
    exact List.map_id _
  have fragments (m) (mem : m ∈ met) : m.2 = fragmentsOf others := by
    obtain ⟨o, -, rfl⟩ := List.mem_map.1 mem
    rfl
  have meets : Meets definitions met :=
    ⟨first ▸ same.filterMap _, fun m mem => fragments m mem ▸ same.filterMap _⟩
  have own : Meets others met := ⟨first ▸ .refl _, fun m mem => fragments m mem ▸ .refl _⟩
  rw [← meets.documentOf_eq document, own.documentOf_eq (document.perm same)]

end GraphBridge.Operation.Source

namespace GraphBridge.Compile.Compiler

open Operation Operation.Source

/-- A text and another one with the same definitions in another order denote the same document, or
fail alike, whatever the order in which operations and fragments are met; so they compile alike,
with the name of an operation and without. -/
theorem compile_reorder {source other : String} {definitions others : List Definition}
    {rest rest' : List Char}
    (written : Source.definitions source.toList = some (definitions, rest))
    (written' : Source.definitions other.toList = some (others, rest'))
    (document : IsDocument definitions) (same : others.Perm definitions) (values : Table Json) :
    (∀ met, Meets definitions met →
        documentOf met values = Document.ofText source values)
      ∧ Document.ofText other values = Document.ofText source values
      ∧ ∀ (c : Compiler) (name? : Option String),
          c.compile other values name? = c.compile source values name? := by
  have first : Document.ofText source values = Document.ofDefinitions definitions values := by
    unfold Document.ofText
    rw [written]
  have second : Document.ofText other values = Document.ofDefinitions others values := by
    unfold Document.ofText
    rw [written']
  have texts : Document.ofText other values = Document.ofText source values := by
    rw [first, second, document.ofDefinitions_perm same]
  refine ⟨fun met meets => ?_, texts, fun c name? => ?_⟩
  · rw [first, meets.documentOf_eq document]
  · unfold compile
    rw [texts]

/-- Two operations before the fragments that they spread. -/
def operationsFirst : String :=
  "query One\x7bperson\x7b...Whole\x7d\x7dquery All\x7bpeople\x7b...Brief\x7d\x7d"
    ++ "fragment Whole on Person\x7bname age\x7dfragment Brief on Person\x7bname\x7d"

/-- The same definitions, the last of them first. -/
def fragmentsFirst : String :=
  "fragment Brief on Person\x7bname\x7dfragment Whole on Person\x7bname age\x7d"
    ++ "query All\x7bpeople\x7b...Brief\x7d\x7dquery One\x7bperson\x7b...Whole\x7d\x7d"

set_option maxRecDepth 4000 in
theorem compile_reorder_people :
    ∃ definitions others : List Definition,
      Source.definitions operationsFirst.toList = some (definitions, [])
      ∧ Source.definitions fragmentsFirst.toList = some (others, [])
      ∧ IsDocument definitions ∧ others.Perm definitions
      ∧ ∀ values : Table Json,
          (∀ met, Meets definitions met →
              documentOf met values = Document.ofText operationsFirst values)
            ∧ Document.ofText fragmentsFirst values = Document.ofText operationsFirst values
            ∧ ∀ (c : Compiler) (name? : Option String),
                c.compile fragmentsFirst values name? = c.compile operationsFirst values name? := by
  let name := Source.Selection.field none "name" [] [] []
  let age := Source.Selection.field none "age" [] [] []
  let one : Definition := .operation ⟨.query, some "One", [], [],
    [.field none "person" [] [] [.spread "Whole" []]]⟩
  let all : Definition := .operation ⟨.query, some "All", [], [],
    [.field none "people" [] [] [.spread "Brief" []]]⟩
  let whole : Definition := .fragment ⟨"Whole", "Person", [], [name, age]⟩
  let brief : Definition := .fragment ⟨"Brief", "Person", [], [name]⟩
  have written :
      Source.definitions operationsFirst.toList = some ([one, all, whole, brief], []) := by
    cbv
  have written' :
      Source.definitions fragmentsFirst.toList = some ([brief, whole, all, one], []) := by
    cbv
  have document : IsDocument [one, all, whole, brief] :=
    ⟨by decide, by decide, List.cons_ne_nil _ _⟩
  have same : [brief, whole, all, one].Perm [one, all, whole, brief] :=
    List.reverse_perm [one, all, whole, brief]
  exact ⟨_, _, written, written', document, same, compile_reorder written written' document same⟩

end GraphBridge.Compile.Compiler
