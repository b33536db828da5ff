import GraphBridge.Proofs.Spelling
import GraphBridge.Statement.Text

/-!
# Statements are spelled text

The clauses, projections and expressions of a statement are spelled text as long as the names in
them are identifiers, and the parameters in a clause are those of the references it writes, in
order. Each lemma puts one part of a statement in front of a spelled text.
-/

namespace GraphBridge.Statement

open Query Text

variable {s : Start} {rest : List Char} {parameters : List String}

/-! ## Words and lists of parts -/

/-- The words that statements are made of. -/
def keywords : List String :=
  ["AND", "AS", "CREATE", "DELETE", "DETACH", "ID", "LIMIT", "MATCH", "OPTIONAL", "RETURN", "SET",
    "WHERE", "WITH", "collect", "true"]

theorem isIdentifier_of_mem_keywords {word : String} (known : word ∈ keywords) :
    isIdentifier word = true := by
  have each : ∀ word ∈ keywords, isIdentifier word = true := by decide +kernel
  exact each word known

/-- A keyword and a blank in front of a text that does not start with one. -/
theorem spelled_keyword (keyword : String) (known : keyword ∈ keywords) (apart : s ≠ .blank)
    (later : Spelled s rest parameters) :
    Spelled .word (keyword.toList ++ ' ' :: rest) parameters :=
  Spelled.word keyword (isIdentifier_of_mem_keywords known) rfl
    (Spelled.blank ' ' (.inl rfl) apart later)

theorem endsWord_of_endsNumber {s : Start} (apart : s.endsNumber = true) : s.endsWord = true := by
  cases s <;> first | rfl | cases apart

/-- A text that starts with a word and may stand in front of all that ends a number, with the
parameters in it. -/
def Phrase (text : String) (names : List String) : Prop :=
  ∀ (s : Start) (rest : List Char) (parameters : List String), s.endsNumber = true →
    Spelled s rest parameters → Spelled .word (text.toList ++ rest) (names ++ parameters)

/-- A separator may stand between a part and one that starts with a word. -/
def Separates (separator : String) : Prop :=
  ∀ rest parameters, Spelled .word rest parameters →
    ∃ s : Start, s.endsNumber = true ∧ Spelled s (separator.toList ++ rest) parameters

theorem separates_comma : Separates ", " := by
  intro rest parameters later
  have gap := Spelled.blank ' ' (.inl rfl) (by decide) later
  have comma := Spelled.mark ',' (by decide) gap
  exact ⟨.mark, rfl, by simpa using comma⟩

theorem separates_and : Separates " AND " := by
  intro rest parameters later
  have word := spelled_keyword "AND" (by decide) (by decide) later
  have front := Spelled.blank ' ' (.inl rfl) (by decide) word
  exact ⟨.blank, rfl, by simpa using front⟩

theorem separates_line : Separates "\n" := by
  intro rest parameters later
  have gap := Spelled.blank '\n' (.inr rfl) (by decide) later
  exact ⟨.blank, rfl, by simpa using gap⟩

/-- Parts that start with a word, with separators between them. -/
theorem spelled_intercalate {α : Type} {separator : String} (separates : Separates separator)
    {items : List α} (text : α → String) (names : α → List String) (nonempty : items ≠ [])
    (each : ∀ a ∈ items, Phrase (text a) (names a)) (apart : s.endsNumber = true)
    (later : Spelled s rest parameters) :
    Spelled .word ((separator.intercalate (items.map text)).toList ++ rest)
      (items.flatMap names ++ parameters) := by
  induction items with
  | nil => exact absurd rfl nonempty
  | cons a items ih =>
      cases items with
      | nil =>
          have last := each a List.mem_cons_self s rest parameters apart later
          simpa using last
      | cons b items =>
          have more := ih (by simp) (fun c mem => each c (List.mem_cons_of_mem _ mem))
          obtain ⟨t, ends, joined⟩ := separates _ _ more
          have first := each a List.mem_cons_self t _ _ ends joined
          simpa [String.intercalate_cons_cons] using first

/-! ## References and patterns -/

/-- An identifier with more parts of identifiers behind it is one. -/
theorem isIdentifier_append {name part : String} (isName : isIdentifier name = true)
    (parts : part.toList.all isIdentifierPart = true) : isIdentifier (name ++ part) = true := by
  obtain ⟨c, rest, shape, start, others⟩ := exists_cons_of_isIdentifier isName
  rw [isIdentifier, String.toList_append, shape, List.cons_append, spellsIdentifier,
    List.all_append, start, others, parts]
  rfl

/-- A text that may stand between back quotes. -/
def Quotable (text : String) : Prop :=
  '`' ∉ text.toList

theorem Quotable.of_isIdentifier {text : String} (identifier : isIdentifier text = true) :
    Quotable text := by
  intro mem
  have part := List.all_eq_true.1 (all_isIdentifierPart identifier) '`' mem
  exact ne_of_mem_punctuation part (by decide) rfl

namespace Reference

/-- The parameter and the property of a reference are identifiers. -/
structure IsNamed (r : Reference) : Prop where
  parameter : isIdentifier r.parameter = true
  property : isIdentifier r.supplied.property = true

variable {r : Reference}

theorem spelled_text (named : r.IsNamed) (apart : s.endsWord = true)
    (later : Spelled s rest parameters) :
    Spelled .sign (r.text.toList ++ rest) (r.parameter :: parameters) := by
  have reference := Spelled.parameter r.parameter named.parameter apart later
  simpa [text] using reference

theorem spelled_entryText (named : r.IsNamed) (apart : s.endsNumber = true)
    (later : Spelled s rest parameters) :
    Spelled .word (r.entryText.toList ++ rest) (r.parameter :: parameters) := by
  have reference := spelled_text named (endsWord_of_endsNumber apart) later
  have gap := Spelled.blank ' ' (.inl rfl) (by decide) reference
  have colon := Spelled.mark ':' (by decide) gap
  have property := Spelled.word r.supplied.property named.property rfl colon
  simpa [entryText] using property

/-- A property map in front of a mark. -/
theorem spelled_propertyMap {properties : List Reference} (named : ∀ r ∈ properties, r.IsNamed)
    (nonempty : properties ≠ []) (later : Spelled s rest parameters) :
    Spelled .mark ((propertyMap properties).toList ++ rest)
      (properties.map (·.parameter) ++ parameters) := by
  have closing := Spelled.mark '\x7d' (by decide) later
  have entries := spelled_intercalate separates_comma entryText (fun r => [r.parameter]) nonempty
    (fun r mem _ _ _ apart later => spelled_entryText (named r mem) apart later) rfl closing
  have opening := Spelled.mark '\x7b' (by decide) entries
  simpa [propertyMap, nonempty, inBraces, List.map_eq_flatMap] using opening

theorem spelled_identityText {name : String} (isName : isIdentifier name = true)
    (named : r.IsNamed) (apart : s.endsNumber = true) (later : Spelled s rest parameters) :
    Spelled .word ((r.identityText name).toList ++ rest) (r.parameter :: parameters) := by
  have reference := spelled_text named (endsWord_of_endsNumber apart) later
  have gap := Spelled.blank ' ' (.inl rfl) (by decide) reference
  have equals := Spelled.mark '=' (by decide) gap
  have front := Spelled.blank ' ' (.inl rfl) (by decide) equals
  have closing := Spelled.mark ')' (by decide) front
  have variable_ := Spelled.word name isName rfl closing
  have opening := Spelled.mark '(' (by decide) variable_
  have function := Spelled.word "ID" (isIdentifier_of_mem_keywords (by decide)) rfl opening
  simpa [identityText] using function

theorem spelled_assignmentText {name : String} (isName : isIdentifier name = true)
    (named : r.IsNamed) (apart : s.endsNumber = true) (later : Spelled s rest parameters) :
    Spelled .word ((r.assignmentText name).toList ++ rest) (r.parameter :: parameters) := by
  have reference := spelled_text named (endsWord_of_endsNumber apart) later
  have gap := Spelled.blank ' ' (.inl rfl) (by decide) reference
  have equals := Spelled.mark '=' (by decide) gap
  have front := Spelled.blank ' ' (.inl rfl) (by decide) equals
  have property := Spelled.backQuoted r.supplied.property
    (Quotable.of_isIdentifier named.property) front
  have point := Spelled.point property
  have variable_ := Spelled.word name isName rfl point
  simpa [assignmentText] using variable_

end Reference

/-- A label between a colon and a text that may follow it. -/
theorem spelled_label {name label : String} (isName : isIdentifier name = true)
    (quotable : Quotable label) (later : Spelled s rest parameters) :
    Spelled .word (name.toList ++ ':' :: '`' :: (label.toList ++ '`' :: rest)) parameters := by
  have quoted := Spelled.backQuoted label quotable later
  have colon := Spelled.mark ':' (by decide) quoted
  exact Spelled.word name isName rfl colon

namespace NodePattern

/-- The names in a pattern are identifiers. -/
structure IsNamed (n : NodePattern) : Prop where
  name : isIdentifier n.name = true
  label : Quotable n.label
  references : ∀ r ∈ n.filter.references, r.IsNamed

variable {n : NodePattern}

/-- The identity conditions behind a pattern. -/
theorem spelled_identityText (named : n.IsNamed) (apart : s.endsNumber = true)
    (later : Spelled s rest parameters) :
    ∃ t : Start, t.endsNumber = true ∧ Spelled t (n.identityText.toList ++ rest)
      (n.filter.identities.map (·.parameter) ++ parameters) := by
  cases shape : n.filter.identities with
  | nil => exact ⟨s, apart, by simpa [identityText, Filter.identityText, shape] using later⟩
  | cons r others =>
      have conditions := spelled_intercalate separates_and (Reference.identityText n.name)
        (fun r => [r.parameter]) (shape ▸ List.cons_ne_nil r others : n.filter.identities ≠ [])
        (fun r mem _ _ _ apart later => Reference.spelled_identityText named.name
          (named.references r (List.mem_append_right _ mem)) apart later) apart later
      have word := spelled_keyword "WHERE" (by decide) (by decide) conditions
      have front := Spelled.blank ' ' (.inl rfl) (by decide) word
      refine ⟨.blank, rfl, ?_⟩
      simpa [identityText, Filter.identityText, shape, List.map_eq_flatMap] using front

/-- A pattern in front of a text. -/
theorem spelled_text (named : n.IsNamed) (later : Spelled s rest parameters) :
    Spelled .mark (n.text.toList ++ rest)
      (n.filter.properties.map (·.parameter) ++ parameters) := by
  have closing := Spelled.mark ')' (by decide) later
  have inner : Spelled .mark ((Reference.propertyMap n.filter.properties).toList ++ ')' :: rest)
      (n.filter.properties.map (·.parameter) ++ parameters) := by
    cases shape : n.filter.properties with
    | nil => simpa [Reference.propertyMap] using closing
    | cons r others =>
        apply Reference.spelled_propertyMap _ (List.cons_ne_nil r others) closing
        intro r mem
        exact named.references r (List.mem_append_left _ (shape ▸ mem))
  have labelled := spelled_label named.name named.label inner
  have opening := Spelled.mark '(' (by decide) labelled
  simpa [text, Filter.propertyText] using opening

end NodePattern

namespace EdgePattern

/-- The names in an edge pattern are identifiers. -/
structure IsNamed (e : EdgePattern) : Prop where
  name : isIdentifier e.name = true
  edgeType : isIdentifier e.edgeType = true

theorem spelled_text {e : EdgePattern} (named : e.IsNamed) (later : Spelled s rest parameters) :
    Spelled .mark (e.text.toList ++ rest) parameters := by
  have inner {t : Start} {rest : List Char} (later : Spelled t rest parameters) :
      Spelled .mark ('[' :: (e.name.toList ++ ':' :: (e.edgeType.toList ++ ']' :: rest)))
        parameters := by
    have closing := Spelled.mark ']' (by decide) later
    have type := Spelled.word e.edgeType named.edgeType rfl closing
    have colon := Spelled.mark ':' (by decide) type
    have name := Spelled.word e.name named.name rfl colon
    exact Spelled.mark '[' (by decide) name
  unfold text
  cases e.direction with
  | outgoing =>
      have tip := Spelled.mark '>' (by decide) later
      have bar := Spelled.mark '-' (by decide) tip
      have front := Spelled.mark '-' (by decide) (inner bar)
      simpa using front
  | incoming =>
      have bar := Spelled.mark '-' (by decide) later
      have front := Spelled.mark '-' (by decide) (inner bar)
      have tip := Spelled.mark '<' (by decide) front
      simpa using tip

end EdgePattern

namespace EdgeKey

theorem isIdentifier_from {name : String} (isName : isIdentifier name = true) :
    isIdentifier (name ++ "_from") = true :=
  isIdentifier_append isName (by decide +kernel)

theorem isIdentifier_to {name : String} (isName : isIdentifier name = true) :
    isIdentifier (name ++ "_to") = true :=
  isIdentifier_append isName (by decide +kernel)

theorem spelled_text {edge : String} {key : EdgeKey} (isName : isIdentifier edge = true)
    (named : ∀ r ∈ key.references, r.IsNamed) (apart : s.endsNumber = true)
    (later : Spelled s rest parameters) :
    Spelled .word ((key.text edge).toList ++ rest)
      (key.references.map (·.parameter) ++ parameters) := by
  cases key with
  | own id => exact Reference.spelled_identityText isName (named id List.mem_cons_self) apart later
  | ends source target =>
      have second := Reference.spelled_identityText (isIdentifier_to isName)
        (named target (List.mem_cons_of_mem _ List.mem_cons_self)) apart later
      obtain ⟨t, ends, joined⟩ := separates_and _ _ second
      have first := Reference.spelled_identityText (isIdentifier_from isName)
        (named source List.mem_cons_self) ends joined
      simpa [text, references] using first

end EdgeKey

/-! ## Clauses -/

namespace Clause

/-- The names in a clause are identifiers, and no query text is taken over. -/
def IsNamed : Clause → Prop
  | .find node => node.IsNamed
  | .limit name _ | .deleteNode name | .deleteEdge name | .keep name => isIdentifier name = true
  | .reach parent edge node => isIdentifier parent = true ∧ edge.IsNamed ∧ node.IsNamed
  | .createNode name label properties | .createEdge name label properties =>
      isIdentifier name = true ∧ Quotable label ∧ ∀ r ∈ properties, r.IsNamed
  | .findNode name id => isIdentifier name = true ∧ id.IsNamed
  | .set name properties =>
      isIdentifier name = true ∧ properties ≠ [] ∧ ∀ r ∈ properties, r.IsNamed
  | .findEnds edge source target => isIdentifier edge = true ∧ source.IsNamed ∧ target.IsNamed
  | .findEdge name label key =>
      isIdentifier name = true ∧ Quotable label ∧ ∀ r ∈ key.references, r.IsNamed
  | .inlined .. | .aggregate .. | .subquery .. => False

/-- The variable of an end of an edge in round brackets. -/
theorem spelled_end {name part : String} (isName : isIdentifier (name ++ part) = true)
    (later : Spelled s rest parameters) :
    Spelled .mark ('(' :: (name.toList ++ (part.toList ++ ')' :: rest))) parameters := by
  have closing := Spelled.mark ')' (by decide) later
  have variable_ := Spelled.word (name ++ part) isName rfl closing
  have opening := Spelled.mark '(' (by decide) variable_
  simpa using opening

theorem spelled_find {node : NodePattern} (named : node.IsNamed) (apart : s.endsNumber = true)
    (later : Spelled s rest parameters) :
    Spelled .word ((Clause.find node).text.toList ++ rest)
      ((Clause.find node).references.map (·.parameter) ++ parameters) := by
  obtain ⟨t, -, conditions⟩ := NodePattern.spelled_identityText named apart later
  have pattern := NodePattern.spelled_text named conditions
  have found := spelled_keyword "MATCH" (by decide) (by decide) pattern
  show Spelled .word (("MATCH " ++ node.text ++ node.identityText).toList ++ rest)
    (node.filter.references.map (·.parameter) ++ parameters)
  simpa [Filter.references] using found

theorem spelled_reach {parent : String} {edge : EdgePattern} {node : NodePattern}
    (isName : isIdentifier parent = true) (isEdge : edge.IsNamed) (named : node.IsNamed)
    (apart : s.endsNumber = true) (later : Spelled s rest parameters) :
    Spelled .word ((Clause.reach parent edge node).text.toList ++ rest)
      ((Clause.reach parent edge node).references.map (·.parameter) ++ parameters) := by
  obtain ⟨t, -, conditions⟩ := NodePattern.spelled_identityText named apart later
  have pattern := NodePattern.spelled_text named conditions
  have arrow := EdgePattern.spelled_text isEdge pattern
  have closing := Spelled.mark ')' (by decide) arrow
  have variable_ := Spelled.word parent isName rfl closing
  have opening := Spelled.mark '(' (by decide) variable_
  have found := spelled_keyword "MATCH" (by decide) (by decide) opening
  have isOptional := spelled_keyword "OPTIONAL" (by decide) (by decide) found
  show Spelled .word (("OPTIONAL MATCH (" ++ parent ++ ")" ++ edge.text ++ node.text
    ++ node.identityText).toList ++ rest) (node.filter.references.map (·.parameter) ++ parameters)
  simpa [Filter.references] using isOptional

theorem spelled_createNode {name label : String} {properties : List Reference}
    (isName : isIdentifier name = true) (quotable : Quotable label)
    (named : ∀ r ∈ properties, r.IsNamed) (later : Spelled s rest parameters) :
    Spelled .word ((Clause.createNode name label properties).text.toList ++ rest)
      ((Clause.createNode name label properties).references.map (·.parameter) ++ parameters) := by
  have closing := Spelled.mark ')' (by decide) later
  have created {t : Start} {inner : List Char} {all : List String} (later : Spelled t inner all) :=
    spelled_keyword "CREATE" (by decide) (by decide)
      (Spelled.mark '(' (by decide) (spelled_label isName quotable later))
  show Spelled .word (("CREATE (" ++ name ++ ":`" ++ label ++ "`"
    ++ (if properties.isEmpty then "" else " " ++ Reference.propertyMap properties)
    ++ ")").toList ++ rest) (properties.map (·.parameter) ++ parameters)
  cases shape : properties with
  | nil => simpa using created closing
  | cons r others =>
      have map := Reference.spelled_propertyMap (shape ▸ named) (List.cons_ne_nil r others) closing
      have gap := Spelled.blank ' ' (.inl rfl) (by decide) map
      simpa using created gap

theorem spelled_findNode {name : String} {id : Reference} (isName : isIdentifier name = true)
    (named : id.IsNamed) (apart : s.endsNumber = true) (later : Spelled s rest parameters) :
    Spelled .word ((Clause.findNode name id).text.toList ++ rest)
      ((Clause.findNode name id).references.map (·.parameter) ++ parameters) := by
  have condition := Reference.spelled_identityText isName named apart later
  have word := spelled_keyword "WHERE" (by decide) (by decide)
    condition
  have gap := Spelled.blank ' ' (.inl rfl) (by decide) word
  have closing := Spelled.mark ')' (by decide) gap
  have variable_ := Spelled.word name isName rfl closing
  have opening := Spelled.mark '(' (by decide) variable_
  have found := spelled_keyword "MATCH" (by decide) (by decide) opening
  show Spelled .word (("MATCH (" ++ name ++ ") WHERE " ++ id.identityText name).toList ++ rest)
    (id.parameter :: parameters)
  simpa using found

theorem spelled_set {name : String} {properties : List Reference}
    (isName : isIdentifier name = true) (nonempty : properties ≠ [])
    (named : ∀ r ∈ properties, r.IsNamed) (apart : s.endsNumber = true)
    (later : Spelled s rest parameters) :
    Spelled .word ((Clause.set name properties).text.toList ++ rest)
      ((Clause.set name properties).references.map (·.parameter) ++ parameters) := by
  have assignments := spelled_intercalate separates_comma (Reference.assignmentText name)
    (fun r => [r.parameter]) nonempty (fun r mem _ _ _ apart later =>
      Reference.spelled_assignmentText isName (named r mem) apart later) apart later
  have word := spelled_keyword "SET" (by decide) (by decide)
    assignments
  show Spelled .word (("SET " ++ ", ".intercalate (properties.map
    (Reference.assignmentText name))).toList ++ rest) (properties.map (·.parameter) ++ parameters)
  simpa [List.map_eq_flatMap] using word

theorem spelled_findEnds {edge : String} {source target : Reference}
    (isName : isIdentifier edge = true) (isSource : source.IsNamed) (isTarget : target.IsNamed)
    (apart : s.endsNumber = true) (later : Spelled s rest parameters) :
    Spelled .word ((Clause.findEnds edge source target).text.toList ++ rest)
      ((Clause.findEnds edge source target).references.map (·.parameter) ++ parameters) := by
  have named : ∀ r ∈ (EdgeKey.ends source target).references, r.IsNamed := by
    intro r mem
    simp only [EdgeKey.references, List.mem_cons, List.not_mem_nil, or_false] at mem
    rcases mem with rfl | rfl
    · exact isSource
    · exact isTarget
  have condition := EdgeKey.spelled_text isName named apart later
  have word := spelled_keyword "WHERE" (by decide) (by decide)
    condition
  have gap := Spelled.blank ' ' (.inl rfl) (by decide) word
  have second := spelled_end (EdgeKey.isIdentifier_to isName) gap
  have between := Spelled.blank ' ' (.inl rfl) (by decide) second
  have comma := Spelled.mark ',' (by decide) between
  have first := spelled_end (EdgeKey.isIdentifier_from isName) comma
  have found := spelled_keyword "MATCH" (by decide) (by decide) first
  show Spelled .word (("MATCH (" ++ edge ++ "_from), (" ++ edge ++ "_to) WHERE "
    ++ (EdgeKey.ends source target).text edge).toList ++ rest)
    ((EdgeKey.ends source target).references.map (·.parameter) ++ parameters)
  simpa using found

/-- The pattern of a written edge between its ends, with what stands behind its label. -/
theorem spelled_edge {name label : String} (isName : isIdentifier name = true)
    (quotable : Quotable label) (inner : List Char) {all : List String} {t : Start}
    (closes : ∀ tail, Spelled .mark tail parameters → Spelled t (inner ++ tail) all)
    (later : Spelled s rest parameters) :
    Spelled .mark ('(' :: (name.toList ++ ("_from".toList ++ ')' :: '-' :: '['
      :: (name.toList ++ ':' :: '`' :: (label.toList ++ '`' :: (inner ++ ']' :: '-' :: '>'
      :: '(' :: (name.toList ++ ("_to".toList ++ ')' :: rest)))))))) all := by
  have second := spelled_end (EdgeKey.isIdentifier_to isName) later
  have tip := Spelled.mark '>' (by decide) second
  have bar := Spelled.mark '-' (by decide) tip
  have closing := Spelled.mark ']' (by decide) bar
  have labelled := spelled_label isName quotable (closes _ closing)
  have opening := Spelled.mark '[' (by decide) labelled
  have front := Spelled.mark '-' (by decide) opening
  exact spelled_end (EdgeKey.isIdentifier_from isName) front

theorem spelled_createEdge {name label : String} {properties : List Reference}
    (isName : isIdentifier name = true) (quotable : Quotable label)
    (named : ∀ r ∈ properties, r.IsNamed) (later : Spelled s rest parameters) :
    Spelled .word ((Clause.createEdge name label properties).text.toList ++ rest)
      ((Clause.createEdge name label properties).references.map (·.parameter) ++ parameters) := by
  have closes : ∀ tail, Spelled .mark tail parameters →
      Spelled .mark ((Reference.propertyMap properties).toList ++ tail)
        (properties.map (·.parameter) ++ parameters) := by
    intro tail later
    cases shape : properties with
    | nil => simpa [Reference.propertyMap] using later
    | cons r others =>
        exact Reference.spelled_propertyMap (shape ▸ named) (List.cons_ne_nil r others) later
  have pattern := spelled_edge isName quotable _ closes later
  have created := spelled_keyword "CREATE" (by decide) (by decide)
    pattern
  show Spelled .word (("CREATE (" ++ name ++ "_from)-[" ++ name ++ ":`" ++ label ++ "`"
    ++ Reference.propertyMap properties ++ "]->(" ++ name ++ "_to)").toList ++ rest)
    (properties.map (·.parameter) ++ parameters)
  simpa using created

theorem spelled_findEdge {name label : String} {key : EdgeKey} (isName : isIdentifier name = true)
    (quotable : Quotable label) (named : ∀ r ∈ key.references, r.IsNamed)
    (apart : s.endsNumber = true) (later : Spelled s rest parameters) :
    Spelled .word ((Clause.findEdge name label key).text.toList ++ rest)
      ((Clause.findEdge name label key).references.map (·.parameter) ++ parameters) := by
  have condition := EdgeKey.spelled_text isName named apart later
  have word := spelled_keyword "WHERE" (by decide) (by decide)
    condition
  have gap := Spelled.blank ' ' (.inl rfl) (by decide) word
  have pattern := spelled_edge isName quotable [] (fun _ later => later) gap
  have found := spelled_keyword "MATCH" (by decide) (by decide) pattern
  show Spelled .word (("MATCH (" ++ name ++ "_from)-[" ++ name ++ ":`" ++ label ++ "`]->(" ++ name
    ++ "_to) WHERE " ++ key.text name).toList ++ rest)
    (key.references.map (·.parameter) ++ parameters)
  simpa using found

/-- A clause is a phrase with the parameters of its references. -/
theorem phrase_text {clause : Clause} (named : clause.IsNamed) :
    Phrase clause.text (clause.references.map (·.parameter)) := by
  intro s rest parameters apart later
  have variable_ {name : String} (isName : isIdentifier name = true) :=
    Spelled.word name isName (endsWord_of_endsNumber apart) later
  cases clause with
  | find node => exact spelled_find named apart later
  | limit name rows =>
      have number := Spelled.number rows apart later
      have word := spelled_keyword "LIMIT" (by decide) (by decide)
        number
      have gap := Spelled.blank ' ' (.inl rfl) (by decide) word
      have kept := spelled_keyword "WITH" (by decide) (by decide)
        (Spelled.word name named rfl gap)
      show Spelled .word (("WITH " ++ name ++ " LIMIT " ++ toString rows).toList ++ rest) parameters
      simpa using kept
  | reach parent edge node => exact spelled_reach named.1 named.2.1 named.2.2 apart later
  | inlined isOptional body => cases named
  | aggregate scope value name => cases named
  | subquery path body value name => cases named
  | createNode name label properties => exact spelled_createNode named.1 named.2.1 named.2.2 later
  | findNode name id => exact spelled_findNode named.1 named.2 apart later
  | set name properties => exact spelled_set named.1 named.2.1 named.2.2 apart later
  | findEnds edge source target => exact spelled_findEnds named.1 named.2.1 named.2.2 apart later
  | createEdge name label properties => exact spelled_createEdge named.1 named.2.1 named.2.2 later
  | findEdge name label key => exact spelled_findEdge named.1 named.2.1 named.2.2 apart later
  | deleteNode name =>
      have word := spelled_keyword "DELETE" (by decide) (by decide)
        (variable_ named)
      have front := spelled_keyword "DETACH" (by decide) (by decide)
        word
      show Spelled .word (("DETACH DELETE " ++ name).toList ++ rest) parameters
      simpa using front
  | deleteEdge name =>
      have word := spelled_keyword "DELETE" (by decide) (by decide)
        (variable_ named)
      show Spelled .word (("DELETE " ++ name).toList ++ rest) parameters
      simpa using word
  | keep name =>
      have word := spelled_keyword "WITH" (by decide) (by decide)
        (variable_ named)
      show Spelled .word (("WITH " ++ name).toList ++ rest) parameters
      simpa using word

end Clause

/-! ## Projections -/

namespace Expression

/-- The names in an expression are identifiers, and no query text is taken over. -/
def IsNamed : Expression → Prop
  | .typeName _ | .truth => True
  | .identity name | .named name => isIdentifier name = true
  | .property name stored => isIdentifier name = true ∧ Quotable stored
  | .inlined _ => False

theorem spelled_text {expression : Expression} (named : expression.IsNamed)
    (apart : s.endsNumber = true) (later : Spelled s rest parameters) :
    ∃ t : Start, t ≠ .blank ∧ Spelled t (expression.text.toList ++ rest) parameters := by
  have endsWord := endsWord_of_endsNumber apart
  cases expression with
  | typeName name => exact ⟨.sign, by decide, Spelled.literal name later⟩
  | identity name =>
      have closing := Spelled.mark ')' (by decide) later
      have opening := Spelled.mark '(' (by decide) (Spelled.word name named rfl closing)
      have function := Spelled.word "ID" (isIdentifier_of_mem_keywords (by decide)) rfl opening
      exact ⟨.word, by decide, by simpa [text] using function⟩
  | property name stored =>
      have quoted := Spelled.backQuoted stored named.2 later
      have variable_ := Spelled.word name named.1 rfl (Spelled.point quoted)
      exact ⟨.word, by decide, by simpa [text] using variable_⟩
  | named name => exact ⟨.word, by decide, Spelled.word name named endsWord later⟩
  | inlined value => cases named
  | truth =>
      exact ⟨.word, by decide,
        Spelled.word "true" (isIdentifier_of_mem_keywords (by decide)) endsWord later⟩

end Expression

namespace Frame

/-- The names in a frame are identifiers. -/
structure IsNamed (f : Frame) : Prop where
  carryOver : isIdentifier f.carryOver = true
  entries : ∀ entry ∈ f.entries, isIdentifier entry.1 = true ∧ entry.2.IsNamed

variable {f : Frame}

theorem phrase_entryText {entry : String × Expression} (isName : isIdentifier entry.1 = true)
    (named : entry.2.IsNamed) : Phrase (entryText entry) [] := by
  intro s rest parameters apart later
  obtain ⟨t, start, value⟩ := Expression.spelled_text named apart later
  have gap := Spelled.blank ' ' (.inl rfl) start value
  have colon := Spelled.mark ':' (by decide) gap
  have key := Spelled.word entry.1 isName rfl colon
  simpa [entryText] using key

theorem spelled_body (named : f.IsNamed) (later : Spelled s rest parameters) :
    Spelled .mark (f.body.toList ++ rest) parameters := by
  have closing := Spelled.mark '\x7d' (by decide) later
  cases shape : f.entries with
  | nil =>
      have opening := Spelled.mark '\x7b' (by decide) closing
      simpa [body, inBraces, shape] using opening
  | cons entry others =>
      have entries := spelled_intercalate separates_comma entryText (fun _ => [])
        (shape ▸ List.cons_ne_nil entry others : f.entries ≠ [])
        (fun entry mem => phrase_entryText (named.entries entry mem).1 (named.entries entry mem).2)
        rfl closing
      rw [List.flatMap_eq_nil_iff.2 (fun _ _ => rfl), List.nil_append] at entries
      have opening := Spelled.mark '\x7b' (by decide) entries
      simpa [body, inBraces] using opening

theorem spelled_collected (named : f.IsNamed) (limit? : Option Nat)
    (later : Spelled s rest parameters) :
    Spelled .word ((f.collected limit?).toList ++ rest) parameters := by
  have collect {t : Start} {inner : List Char} (later : Spelled t inner parameters) :=
    Spelled.word "collect" (isIdentifier_of_mem_keywords (by decide)) rfl
      (Spelled.mark '(' (by decide) (spelled_body named (Spelled.mark ')' (by decide) later)))
  cases limit? with
  | none => simpa [collected] using collect later
  | some limit =>
      have closing := Spelled.mark ']' (by decide) later
      have number := Spelled.number limit rfl closing
      have points := Spelled.point (Spelled.point number)
      have opening := Spelled.mark '[' (by decide) points
      simpa [collected] using collect opening

/-- The value of an inner frame under its variable. -/
theorem spelled_closed (named : f.IsNamed) (apart : s.endsNumber = true)
    (later : Spelled s rest parameters) :
    ∃ t : Start, t ≠ .blank ∧ Spelled t (f.closed.toList ++ rest) parameters := by
  have variable_ := Spelled.word f.carryOver named.carryOver (endsWord_of_endsNumber apart) later
  have word := spelled_keyword "AS" (by decide) (by decide) variable_
  have gap := Spelled.blank ' ' (.inl rfl) (by decide) word
  unfold closed
  cases f.closing with
  | array limit? =>
      exact ⟨.word, by decide, by simpa using spelled_collected named limit? gap⟩
  | object => exact ⟨.mark, by decide, by simpa using spelled_body named gap⟩
  | root isArray limit? oneRow => exact ⟨.mark, by decide, by simpa using spelled_body named gap⟩

/-- The value of the outermost frame. -/
theorem spelled_returned (named : f.IsNamed) (apart : s.endsNumber = true)
    (later : Spelled s rest parameters) :
    ∃ t : Start, t ≠ .blank ∧ Spelled t (f.returned.toList ++ rest) parameters := by
  unfold returned
  split
  · rename_i limit? _ _
    exact ⟨.word, by decide, spelled_collected named limit? later⟩
  · have word := spelled_keyword "LIMIT" (by decide) (by decide) (Spelled.number 1 apart later)
    have gap := Spelled.blank ' ' (.inl rfl) (by decide) word
    have one : Nat.toDigits 10 1 = ['1'] := by decide
    exact ⟨.mark, by decide, by simpa [one] using spelled_body named gap⟩
  · exact ⟨.mark, by decide, spelled_body named later⟩

end Frame

/-! ## Statements -/

namespace Builder

/-- The names in a builder are identifiers, and there is a frame. -/
structure IsNamed (b : Builder) : Prop where
  clauses : ∀ clause ∈ b.clauses, clause.IsNamed
  frames : ∀ f ∈ b.frames, f.IsNamed
  threads : ∀ t ∈ b.threads, isIdentifier t.name = true

/-- The references in the clauses, in order. -/
def references (b : Builder) : List Reference :=
  b.clauses.flatMap Clause.references

variable {b : Builder}

theorem isIdentifier_of_mem_kept (named : b.IsNamed) {place : Nat} {name : String}
    (mem : name ∈ b.kept place) : isIdentifier name = true := by
  rw [kept, List.mem_eraseDups, List.mem_append] at mem
  rcases mem with carried | threaded
  · obtain ⟨f, known, rfl⟩ := List.mem_map.1 carried
    exact (named.frames f (List.mem_of_mem_take known)).carryOver
  · obtain ⟨t, known, rfl⟩ := List.mem_map.1 threaded
    exact named.threads t (List.mem_filter.1 known).1

/-- The `WITH` line of a frame behind the first. -/
theorem phrase_withLine (named : b.IsNamed) {place : Nat} {f : Frame} (isNamed : f.IsNamed)
    (inner : 0 < place) (framed : b.frames ≠ []) : Phrase (b.withLine place f) [] := by
  intro s rest parameters apart later
  obtain ⟨t, start, closed⟩ := Frame.spelled_closed isNamed apart later
  have gap := Spelled.blank ' ' (.inl rfl) start closed
  have comma := Spelled.mark ',' (by decide) gap
  have nonempty : b.kept place ≠ [] := by
    obtain ⟨first, frames, shape⟩ := List.exists_cons_of_ne_nil framed
    apply List.ne_nil_of_mem (a := first.carryOver)
    rw [kept, List.mem_eraseDups, shape, List.mem_append, List.mem_map]
    refine .inl ⟨first, ?_, rfl⟩
    obtain ⟨place, rfl⟩ := Nat.exists_eq_succ_of_ne_zero (Nat.pos_iff_ne_zero.1 inner)
    exact List.mem_cons_self
  have names := spelled_intercalate separates_comma id (fun _ => []) nonempty
    (fun name mem s rest parameters apart later => Spelled.word name
      (isIdentifier_of_mem_kept named mem) (endsWord_of_endsNumber apart) later) rfl comma
  rw [List.flatMap_eq_nil_iff.2 (fun _ _ => rfl), List.nil_append] at names
  have word := spelled_keyword "WITH" (by decide) (by decide) names
  simpa [withLine] using word

/-- Lines one after the other are spelled text. -/
theorem tokenize_lines {lines : List (String × List String)} (nonempty : lines ≠ [])
    (each : ∀ line ∈ lines, Phrase line.1 line.2) :
    ∃ tokens, tokenize ("\n".intercalate (lines.map Prod.fst)) = .ok tokens
      ∧ tokens.filterMap Token.parameter? = lines.flatMap Prod.snd := by
  have spelled := spelled_intercalate separates_line Prod.fst Prod.snd nonempty each rfl
    Spelled.nothing
  rw [List.append_nil, List.append_nil] at spelled
  exact spelled.tokens 0

/-- The clauses as lines with their parameters. -/
def clauseLines (b : Builder) : List (String × List String) :=
  b.clauses.map fun clause => (clause.text, clause.references.map (·.parameter))

theorem phrase_clauseLines (named : b.IsNamed) : ∀ line ∈ b.clauseLines, Phrase line.1 line.2 := by
  intro line mem
  obtain ⟨clause, known, rfl⟩ := List.mem_map.1 mem
  exact Clause.phrase_text (named.clauses clause known)

theorem flatMap_clauseLines (b : Builder) :
    b.clauseLines.flatMap Prod.snd = b.references.map (·.parameter) := by
  rw [clauseLines, references, List.flatMap_map, List.map_flatMap]

/-- Text that is a line without parameters. -/
theorem phrase_return {text : String}
    (spelled : ∀ (s : Start) rest parameters, s.endsNumber = true → Spelled s rest parameters →
      ∃ t : Start, t ≠ .blank ∧ Spelled t (text.toList ++ rest) parameters) :
    Phrase ("RETURN " ++ text) [] := by
  intro s rest parameters apart later
  obtain ⟨t, start, value⟩ := spelled s rest parameters apart later
  have word := spelled_keyword "RETURN" (by decide) start value
  simpa using word

theorem phrase_withLines (named : b.IsNamed) : ∀ line ∈ b.withLines, Phrase line [] := by
  intro line mem
  obtain ⟨⟨f, place⟩, known, rfl⟩ := List.mem_map.1 (List.mem_reverse.1 mem)
  obtain ⟨i, below, at_⟩ := List.mem_iff_getElem.1 known
  rw [List.getElem_drop, List.getElem_zipIdx, Prod.mk.injEq] at at_
  have isNamed : f.IsNamed := named.frames f (at_.1 ▸ List.getElem_mem _)
  refine phrase_withLine named isNamed (by omega) ?_
  intro none
  simp [none] at below

theorem phrase_returnLines (named : b.IsNamed) : ∀ line ∈ b.returnLines, Phrase line [] := by
  intro line mem
  rw [returnLines, Option.mem_toList, Option.map_eq_some_iff] at mem
  obtain ⟨f, first, rfl⟩ := mem
  exact phrase_return fun s rest parameters apart later =>
    Frame.spelled_returned (named.frames f (List.mem_of_head? first)) apart later

/-- A statement that projects frames is lexed, and its parameters are those of its references. -/
theorem tokenize_text (named : b.IsNamed) (framed : b.frames ≠ []) :
    ∃ tokens, tokenize b.text = .ok tokens
      ∧ tokens.filterMap Token.parameter? = b.references.map (·.parameter) := by
  let others : List (String × List String) :=
    (b.withLines ++ b.returnLines).map fun line => (line, [])
  have nonempty : b.clauseLines ++ others ≠ [] := by
    obtain ⟨first, frames, shape⟩ := List.exists_cons_of_ne_nil framed
    simp [others, returnLines, shape]
  have each : ∀ line ∈ b.clauseLines ++ others, Phrase line.1 line.2 := by
    intro line mem
    rcases List.mem_append.1 mem with clause | other
    · exact phrase_clauseLines named line clause
    · obtain ⟨text, known, rfl⟩ := List.mem_map.1 other
      rcases List.mem_append.1 known with inner | last
      · exact phrase_withLines named text inner
      · exact phrase_returnLines named text last
  have lines : (b.clauseLines ++ others).map Prod.fst = b.lines := by
    simp [others, clauseLines, Builder.lines, List.map_map, Function.comp_def]
  have names : (b.clauseLines ++ others).flatMap Prod.snd = b.references.map (·.parameter) := by
    rw [List.flatMap_append, flatMap_clauseLines, List.flatMap_map,
      List.flatMap_eq_nil_iff.2 (fun _ _ => rfl), List.append_nil]
  have lexed := tokenize_lines nonempty each
  rw [lines, names] at lexed
  exact lexed

/-- A statement that returns an expression is lexed, and its parameters are those of its
references. -/
theorem tokenize_textReturning (named : b.IsNamed) {expression : Expression}
    (isNamed : expression.IsNamed) :
    ∃ tokens, tokenize (b.textReturning expression) = .ok tokens
      ∧ tokens.filterMap Token.parameter? = b.references.map (·.parameter) := by
  have each : ∀ line ∈ b.clauseLines ++ [("RETURN " ++ expression.text, [])],
      Phrase line.1 line.2 := by
    intro line mem
    rcases List.mem_append.1 mem with clause | last
    · exact phrase_clauseLines named line clause
    · obtain rfl := List.mem_singleton.1 last
      exact phrase_return fun s rest parameters apart later =>
        Expression.spelled_text isNamed apart later
  have lines : (b.clauseLines ++ [("RETURN " ++ expression.text, [])]).map Prod.fst
      = b.clauses.map Clause.text ++ ["RETURN " ++ expression.text] := by
    simp [clauseLines, List.map_map, Function.comp_def]
  have names : (b.clauseLines ++ [("RETURN " ++ expression.text, [])]).flatMap Prod.snd
      = b.references.map (·.parameter) := by
    rw [List.flatMap_append, flatMap_clauseLines]
    simp
  have lexed := tokenize_lines (by simp) each
  rw [lines, names] at lexed
  exact lexed

end Builder

end GraphBridge.Statement
