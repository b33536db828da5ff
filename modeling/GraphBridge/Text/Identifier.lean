import GraphBridge.Text.Numeric

/-!
# Bare identifiers

A bare identifier of a graph statement starts with a letter or an underscore and goes on with
letters, digits, number signs and underscores.
-/

namespace GraphBridge.Text

/-- A character that may open a bare identifier. -/
def isIdentifierStart (c : Char) : Bool :=
  isAlphabetic c || c == '_'

/-- A character that may follow in a bare identifier. -/
def isIdentifierPart (c : Char) : Bool :=
  isAlphanumeric c || c == '_'

/-- Whether a list of characters spells a bare identifier. -/
def spellsIdentifier : List Char → Bool
  | [] => false
  | c :: rest => isIdentifierStart c && rest.all isIdentifierPart

/-- Whether a text is usable as a bare identifier. -/
def isIdentifier (text : String) : Bool :=
  spellsIdentifier text.toList

/-- Every character that may open an identifier may also follow in one. -/
theorem isIdentifierPart_of_start {c : Char} (h : isIdentifierStart c = true) :
    isIdentifierPart c = true := by
  simp only [isIdentifierStart, isIdentifierPart, isAlphanumeric, Bool.or_eq_true] at h ⊢
  rcases h with h | h
  · exact .inl (.inl h)
  · exact .inr h

/-- A bare identifier is a character that may open one and others that may follow. -/
theorem exists_cons_of_isIdentifier {text : String} (identifier : isIdentifier text = true) :
    ∃ c rest, text.toList = c :: rest ∧ isIdentifierStart c = true
      ∧ rest.all isIdentifierPart = true := by
  unfold isIdentifier at identifier
  cases shape : text.toList with
  | nil =>
      rw [shape] at identifier
      cases identifier
  | cons c rest =>
      rw [shape, spellsIdentifier, Bool.and_eq_true] at identifier
      exact ⟨c, rest, rfl, identifier⟩

theorem all_isIdentifierPart {text : String} (identifier : isIdentifier text = true) :
    text.toList.all isIdentifierPart = true := by
  obtain ⟨c, rest, shape, start, parts⟩ := exists_cons_of_isIdentifier identifier
  rw [shape, List.all_cons, isIdentifierPart_of_start start, parts, Bool.true_and]

end GraphBridge.Text
