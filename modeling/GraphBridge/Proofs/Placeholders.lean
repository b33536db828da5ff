import GraphBridge.Query.Placeholder

/-!
# Placeholders are filled at once

There is one way to cut a text at its placeholders: each of them takes the longest name that it can,
and between them there are no dollar signs. Substitution puts a value in the place of each of them
and leaves what is between them alone, so that no value is looked at, whatever is in it and whatever
stands next to it.
-/

namespace GraphBridge.Query

/-- A text that is cut at its placeholders: what stands in front of them, and the name of each one
with what stands behind it. -/
structure Template where
  lead : List Char
  parts : List (List Char × List Char)

namespace Template

variable {t : Template} {c : Char} {rest : List Char} {lookup : String → Option String}

/-- The text that is cut. -/
def text (t : Template) : List Char :=
  t.lead ++ t.parts.flatMap fun (name, behind) => '$' :: (name ++ behind)

/-- What stands for the placeholder of a name: the value of the name, unless that is empty or has
none. -/
def value (lookup : String → Option String) (name : List Char) : List Char :=
  ((if name = [] then none else lookup (String.ofList name)).map String.toList).getD ('$' :: name)

/-- The text with values for all placeholders. -/
def filled (lookup : String → Option String) (t : Template) : List Char :=
  t.lead ++ t.parts.flatMap fun (name, behind) => value lookup name ++ behind

/-- What it means that a text is cut at its placeholders. -/
structure Cuts (t : Template) (text : List Char) : Prop where
  whole : t.text = text
  lead : '$' ∉ t.lead
  apart : ∀ part ∈ t.parts, '$' ∉ part.2
  /-- Each name is the longest one behind its dollar sign. -/
  longest : ∀ before name behind after, t.parts = before ++ (name, behind) :: after →
    name = (Template.text ⟨name ++ behind, after⟩).takeWhile isPlaceholderPart

theorem placeholderText_eq (lookup : String → Option String) (name : List Char) :
    placeholderText lookup name = value lookup name := by
  cases name with
  | nil => rfl
  | cons c name =>
      rw [placeholderText, value, if_neg (List.cons_ne_nil c name)]
      cases lookup (String.ofList (c :: name)) <;> rfl

theorem text_append (name behind : List Char) (after : List (List Char × List Char)) :
    Template.text ⟨name ++ behind, after⟩ = name ++ Template.text ⟨behind, after⟩ :=
  List.append_assoc ..

theorem filled_part (name behind : List Char) (after : List (List Char × List Char)) :
    filled lookup ⟨[], (name, behind) :: after⟩
      = value lookup name ++ filled lookup ⟨behind, after⟩ := by
  rw [filled, filled, List.flatMap_cons, List.nil_append, List.append_assoc]

/-! ## How a text is cut -/

/-- The empty text has no placeholder. -/
theorem cuts_nil_iff : t.Cuts [] ↔ t = ⟨[], []⟩ := by
  obtain ⟨lead, parts⟩ := t
  constructor
  · intro cuts
    obtain ⟨none, others⟩ := List.append_eq_nil_iff.1 cuts.whole
    cases parts with
    | nil => exact congrArg (Template.mk · []) none
    | cons part parts => cases others
  · rintro ⟨⟩
    exact ⟨rfl, List.not_mem_nil, List.forall_mem_nil _, by simp⟩

/-- What is no dollar sign stands in front of the first one. -/
theorem cuts_cons_iff (other : c ≠ '$') :
    t.Cuts (c :: rest)
      ↔ ∃ lead parts, t = ⟨c :: lead, parts⟩ ∧ Cuts ⟨lead, parts⟩ rest := by
  obtain ⟨lead, parts⟩ := t
  constructor
  · intro cuts
    cases lead with
    | nil =>
        -- a placeholder would begin with a dollar sign
        cases parts with
        | nil => cases cuts.whole
        | cons part parts => exact absurd (List.cons.inj cuts.whole).1.symm other
    | cons d lead =>
        obtain ⟨rfl, whole⟩ := List.cons.inj cuts.whole
        exact ⟨lead, parts, rfl, whole, fun mem => cuts.lead (List.mem_cons_of_mem _ mem),
          cuts.apart, cuts.longest⟩
  · rintro ⟨lead, parts, ⟨⟩, cuts⟩
    refine ⟨congrArg (c :: ·) cuts.whole, ?_, cuts.apart, cuts.longest⟩
    rw [List.mem_cons, not_or]
    exact ⟨other.symm, cuts.lead⟩

/-- A dollar sign begins a placeholder, with the longest name behind it. -/
theorem cuts_dollar_iff :
    t.Cuts ('$' :: rest)
      ↔ ∃ lead parts, t = ⟨[], (rest.takeWhile isPlaceholderPart, lead) :: parts⟩
        ∧ Cuts ⟨lead, parts⟩ (rest.dropWhile isPlaceholderPart) := by
  have split := List.takeWhile_append_dropWhile (p := isPlaceholderPart) (l := rest)
  obtain ⟨lead, parts⟩ := t
  constructor
  · intro cuts
    cases lead with
    | cons d lead =>
        obtain ⟨rfl, -⟩ := List.cons.inj cuts.whole
        exact absurd List.mem_cons_self cuts.lead
    | nil =>
        cases parts with
        | nil => cases cuts.whole
        | cons part parts =>
            obtain ⟨name, behind⟩ := part
            have whole : Template.text ⟨name ++ behind, parts⟩ = rest :=
              (List.cons.inj cuts.whole).2
            have longest := cuts.longest [] name behind parts rfl
            rw [whole] at longest
            subst longest
            obtain ⟨own, others⟩ := List.forall_mem_cons.1 cuts.apart
            refine ⟨behind, parts, rfl, ?_, own, others, ?_⟩
            · rw [text_append] at whole
              exact List.append_cancel_left (whole.trans split.symm)
            · rintro before name' behind' after rfl
              exact cuts.longest (_ :: before) name' behind' after rfl
  · rintro ⟨lead, parts, ⟨⟩, cuts⟩
    have whole : Template.text ⟨rest.takeWhile isPlaceholderPart ++ lead, parts⟩ = rest := by
      rw [text_append, cuts.whole, split]
    refine ⟨congrArg ('$' :: ·) whole, List.not_mem_nil,
      List.forall_mem_cons.2 ⟨cuts.lead, cuts.apart⟩, ?_⟩
    intro before name behind after shape
    cases before with
    | nil =>
        obtain ⟨⟨⟩, rfl⟩ := List.cons.inj shape
        rw [whole]
    | cons first before =>
        obtain ⟨-, shape⟩ := List.cons.inj shape
        exact cuts.longest before name behind after shape

/-- There is one way to cut a text, and substitution fills what it gives. -/
theorem exists_unique_cuts (text : List Char) :
    ∃ t : Template, (∀ other : Template, other.Cuts text ↔ other = t)
      ∧ ∀ lookup, substituteChars lookup text = t.filled lookup := by
  induction text using substituteChars.induct with
  | case1 =>
      refine ⟨⟨[], []⟩, fun other => cuts_nil_iff, fun lookup => ?_⟩
      rw [substituteChars]
      rfl
  | case2 c rest dollar ih =>
      obtain rfl : c = '$' := eq_of_beq dollar
      obtain ⟨⟨lead, parts⟩, unique, fills⟩ := ih
      refine ⟨⟨[], (rest.takeWhile isPlaceholderPart, lead) :: parts⟩, fun other => ?_,
        fun lookup => ?_⟩
      · rw [cuts_dollar_iff]
        constructor
        · rintro ⟨lead', parts', rfl, cuts⟩
          cases (unique _).1 cuts
          rfl
        · rintro rfl
          exact ⟨lead, parts, rfl, (unique _).2 rfl⟩
      · rw [substituteChars, if_pos dollar, placeholderText_eq, fills, filled_part]
  | case3 c rest other ih =>
      have plain : c ≠ '$' := fun same => other (beq_iff_eq.2 same)
      obtain ⟨⟨lead, parts⟩, unique, fills⟩ := ih
      refine ⟨⟨c :: lead, parts⟩, fun t => ?_, fun lookup => ?_⟩
      · rw [cuts_cons_iff plain]
        constructor
        · rintro ⟨lead', parts', rfl, cuts⟩
          cases (unique _).1 cuts
          rfl
        · rintro rfl
          exact ⟨lead, parts, rfl, (unique _).2 rfl⟩
      · rw [substituteChars, if_neg other, fills]
        rfl

end Template

/-- A text can be cut at its placeholders in one way, and substitution gives what is between them
with the values of the names in place of them. -/
theorem substitute_template (text : String) :
    ∃ t : Template, (∀ other : Template, other.Cuts text.toList ↔ other = t)
      ∧ ∀ lookup, substitute text lookup = String.ofList (t.filled lookup) := by
  obtain ⟨t, unique, fills⟩ := Template.exists_unique_cuts text.toList
  exact ⟨t, unique, fun lookup => congrArg String.ofList (fills lookup)⟩

/-- Values with placeholders in them, next to placeholders. -/
example : substitute "$a$b$ab'$'$a_$ $é!"
      (fun name => [("a", "$b"), ("b", "$"), ("é", "1")].lookup name)
    = "$b$$ab'$'$a_$ 1!" := by
  decide +kernel

end GraphBridge.Query
