import Mathlib.Data.List.Forall2

/-!
# Two runs side by side

A run that may fail is compared with another one: both succeed with results that are related, or
both fail with errors that have the same outline. The rules follow the ways in which runs are put
together, so that two runs of one shape are compared step by step.
-/

namespace GraphBridge

/-- A result of which something can be checked is there. -/
theorem exists_ok_of_any {ε α : Type} {found : Except ε α} {check : α → Bool}
    (h : found.toOption.any check = true) : ∃ a, found = .ok a ∧ check a = true := by
  cases found with
  | error e => cases h
  | ok a => exact ⟨a, rfl, h⟩

theorem map_eq_error_iff {ε α β : Type} {found : Except ε α} {change : α → β} {e : ε} :
    found.map change = .error e ↔ found = .error e := by
  cases found <;> simp [Except.map]

theorem map_eq_ok_iff {ε α β : Type} {found : Except ε α} {change : α → β} {b : β} :
    found.map change = .ok b ↔ ∃ a, found = .ok a ∧ change a = b := by
  cases found <;> simp [Except.map]

/-- Two runs that both succeed, with results that are related, or fail alike. -/
inductive SameOutcome {ε α β : Type} (outline : ε → ε) (related : α → β → Prop) :
    Except ε α → Except ε β → Prop where
  | ok {a : α} {b : β} (same : related a b) : SameOutcome outline related (.ok a) (.ok b)
  | error {e e' : ε} (same : outline e = outline e') :
      SameOutcome outline related (.error e) (.error e')

namespace SameOutcome

variable {ε ε' α β α' β' : Type} {outline : ε → ε} {related : α → β → Prop}

theorem of_eq {found other : Except ε α} (same : found = other) :
    SameOutcome outline Eq found other := by
  subst same
  cases found with
  | error e => exact .error rfl
  | ok a => exact .ok rfl

theorem eq {found other : Except ε α} (same : SameOutcome id Eq found other) : found = other := by
  cases same with
  | ok equal => rw [equal]
  | error equal =>
      rw [id, id] at equal
      rw [equal]

theorem bind {found : Except ε α} {found' : Except ε β} {next : α → Except ε α'}
    {next' : β → Except ε β'} {later : α' → β' → Prop}
    (first : SameOutcome outline related found found')
    (second : ∀ a b, found = .ok a → found' = .ok b → related a b →
      SameOutcome outline later (next a) (next' b)) :
    SameOutcome outline later (found >>= next) (found' >>= next') := by
  cases first with
  | error same => exact .error same
  | ok same => exact second _ _ rfl rfl same

theorem imp {found : Except ε α} {found' : Except ε β} {weaker : α → β → Prop}
    (first : SameOutcome outline related found found') (weaken : ∀ a b, related a b → weaker a b) :
    SameOutcome outline weaker found found' := by
  cases first with
  | error same => exact .error same
  | ok same => exact .ok (weaken _ _ same)

theorem trans {γ : Type} {found : Except ε α} {found' : Except ε β} {found'' : Except ε γ}
    {further : β → γ → Prop} (first : SameOutcome outline related found found')
    (second : SameOutcome outline further found' found'') :
    SameOutcome outline (fun a c => ∃ b, related a b ∧ further b c) found found'' := by
  cases first with
  | error same =>
      cases second with
      | error same' => exact .error (same.trans same')
  | ok same =>
      cases second with
      | ok same' => exact .ok ⟨_, same, same'⟩

theorem map {found : Except ε α} {found' : Except ε β} {after : α → α'} {after' : β → β'}
    {later : α' → β' → Prop} (first : SameOutcome outline related found found')
    (second : ∀ a b, related a b → later (after a) (after' b)) :
    SameOutcome outline later (found.map after) (found'.map after') := by
  cases first with
  | error same => exact .error same
  | ok same => exact .ok (second _ _ same)

theorem mapError {found : Except ε α} {found' : Except ε β} {outer : ε' → ε'} {wrap : ε → ε'}
    (first : SameOutcome outline related found found')
    (wraps : ∀ e e', outline e = outline e' → outer (wrap e) = outer (wrap e')) :
    SameOutcome outer related (found.mapError wrap) (found'.mapError wrap) := by
  cases first with
  | error same => exact .error (wraps _ _ same)
  | ok same => exact .ok same

theorem mapM {γ : Type} {look : γ → Except ε α} {look' : γ → Except ε β} {cs : List γ}
    (each : ∀ c ∈ cs, SameOutcome outline related (look c) (look' c)) :
    SameOutcome outline (List.Forall₂ related) (cs.mapM look) (cs.mapM look') := by
  induction cs with
  | nil => exact .ok .nil
  | cons c cs ih =>
      obtain ⟨own, others⟩ := List.forall_mem_cons.1 each
      rw [List.mapM_cons, List.mapM_cons]
      refine own.bind fun a b _ _ first => (ih others).bind fun as bs _ _ rest => ?_
      exact .ok (.cons first rest)

end SameOutcome

end GraphBridge
