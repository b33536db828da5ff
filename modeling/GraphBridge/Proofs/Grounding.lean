import GraphBridge.Proofs.Collecting

/-!
# Fragments that do not come upon themselves

While selections are collected, a fragment is looked into where it is named, and a field is not. So
collecting comes upon the fragments that selections name outside of fields, and upon those that such
fragments come upon. A fragment may name itself inside of a field, because that is looked into one
level deeper; but a fragment that comes upon itself has no end. If there is none, it does not matter
that collecting forgets a fragment inside of itself, and selections are collected as if all
fragments were known everywhere.
-/

namespace GraphBridge.Operation.FragmentDefinition

/-- Selections come upon a fragment without passing through a field. -/
inductive ComesUpon (fragments : List FragmentDefinition) (name : String) :
    List Selection → Prop where
  | named (rest : List Selection) : ComesUpon fragments name (.spread name :: rest)
  | spread {other : String} {f : FragmentDefinition} (rest : List Selection)
      (found : find? fragments other = some f) (inside : ComesUpon fragments name f.selections) :
      ComesUpon fragments name (.spread other :: rest)
  | inlined (condition? : Option String) {inner : List Selection} (rest : List Selection)
      (inside : ComesUpon fragments name inner) :
      ComesUpon fragments name (.inlined condition? inner :: rest)
  | later (s : Selection) {rest : List Selection} (others : ComesUpon fragments name rest) :
      ComesUpon fragments name (s :: rest)

/-- No fragment comes upon itself. -/
def AreGrounded (fragments : List FragmentDefinition) : Prop :=
  ∀ name f, find? fragments name = some f → ¬ ComesUpon fragments name f.selections

namespace AreGrounded

variable {fragments : List FragmentDefinition} {name : String} {f : FragmentDefinition}

/-- A fragment that does not come upon itself is not missed inside of it. -/
theorem agree_without (grounded : AreGrounded fragments) (found : find? fragments name = some f)
    {visible : List FragmentDefinition} (rest : List Selection)
    (agree : ∀ other, ComesUpon fragments other (.spread name :: rest) →
      find? visible other = find? fragments other) :
    ∀ other, ComesUpon fragments other f.selections →
      find? (without visible name) other = find? fragments other := by
  intro other inside
  have apart : other ≠ name := by
    rintro rfl
    exact grounded other f found inside
  rw [find?_without, if_neg apart]
  exact agree other (.spread rest found inside)

/-- Induction over selections as they are collected: what holds of the selections of a fragment may
be used where it is named, and nothing is known of the selections of fields. -/
theorem induction {motive : List Selection → Prop} (grounded : AreGrounded fragments)
    (nil : motive [])
    (field : ∀ given? name arguments inner rest, motive rest →
      motive (.field given? name arguments inner :: rest))
    (spread : ∀ name rest, (∀ f, find? fragments name = some f → motive f.selections) →
      motive rest → motive (.spread name :: rest))
    (inlined : ∀ condition? inner rest, motive inner → motive rest →
      motive (.inlined condition? inner :: rest))
    (selections : List Selection) : motive selections := by
  -- fragments that have been entered can be left out, because they are not come upon again
  have within (size : Nat) : ∀ (visible : List FragmentDefinition) (selections : List Selection),
      weight visible + sizeOf selections = size →
      (∀ name, ComesUpon fragments name selections → find? visible name = find? fragments name) →
      motive selections := by
    induction size using Nat.strongRecOn with
    | ind size ih =>
        intro visible selections measured agree
        subst measured
        cases selections with
        | nil => exact nil
        | cons s rest =>
            have later : motive rest := by
              refine ih _ ?_ visible rest rfl fun name others => agree name (.later s others)
              exact Nat.add_lt_add_left (Selection.sizeOf_rest_lt _ _) _
            cases s with
            | field given? name arguments inner => exact field _ _ _ _ _ later
            | inlined condition? inner =>
                refine inlined _ _ _ (ih _ ?_ visible inner rfl fun name inside => ?_) later
                · exact Nat.add_lt_add_left (Selection.sizeOf_inlined_lt _ _ _) _
                · exact agree name (.inlined condition? rest inside)
            | spread name =>
                refine spread _ _ (fun f found => ?_) later
                have known : find? visible name = some f := by
                  rw [agree name (.named rest), found]
                refine ih _ (weight_spread_lt known rest) (without visible name) _ rfl ?_
                exact grounded.agree_without found rest agree
  exact within _ fragments selections rfl fun _ _ => rfl

end AreGrounded

end GraphBridge.Operation.FragmentDefinition

namespace GraphBridge.Compile

open Operation

variable {typeName : String} {fragments : List FragmentDefinition}

/-- Of the fragments only those matter that the selections come upon. -/
theorem collectFields_agree (grounded : FragmentDefinition.AreGrounded fragments)
    (selections : List Selection) : ∀ visible : List FragmentDefinition,
      (∀ name, FragmentDefinition.ComesUpon fragments name selections →
        FragmentDefinition.find? visible name = FragmentDefinition.find? fragments name) →
      collectFields typeName visible selections = collectFields typeName fragments selections := by
  induction selections using grounded.induction with
  | nil =>
      intro visible _
      rw [collectFields_nil, collectFields_nil]
  | field given? name arguments inner rest ih =>
      intro visible agree
      have later := ih visible fun other others => agree other (.later _ others)
      rw [collectFields_cons _ rest, collectFields_cons _ rest, later, collectFields_field,
        collectFields_field]
  | spread name rest ihInner ih =>
      intro visible agree
      have later := ih visible fun other others => agree other (.later _ others)
      rw [collectFields_cons _ rest, collectFields_cons _ rest, later, collectFields_spread,
        collectFields_spread, agree name (.named rest)]
      cases found : FragmentDefinition.find? fragments name with
      | none => rfl
      | some f =>
          dsimp only
          rw [ihInner f found _ (grounded.agree_without found rest agree),
            ihInner f found _ (grounded.agree_without found rest fun _ _ => rfl)]
  | inlined condition? inner rest ihInner ih =>
      intro visible agree
      have later := ih visible fun other others => agree other (.later _ others)
      have inside := ihInner visible fun other inside => agree other (.inlined condition? rest inside)
      rw [collectFields_cons _ rest, collectFields_cons _ rest, later, collectFields_inlined,
        collectFields_inlined, inside]

/-- Inside of a fragment that does not come upon itself, it may as well be known. -/
theorem collectFields_without (grounded : FragmentDefinition.AreGrounded fragments) {name : String}
    {f : FragmentDefinition} (found : FragmentDefinition.find? fragments name = some f) :
    collectFields typeName (FragmentDefinition.without fragments name) f.selections
      = collectFields typeName fragments f.selections :=
  collectFields_agree grounded f.selections _
    (grounded.agree_without found [] fun _ _ => rfl)

end GraphBridge.Compile
