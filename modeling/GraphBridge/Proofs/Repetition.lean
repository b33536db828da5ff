import GraphBridge.Proofs.Collecting
import Mathlib.Data.List.Forall2

/-!
# Repeated selections

A selection that has occurred before may be repeated anywhere behind its first occurrence: in a
selection set, inside of a field at any depth, inside of an inline fragment, and inside of the
definition of a fragment. Repeating an object field repeats its inner selections behind those that
were there, so the relation between selections and repeated selections is closed under going one
level deeper, and what is projected stays the same.
-/

namespace GraphBridge.Operation

/-- A list in which elements are repeated: every element stands where it stood, or one alike, and
between them stand elements that have been seen before. -/
inductive RepeatsAfter {α : Type} (alike : α → α → Prop) : List α → List α → List α → Prop where
  | nil (seen : List α) : RepeatsAfter alike seen [] []
  | keep {seen as bs : List α} {a b : α} (same : alike a b)
      (rest : RepeatsAfter alike (b :: seen) as bs) : RepeatsAfter alike seen (a :: as) (b :: bs)
  | again {seen as bs : List α} {b : α} (mem : b ∈ seen) (rest : RepeatsAfter alike seen as bs) :
      RepeatsAfter alike seen as (b :: bs)

namespace RepeatsAfter

variable {α : Type} {alike : α → α → Prop} {seen as bs : List α}

theorem mono {more : List α} (repeats : RepeatsAfter alike seen as bs) (sub : seen ⊆ more) :
    RepeatsAfter alike more as bs := by
  induction repeats generalizing more with
  | nil seen => exact .nil more
  | keep same _ ih => exact .keep same (ih (List.cons_subset_cons _ sub))
  | again mem _ ih => exact .again (sub mem) (ih sub)

/-- Repetitions in two lists are repetitions in both of them together. -/
theorem append {cs ds : List α} (first : RepeatsAfter alike seen as bs)
    (second : RepeatsAfter alike (bs ++ seen) cs ds) :
    RepeatsAfter alike seen (as ++ cs) (bs ++ ds) := by
  induction first with
  | nil seen => exact second
  | @keep seen as bs a b same _ ih =>
      refine .keep same (ih (second.mono ?_))
      intro c mem
      simp only [List.cons_append, List.mem_cons, List.mem_append] at mem ⊢
      exact or_left_comm.1 mem
  | @again seen as bs b mem _ ih =>
      refine .again mem (ih (second.mono ?_))
      intro c inside
      rcases List.mem_cons.1 inside with rfl | other
      · exact List.mem_append_right _ mem
      · exact other

/-- Elements that have been seen may stand in front. -/
theorem againAll {others : List α} (sub : others ⊆ seen) (repeats : RepeatsAfter alike seen as bs) :
    RepeatsAfter alike seen as (others ++ bs) := by
  induction others with
  | nil => exact repeats
  | cons c others ih =>
      obtain ⟨mem, rest⟩ := List.cons_subset.1 sub
      exact .again mem (ih rest)

/-- Nothing need be repeated. -/
theorem refl (same : ∀ a ∈ as, alike a a) : RepeatsAfter alike seen as as := by
  induction as generalizing seen with
  | nil => exact .nil seen
  | cons a as ih =>
      obtain ⟨first, others⟩ := List.forall_mem_cons.1 same
      exact .keep first (ih others)

end RepeatsAfter

/-- A selection inside of which selections are repeated. -/
inductive Selection.Repeats : Selection → Selection → Prop where
  | field (given? : Option String) (name : String) (arguments : List (String × Json))
      {inner repeated : List Selection}
      (inside : RepeatsAfter Selection.Repeats [] inner repeated) :
      Selection.Repeats (.field given? name arguments inner) (.field given? name arguments repeated)
  | spread (fragment : String) : Selection.Repeats (.spread fragment) (.spread fragment)
  | inlined (condition? : Option String) {inner repeated : List Selection}
      (inside : RepeatsAfter Selection.Repeats [] inner repeated) :
      Selection.Repeats (.inlined condition? inner) (.inlined condition? repeated)

/-- Selections with repetitions at any depth. -/
abbrev Selection.RepeatAll := RepeatsAfter Selection.Repeats []

mutual

theorem Selection.Repeats.refl : ∀ s : Selection, s.Repeats s
  | .field given? name arguments inner =>
      .field given? name arguments (RepeatsAfter.refl (Selection.repeats_of_mem inner))
  | .spread fragment => .spread fragment
  | .inlined condition? inner =>
      .inlined condition? (RepeatsAfter.refl (Selection.repeats_of_mem inner))

theorem Selection.repeats_of_mem : ∀ selections : List Selection, ∀ s ∈ selections, s.Repeats s
  | [] => List.forall_mem_nil _
  | s :: rest => List.forall_mem_cons.2 ⟨Selection.Repeats.refl s, Selection.repeats_of_mem rest⟩

end

/-- A field inside of which selections are repeated. -/
inductive Field.Repeats : Field → Field → Prop where
  | mk (given? : Option String) (name : String) (arguments : Table Json)
      {inner repeated : List Selection} (inside : Selection.RepeatAll inner repeated) :
      Field.Repeats ⟨given?, name, arguments, inner⟩ ⟨given?, name, arguments, repeated⟩

theorem Field.Repeats.refl (f : Field) : f.Repeats f :=
  .mk f.given? f.name f.arguments (RepeatsAfter.refl (Selection.repeats_of_mem f.selections))

/-- A fragment inside of which selections are repeated. -/
structure FragmentDefinition.Repeats (f g : FragmentDefinition) : Prop where
  name : f.name = g.name
  condition : f.condition = g.condition
  selections : Selection.RepeatAll f.selections g.selections

namespace FragmentDefinition

variable {fragments others : List FragmentDefinition}

theorem Repeats.refl (f : FragmentDefinition) : f.Repeats f :=
  ⟨rfl, rfl, RepeatsAfter.refl (Selection.repeats_of_mem f.selections)⟩

/-- A fragment is found where the one was found that it repeats. -/
theorem find?_repeats (defined : List.Forall₂ Repeats fragments others) (name : String) :
    Option.Rel Repeats (find? fragments name) (find? others name) := by
  induction defined with
  | nil => exact .none
  | @cons f g fragments others same _ ih =>
      unfold find? at ih ⊢
      rw [List.find?_cons, List.find?_cons, ← same.name]
      cases f.name == name with
      | true => exact .some same
      | false => exact ih

theorem without_repeats (defined : List.Forall₂ Repeats fragments others) (name : String) :
    List.Forall₂ Repeats (without fragments name) (without others name) := by
  induction defined with
  | nil => exact .nil
  | @cons f g fragments others same _ ih =>
      unfold without at ih ⊢
      rw [List.filter_cons, List.filter_cons, ← same.name]
      cases f.name != name with
      | true => exact .cons same ih
      | false => exact ih

end FragmentDefinition

end GraphBridge.Operation

namespace GraphBridge.Compile

open Operation Schema Statement

/-! ## Collecting repeated selections -/

/-- Two attempts to collect fields that fail alike, or of which the second finds the fields of the
first and some of them again. -/
inductive CollectedAgain (seen : List Field) :
    Except CompileError (List Field) → Except CompileError (List Field) → Prop where
  | failed (e : CompileError) : CollectedAgain seen (.error e) (.error e)
  | found {fields repeated : List Field}
      (repeats : RepeatsAfter Field.Repeats seen fields repeated) :
      CollectedAgain seen (.ok fields) (.ok repeated)

/-- Collecting one selection and then the others. -/
theorem CollectedAgain.cons {typeName : String} {fragments others : List FragmentDefinition}
    {s s' : Selection} {rest repeated : List Selection} {seen : List Field}
    (own : CollectedAgain [] (collectFields typeName fragments [s])
      (collectFields typeName others [s']))
    (later : ∀ part, collectFields typeName others [s'] = .ok part →
      CollectedAgain (part ++ seen) (collectFields typeName fragments rest)
        (collectFields typeName others repeated)) :
    CollectedAgain seen (collectFields typeName fragments (s :: rest))
      (collectFields typeName others (s' :: repeated)) := by
  rw [collectFields_cons s rest, collectFields_cons s' repeated]
  generalize collectFields typeName fragments [s] = first at own ⊢
  generalize collectFields typeName others [s'] = second at own later ⊢
  cases own with
  | failed e => exact .failed e
  | @found fields part repeats =>
      have behind := later part rfl
      generalize collectFields typeName fragments rest = more at behind ⊢
      generalize collectFields typeName others repeated = again at behind ⊢
      cases behind with
      | failed e => exact .failed e
      | found others => exact .found ((repeats.mono (List.nil_subset _)).append others)

/-- Selections that have been seen, with one more. -/
theorem comesWithin_cons {typeName : String} {fragments : List FragmentDefinition}
    {seen : List Selection} {fields part : List Field} {first : Selection}
    (known : ∀ s ∈ seen, ComesWithin typeName fragments fields s)
    (own : collectFields typeName fragments [first] = .ok part) :
    ∀ s ∈ first :: seen, ComesWithin typeName fragments (part ++ fields) s := by
  refine List.forall_mem_cons.2 ⟨⟨part, own, List.subset_append_left _ _⟩, ?_⟩
  intro other mem
  obtain ⟨found, collected, inside⟩ := known other mem
  exact ⟨found, collected, List.subset_append_of_subset_right _ inside⟩

/-- Repeated selections come to repeated fields. -/
theorem collectFields_repeats (typeName : String) {fragments others : List FragmentDefinition}
    (defined : List.Forall₂ FragmentDefinition.Repeats fragments others)
    {seen selections repeated : List Selection}
    (repeats : RepeatsAfter Selection.Repeats seen selections repeated) {fields : List Field}
    (known : ∀ s ∈ seen, ComesWithin typeName others fields s) :
    CollectedAgain fields (collectFields typeName fragments selections)
      (collectFields typeName others repeated) := by
  match repeats with
  | .nil seen =>
      rw [collectFields_nil, collectFields_nil]
      exact .found (.nil fields)
  | @RepeatsAfter.again _ _ seen selections repeated s mem rest =>
      obtain ⟨part, own, inside⟩ := known s mem
      have others := collectFields_repeats typeName defined rest known
      rw [collectFields_cons s repeated, own, ok_bind]
      generalize collectFields typeName fragments selections = first at others ⊢
      generalize collectFields typeName _ repeated = second at others ⊢
      cases others with
      | failed e => exact .failed e
      | found repeats => exact .found (repeats.againAll inside)
  | .keep (.field given? name arguments inside) rest =>
      refine CollectedAgain.cons ?_ fun part own =>
        collectFields_repeats typeName defined rest (comesWithin_cons known own)
      rw [collectFields_field, collectFields_field]
      exact .found (.keep (.mk given? name arguments inside) (.nil _))
  | .keep (.spread name) rest =>
      refine CollectedAgain.cons ?_ fun part own =>
        collectFields_repeats typeName defined rest (comesWithin_cons known own)
      rw [collectFields_spread, collectFields_spread]
      have found := FragmentDefinition.find?_repeats defined name
      match defines : FragmentDefinition.find? fragments name,
        FragmentDefinition.find? others name, found with
      | none, none, .none => exact .failed _
      | some f, some g, .some alike =>
          dsimp only
          rw [← alike.condition]
          split
          · exact collectFields_repeats typeName
              (FragmentDefinition.without_repeats defined name) alike.selections
              (List.forall_mem_nil _)
          · exact .found (.nil _)
  | .keep (.inlined condition? inside) rest =>
      refine CollectedAgain.cons ?_ fun part own =>
        collectFields_repeats typeName defined rest (comesWithin_cons known own)
      rw [collectFields_inlined, collectFields_inlined]
      split
      · exact collectFields_repeats typeName defined inside (List.forall_mem_nil _)
      · exact .found (.nil _)
termination_by (FragmentDefinition.weight fragments + sizeOf selections, repeated.length)
decreasing_by
  · exact Prod.Lex.right _ (Nat.lt_succ_self _)
  · exact Prod.Lex.left _ _ (Nat.add_lt_add_left (Selection.sizeOf_rest_lt _ _) _)
  · exact Prod.Lex.left _ _ (FragmentDefinition.weight_spread_lt defines _)
  · exact Prod.Lex.left _ _ (Nat.add_lt_add_left (Selection.sizeOf_rest_lt _ _) _)
  · exact Prod.Lex.left _ _ (Nat.add_lt_add_left (Selection.sizeOf_inlined_lt _ _ _) _)
  · exact Prod.Lex.left _ _ (Nat.add_lt_add_left (Selection.sizeOf_rest_lt _ _) _)

/-! ## Resolving repeated selections -/

/-- No field of a new response key is repeated. -/
theorem firstFields_repeats {seen fields repeated : List Field}
    (repeats : RepeatsAfter Field.Repeats seen fields repeated) {keys : List String}
    (known : ∀ f ∈ seen, f.responseKey ∈ keys) :
    firstFields keys repeated = firstFields keys fields := by
  induction repeats generalizing keys with
  | nil seen => rfl
  | @keep seen fields repeated f g same _ ih =>
      cases same with
      | @mk given? name arguments inner again inside =>
          have key : (⟨given?, name, arguments, again⟩ : Field).responseKey
              = (⟨given?, name, arguments, inner⟩ : Field).responseKey := rfl
          unfold firstFields
          rw [key]
          split
          · rename_i old
            exact ih (List.forall_mem_cons.2 ⟨old, known⟩)
          · congr 1
            refine ih (List.forall_mem_cons.2 ⟨List.mem_cons_self, fun f mem => ?_⟩)
            exact List.mem_cons_of_mem _ (known f mem)
  | @again seen fields repeated f mem _ ih =>
      rw [firstFields, if_pos (known f mem)]
      exact ih known

/-- What repeated fields select under a key is what the fields select, and some of it again. -/
theorem selectionsOf_repeats {seen fields repeated : List Field}
    (repeats : RepeatsAfter Field.Repeats seen fields repeated) (key : String) :
    RepeatsAfter Selection.Repeats (selectionsOf seen key) (selectionsOf fields key)
      (selectionsOf repeated key) := by
  induction repeats with
  | nil seen => exact .nil _
  | @keep seen fields repeated f g same _ ih =>
      cases same with
      | @mk given? name arguments inner again inside =>
          rw [selectionsOf_cons] at ih ⊢
          rw [selectionsOf_cons]
          have here : (⟨given?, name, arguments, again⟩ : Field).responseKey
              = (⟨given?, name, arguments, inner⟩ : Field).responseKey := rfl
          rw [here] at ih ⊢
          split
          · rename_i own
            rw [if_pos own] at ih
            exact (inside.mono (List.nil_subset _)).append ih
          · rename_i other
            rw [if_neg other] at ih
            exact ih
  | @again seen fields repeated f mem _ ih =>
      rw [selectionsOf_cons]
      refine ih.againAll ?_
      split
      · rename_i own
        intro s inside
        exact mem_selectionsOf.2 ⟨f, mem, own, inside⟩
      · exact List.nil_subset _

/-- Repeated fields resolve to the same entries, if repetitions one level deeper do. -/
theorem mapM_resolveField_repeats {ctx : Context} {others : List FragmentDefinition}
    {inner inner' : Resolves} (typeName : String)
    (deeper : ∀ typeName selections repeated, Selection.RepeatAll selections repeated →
      inner typeName selections = inner' typeName repeated)
    {fields repeated : List Field} (repeats : RepeatsAfter Field.Repeats [] fields repeated) :
    (groupFields fields).mapM (resolveField ctx inner typeName)
      = (groupFields repeated).mapM
          (resolveField { ctx with fragments := others } inner' typeName) := by
  rw [groupFields_eq, groupFields_eq, firstFields_repeats repeats (List.forall_mem_nil _),
    List.mapM_map, List.mapM_map]
  congr 1
  funext f
  exact resolveField_congr fun d _ _ _ => deeper _ _ _ (selectionsOf_repeats repeats f.responseKey)

/-- Repeated selections resolve to the same entries. -/
theorem resolve_repeats {ctx : Context} {others : List FragmentDefinition}
    (defined : List.Forall₂ FragmentDefinition.Repeats ctx.fragments others) (levels : Nat)
    (typeName : String) {selections repeated : List Selection}
    (repeats : Selection.RepeatAll selections repeated) :
    resolve ctx levels typeName selections
      = resolve { ctx with fragments := others } levels typeName repeated := by
  induction levels generalizing typeName selections repeated with
  | zero => rfl
  | succ levels ih =>
      have collected : CollectedAgain [] _ _ :=
        collectFields_repeats typeName defined repeats (List.forall_mem_nil _)
      unfold resolve
      dsimp only
      generalize collectFields typeName ctx.fragments selections = first at collected ⊢
      generalize collectFields typeName others repeated = second at collected ⊢
      cases collected with
      | failed e => rfl
      | found repeats =>
          exact mapM_resolveField_repeats typeName (fun typeName _ _ again => ih typeName again)
            repeats

/-! ## Selections that are there already -/

/-- A selection is made on a type: it stands among the selections, or inside of a fragment that
stands there and fits the type. -/
inductive SelectedOn (typeName : String) (fragments : List FragmentDefinition) :
    List Selection → Selection → Prop where
  | here {selections : List Selection} {s : Selection} (mem : s ∈ selections) :
      SelectedOn typeName fragments selections s
  | spread {selections : List Selection} {s : Selection} {name : String} {f : FragmentDefinition}
      (mem : .spread name ∈ selections) (found : FragmentDefinition.find? fragments name = some f)
      (fits : f.condition = typeName) (inside : SelectedOn typeName fragments f.selections s) :
      SelectedOn typeName fragments selections s
  | inlined {selections inner : List Selection} {s : Selection} {condition? : Option String}
      (mem : .inlined condition? inner ∈ selections)
      (fits : condition?.all (· == typeName) = true)
      (inside : SelectedOn typeName fragments inner s) : SelectedOn typeName fragments selections s

/-- What is selected on a type comes to fields that all selections come to. -/
theorem SelectedOn.comesWithin {typeName : String} {fragments : List FragmentDefinition}
    {selections : List Selection} {s : Selection}
    (selected : SelectedOn typeName fragments selections s) {fields : List Field}
    (collected : collectFields typeName fragments selections = .ok fields) :
    ComesWithin typeName fragments fields s := by
  induction selected generalizing fields with
  | here mem => exact comesWithin_of_mem collected _ mem
  | spread mem found fits _ ih =>
      obtain ⟨part, own, inside⟩ := comesWithin_of_mem collected _ mem
      rw [collectFields_spread, found] at own
      simp only [fits, beq_self_eq_true, if_true] at own
      obtain ⟨found, expanded, within⟩ := ih (collectFields_of_without own)
      exact ⟨found, expanded, List.Subset.trans within inside⟩
  | inlined mem fits _ ih =>
      obtain ⟨part, own, inside⟩ := comesWithin_of_mem collected _ mem
      rw [collectFields_inlined, if_pos fits] at own
      obtain ⟨found, expanded, within⟩ := ih own
      exact ⟨found, expanded, List.Subset.trans within inside⟩

/-- Selections that are made already add nothing behind the others. -/
theorem resolve_append_selected {ctx : Context} (levels : Nat) {typeName : String}
    {selections others : List Selection}
    (selected : ∀ s ∈ others, SelectedOn typeName ctx.fragments selections s) :
    resolve ctx levels typeName (selections ++ others)
      = resolve ctx levels typeName selections := by
  cases levels with
  | zero => rfl
  | succ levels =>
      unfold resolve
      rw [collectFields_append]
      cases collected : collectFields typeName ctx.fragments selections with
      | error e => rfl
      | ok fields =>
          obtain ⟨more, found, within⟩ := collectFields_comesWithin fun s mem =>
            (selected s mem).comesWithin collected
          have repeats : RepeatsAfter Field.Repeats [] fields (fields ++ more) := by
            have nothing : RepeatsAfter Field.Repeats (fields ++ []) [] [] := .nil _
            have behind : RepeatsAfter Field.Repeats (fields ++ []) [] (more ++ []) :=
              nothing.againAll (List.subset_append_of_subset_left _ within)
            simpa using (RepeatsAfter.refl fun f _ => Field.Repeats.refl f).append behind
          have unchanged : List.Forall₂ FragmentDefinition.Repeats ctx.fragments ctx.fragments :=
            List.forall₂_same.2 fun f _ => FragmentDefinition.Repeats.refl f
          rw [found]
          exact (mapM_resolveField_repeats typeName
            (fun typeName _ _ again => resolve_repeats unchanged levels typeName again)
            repeats).symm

/-- Repeating selections changes nothing: not behind a selection set of which they repeat parts,
directly or through fragments, and not at any depth inside of fields, inline fragments and
definitions of fragments. -/
theorem projectSelection_append_selected (ctx : Context) (levels : Nat) (typeName path : String)
    (frame : Nat) (b : Builder) (selections again : List Selection)
    (selected : ∀ s ∈ again, SelectedOn typeName ctx.fragments selections s) :
    projectSelection ctx levels typeName path frame (selections ++ again) b
        = projectSelection ctx levels typeName path frame selections b
      ∧ ∀ (fragments : List FragmentDefinition) (repeated : List Selection),
          List.Forall₂ FragmentDefinition.Repeats ctx.fragments fragments →
          Selection.RepeatAll selections repeated →
          projectSelection { ctx with fragments := fragments } levels typeName path frame repeated b
            = projectSelection ctx levels typeName path frame selections b := by
  rw [projectSelection_eq ctx levels typeName path frame [] selections b]
  constructor
  · rw [projectSelection_eq ctx levels typeName path frame [],
      resolve_append_selected levels selected]
  · intro fragments repeated defined repeats
    rw [projectSelection_eq _ levels typeName path frame [],
      ← resolve_repeats defined levels typeName repeats]

/-- Persons with names and friends. -/
def knowingIndex : Index := ⟨⟨[
  ⟨"Person", .object, [], [
    ⟨"name", ⟨"String", false, false⟩, [], []⟩,
    ⟨"friends", ⟨"Person", true, false⟩, [⟨"name", ⟨"String", false, false⟩, none, []⟩],
      [⟨"relationship", [("type", .string "knows")]⟩]⟩]⟩]⟩⟩

/-- A fragment on persons that selects the names of their friends and their own. -/
def friendsFragment : FragmentDefinition :=
  ⟨"Friends", "Person", [
    .field none "friends" [("name", .string "Ann")] [.field none "name" [] []],
    .field none "name" [] []]⟩

/-- The same fragment with selections repeated, also inside of a field. -/
def repeatingFragment : FragmentDefinition :=
  ⟨"Friends", "Person", [
    .field none "friends" [("name", .string "Ann")]
      [.field none "name" [] [], .field none "name" [] []],
    .field none "name" [] [],
    .field none "friends" [("name", .string "Ann")]
      [.field none "name" [] [], .field none "name" [] []]]⟩

theorem repeats_friendsFragment : friendsFragment.Repeats repeatingFragment := by
  have name : Selection.Repeats (.field none "name" [] []) (.field none "name" [] []) :=
    .field none "name" [] (.nil _)
  refine ⟨rfl, rfl, .keep (.field none "friends" _ ?_) (.keep name (.again ?_ (.nil _)))⟩
  · exact .keep name (.again List.mem_cons_self (.nil _))
  · exact List.mem_cons_of_mem _ List.mem_cons_self

theorem projectSelection_append_selected_friends :
    let ctx : Context := ⟨knowingIndex, {}, [friendsFragment]⟩
    let selections : List Selection := [.spread "Friends", .field none "name" [] []]
    let again : List Selection := [
      .field none "friends" [("name", .string "Ann")] [.field none "name" [] []],
      .spread "Friends"]
    let b := Builder.openFrame {} "person_Person" .object
    (∀ s ∈ again, SelectedOn "Person" ctx.fragments selections s)
      ∧ (projectSelection ctx 2 "Person" "person_Person" 0 selections b).toOption.any
          (fun b => b.frames.length == 2 && b.parameters.length == 1) = true
      ∧ projectSelection ctx 2 "Person" "person_Person" 0 (selections ++ again) b
          = projectSelection ctx 2 "Person" "person_Person" 0 selections b
      ∧ projectSelection { ctx with fragments := [repeatingFragment] } 2 "Person" "person_Person" 0
            selections b
          = projectSelection ctx 2 "Person" "person_Person" 0 selections b := by
  intro ctx selections again b
  have selected : ∀ s ∈ again, SelectedOn "Person" ctx.fragments selections s := by
    refine List.forall_mem_cons.2 ⟨?_, List.forall_mem_singleton.2 ?_⟩
    · exact .spread List.mem_cons_self rfl rfl (.here List.mem_cons_self)
    · exact .here List.mem_cons_self
  obtain ⟨behind, inside⟩ := projectSelection_append_selected ctx 2 "Person" "person_Person" 0 b
    selections again selected
  refine ⟨selected, by decide +kernel, behind, inside [repeatingFragment] selections ?_ ?_⟩
  · exact .cons repeats_friendsFragment .nil
  · exact RepeatsAfter.refl (Selection.repeats_of_mem selections)

end GraphBridge.Compile
