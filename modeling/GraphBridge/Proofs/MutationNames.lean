import GraphBridge.Compile.MutationName
import Mathlib.Data.List.Infix

/-!
# The naming contract of mutations

`classify` looks for verbs and markers in a fixed order. What it finds can be said without the
order: a name stands for a shape if it starts with the verb of the shape and goes on with word
characters, and its type is what the shortest possible part in front of a marker leaves or is. No
verb is the beginning of another one, so a name starts with at most one of them.
-/

namespace GraphBridge.Compile

open Text

namespace MutationShape

/-- The word that the names of a shape start with. -/
def verb : MutationShape → String
  | .createNode => "createNode"
  | .updateNode => "updateNode"
  | .deleteNode => "deleteNode"
  | .connectEdge => "connectNode"
  | .updateEdge => "updateEdge"
  | .deleteEdge => "deleteEdge"

/-- The shapes that write a node. -/
def writesNode (shape : MutationShape) : Prop :=
  shape = .createNode ∨ shape = .updateNode ∨ shape = .deleteNode

/-- The shapes that write an edge which is there. -/
def changesEdge (shape : MutationShape) : Prop :=
  shape = .updateEdge ∨ shape = .deleteEdge

theorem eq_of_leading_verb {shape other : MutationShape}
    (front : shape.verb.toList <+: other.verb.toList) : shape = other := by
  cases shape <;> cases other <;> first | rfl | exact absurd front (by decide)

/-- A name starts with one verb. -/
theorem eq_of_prefix {shape other : MutationShape} {name : List Char}
    (front : shape.verb.toList <+: name) (front' : other.verb.toList <+: name) : shape = other :=
  (List.prefix_or_prefix_of_prefix front front').elim eq_of_leading_verb
    fun longer => (eq_of_leading_verb longer).symm

end MutationShape

namespace MutationName

/-! ## The contract -/

/-- The shortest of the parts that fit. -/
structure IsShortest (fits : List Char → Prop) (part : List Char) : Prop where
  own : fits part
  le : ∀ other, fits other → part.length ≤ other.length

/-- A part of the words behind `connectNode` that `Edge` and a type follow. -/
def StandsBeforeEdge (words part : List Char) : Prop :=
  ∃ type, type ≠ [] ∧ words = part ++ "Edge".toList ++ type

/-- A part of the words behind the verb of an edge that `From` follows. -/
def StandsBeforeFrom (words part : List Char) : Prop :=
  part ≠ [] ∧ ∃ rest, words = part ++ "From".toList ++ rest

/-- What the names of mutations stand for. -/
inductive Denotes (name : List Char) : MutationShape → List Char → Prop where
  /-- The verb of a node and its type. -/
  | node {shape : MutationShape} {type : List Char} (writes : shape.writesNode)
      (spelled : name = shape.verb.toList ++ type) (given : type ≠ [])
      (words : ∀ c ∈ type, isWord c = true) : Denotes name shape type
  /-- `connectNode`, the shortest possible part, `Edge` and the type. -/
  | connection {words before type : List Char}
      (spelled : name = "connectNode".toList ++ words)
      (cut : words = before ++ "Edge".toList ++ type) (given : type ≠ [])
      (front : ∀ c ∈ before, isWord c = true) (back : ∀ c ∈ type, isWord c = true)
      (shortest : IsShortest (StandsBeforeEdge words) before) : Denotes name .connectEdge type
  /-- The verb of an edge and words of which the type is the shortest part in front of `From`. -/
  | edge {shape : MutationShape} {words type : List Char} (writes : shape.changesEdge)
      (spelled : name = shape.verb.toList ++ words) (given : words ≠ [])
      (all : ∀ c ∈ words, isWord c = true)
      (shortest : IsShortest (StandsBeforeFrom words) type) : Denotes name shape type
  /-- The verb of an edge and its type, in which `From` stands at the front at most. -/
  | wholeEdge {shape : MutationShape} {type : List Char} (writes : shape.changesEdge)
      (spelled : name = shape.verb.toList ++ type) (given : type ≠ [])
      (all : ∀ c ∈ type, isWord c = true) (none : ∀ part, ¬ StandsBeforeFrom type part) :
      Denotes name shape type

/-! ## Cutting at a marker -/

section Cut

variable {marker : List Char}

/-- The first place of a marker. -/
theorem cut?_eq_some {chars before after : List Char}
    (found : cut? marker chars = some (before, after)) :
    chars = before ++ marker ++ after
      ∧ ∀ other rest, chars = other ++ marker ++ rest → before.length ≤ other.length := by
  induction chars generalizing before after with
  | nil =>
      rw [cut?] at found
      split at found
      · rename_i none
        cases found
        rw [List.isEmpty_iff.1 none]
        exact ⟨rfl, fun _ _ _ => Nat.zero_le _⟩
      · cases found
  | cons c chars ih =>
      rw [cut?] at found
      split at found
      · rename_i behind split
        cases found
        exact ⟨(List.isPrefixOf?_eq_some_iff_append_eq.1 split).symm, fun _ _ _ => Nat.zero_le _⟩
      · rename_i apart
        obtain ⟨⟨front, back⟩, later, same⟩ := Option.map_eq_some_iff.1 found
        cases same
        obtain ⟨whole, first⟩ := ih later
        refine ⟨by rw [whole]; rfl, fun other rest cut => ?_⟩
        cases other with
        | nil =>
            have front : marker.isPrefixOf? (c :: chars) = some rest :=
              List.isPrefixOf?_eq_some_iff_append_eq.2 cut.symm
            rw [apart] at front
            cases front
        | cons d other =>
            rw [List.cons_append, List.cons_append, List.cons.injEq] at cut
            exact Nat.succ_le_succ (first other rest cut.2)

/-- A marker that is there is found. -/
theorem exists_cut? (before after : List Char) :
    ∃ parts, cut? marker (before ++ marker ++ after) = some parts := by
  induction before with
  | nil =>
      rw [List.nil_append]
      cases shape : marker ++ after with
      | nil => exact ⟨([], []), by rw [cut?, (List.append_eq_nil_iff.1 shape).1]; rfl⟩
      | cons c rest =>
          have front : marker.isPrefixOf? (c :: rest) = some after :=
            List.isPrefixOf?_eq_some_iff_append_eq.2 shape
          exact ⟨([], after), by rw [cut?, front]⟩
  | cons c before ih =>
      obtain ⟨parts, found⟩ := ih
      rw [List.cons_append, List.cons_append, cut?]
      split
      · exact ⟨_, rfl⟩
      · exact ⟨_, by rw [found]; rfl⟩

end Cut

/-- The type of a connection is what the shortest part in front of `Edge` leaves. -/
theorem connectedType?_eq_some_iff {words type : List Char} :
    connectedType? words = some type
      ↔ type ≠ [] ∧ ∃ before, words = before ++ "Edge".toList ++ type
          ∧ IsShortest (StandsBeforeEdge words) before := by
  unfold connectedType?
  constructor
  · intro found
    split at found
    · rename_i before c rest cut
      cases found
      obtain ⟨whole, first⟩ := cut?_eq_some cut
      refine ⟨List.cons_ne_nil c rest, before, whole, ⟨_, List.cons_ne_nil c rest, whole⟩, ?_⟩
      rintro other ⟨behind, -, split⟩
      exact first other behind split
    · cases found
  · rintro ⟨given, before, whole, shortest⟩
    obtain ⟨⟨front, back⟩, found⟩ := @exists_cut? "Edge".toList before type
    rw [← whole] at found
    obtain ⟨whole', first⟩ := cut?_eq_some found
    -- the first `Edge` leaves at least as much as the chosen one, so it is the chosen one
    have early := first before type whole
    have lengths := congrArg List.length (whole.symm.trans whole')
    simp only [List.length_append] at lengths
    have given' : back ≠ [] := by
      rintro rfl
      have positive := List.length_pos_iff.2 given
      rw [List.length_nil] at lengths
      omega
    have late := shortest.le front ⟨back, given', whole'⟩
    have same := whole.symm.trans whole'
    rw [List.append_assoc, List.append_assoc] at same
    obtain ⟨rfl, tails⟩ := List.append_inj same (Nat.le_antisymm late early)
    obtain rfl := List.append_cancel_left tails
    rw [found]
    obtain ⟨c, rest, rfl⟩ := List.exists_cons_of_ne_nil given
    rfl

/-- The words behind the first one that `From` follows. -/
theorem standsBeforeFrom_cons {c : Char} {rest part : List Char} :
    StandsBeforeFrom (c :: rest) part
      ↔ ∃ before after, part = c :: before ∧ rest = before ++ "From".toList ++ after := by
  constructor
  · rintro ⟨given, after, whole⟩
    cases part with
    | nil => exact absurd rfl given
    | cons d before =>
        rw [List.cons_append, List.cons_append, List.cons.injEq] at whole
        exact ⟨before, after, by rw [whole.1], whole.2⟩
  · rintro ⟨before, after, rfl, rfl⟩
    exact ⟨List.cons_ne_nil c before, after, rfl⟩

/-- The type of an edge is the shortest part in front of `From`, or all words if there is none. -/
theorem edgeType_eq_iff {words type : List Char} (given : words ≠ []) :
    edgeType words = type
      ↔ IsShortest (StandsBeforeFrom words) type
        ∨ words = type ∧ ∀ part, ¬ StandsBeforeFrom words part := by
  obtain ⟨c, rest, rfl⟩ := List.exists_cons_of_ne_nil given
  rw [edgeType]
  cases cut : cut? "From".toList rest with
  | none =>
      have none : ∀ part, ¬ StandsBeforeFrom (c :: rest) part := by
        intro part stands
        obtain ⟨before, after, -, rfl⟩ := standsBeforeFrom_cons.1 stands
        obtain ⟨parts, found⟩ := @exists_cut? "From".toList before after
        rw [cut] at found
        cases found
      exact ⟨fun same => .inr ⟨same, none⟩,
        fun either => either.elim (fun shortest => absurd shortest.own (none type)) And.left⟩
  | some parts =>
      obtain ⟨before, after⟩ := parts
      obtain ⟨whole, first⟩ := cut?_eq_some cut
      have stands : StandsBeforeFrom (c :: rest) (c :: before) :=
        standsBeforeFrom_cons.2 ⟨before, after, rfl, whole⟩
      have shortest : IsShortest (StandsBeforeFrom (c :: rest)) (c :: before) := by
        refine ⟨stands, fun other fits => ?_⟩
        obtain ⟨front, behind, rfl, split⟩ := standsBeforeFrom_cons.1 fits
        exact Nat.succ_le_succ (first front behind split)
      constructor
      · rintro rfl
        exact .inl shortest
      · rintro (other | ⟨-, none⟩)
        · obtain ⟨front, behind, rfl, split⟩ := standsBeforeFrom_cons.1 other.own
          have lengths := Nat.le_antisymm (shortest.le _ other.own) (other.le _ stands)
          rw [whole, List.append_assoc, List.append_assoc] at split
          rw [(List.append_inj split (Nat.succ_injective lengths)).1]
        · exact absurd stands (none _)

/-! ## The search -/

theorem wordsAfter?_eq_some_iff {verb : String} {name words : List Char} :
    wordsAfter? verb name = some words
      ↔ name = verb.toList ++ words ∧ words ≠ [] ∧ ∀ c ∈ words, isWord c = true := by
  unfold wordsAfter?
  constructor
  · intro found
    split at found
    · rename_i c rest front
      split at found
      · rename_i all
        cases found
        exact ⟨(List.isPrefixOf?_eq_some_iff_append_eq.1 front).symm, List.cons_ne_nil c rest,
          List.all_eq_true.1 all⟩
      · cases found
    · cases found
  · rintro ⟨rfl, given, all⟩
    obtain ⟨c, rest, rfl⟩ := List.exists_cons_of_ne_nil given
    have front : verb.toList.isPrefixOf? (verb.toList ++ c :: rest) = some (c :: rest) :=
      List.isPrefixOf?_eq_some_iff_append_eq.2 rfl
    rw [front]
    exact if_pos (List.all_eq_true.2 all)

/-- How a shape cuts its type out of the words behind its verb. -/
def typeOf? : MutationShape → List Char → Option (List Char)
  | .createNode | .updateNode | .deleteNode => some
  | .connectEdge => connectedType?
  | .updateEdge | .deleteEdge => some ∘ edgeType

theorem shaped?_eq_some_iff {shape : MutationShape} {name : List Char} {m : MutationName} :
    shaped? shape shape.verb (typeOf? shape) name = some m
      ↔ shape = m.shape ∧ ∃ words, name = shape.verb.toList ++ words ∧ words ≠ []
          ∧ (∀ c ∈ words, isWord c = true) ∧ typeOf? shape words = some m.typeName.toList := by
  unfold shaped?
  simp only [Option.bind_eq_bind, Option.bind_eq_some_iff, wordsAfter?_eq_some_iff]
  constructor
  · rintro ⟨words, ⟨front, given, all⟩, type, cut, made⟩
    cases made
    exact ⟨rfl, words, front, given, all, by rw [String.toList_ofList]; exact cut⟩
  · rintro ⟨rfl, words, front, given, all, cut⟩
    exact ⟨words, ⟨front, given, all⟩, _, cut, by rw [String.ofList_toList]; rfl⟩

/-- The shapes in the order in which they are tried. -/
def shapes : List MutationShape :=
  [.createNode, .updateNode, .deleteNode, .connectEdge, .updateEdge, .deleteEdge]

theorem classify_eq_findSome? (name : String) :
    classify name
      = shapes.findSome? fun shape => shaped? shape shape.verb (typeOf? shape) name.toList := by
  simp only [shapes, List.findSome?_cons, List.findSome?_nil]
  unfold classify
  dsimp only [MutationShape.verb, typeOf?]
  cases shaped? .createNode "createNode" some name.toList <;> try rfl
  cases shaped? .updateNode "updateNode" some name.toList <;> try rfl
  cases shaped? .deleteNode "deleteNode" some name.toList <;> try rfl
  cases shaped? .connectEdge "connectNode" connectedType? name.toList <;> try rfl
  cases shaped? .updateEdge "updateEdge" (some ∘ edgeType) name.toList <;> try rfl
  cases shaped? .deleteEdge "deleteEdge" (some ∘ edgeType) name.toList <;> rfl

/-- The order in which the shapes are tried does not matter. -/
theorem classify_eq_some_iff_shaped {name : String} {m : MutationName} :
    classify name = some m
      ↔ shaped? m.shape m.shape.verb (typeOf? m.shape) name.toList = some m := by
  have shape {shape : MutationShape} {m : MutationName}
      (found : shaped? shape shape.verb (typeOf? shape) name.toList = some m) :
      shape = m.shape ∧ shape.verb.toList <+: name.toList := by
    obtain ⟨same, words, front, -⟩ := shaped?_eq_some_iff.1 found
    exact ⟨same, words, front.symm⟩
  rw [classify_eq_findSome?]
  constructor
  · intro found
    obtain ⟨tried, -, found⟩ := List.exists_of_findSome?_eq_some found
    obtain ⟨rfl, -⟩ := shape found
    exact found
  · intro found
    have mem : m.shape ∈ shapes := by cases m.shape <;> decide
    cases first : shapes.findSome? fun shape =>
        shaped? shape shape.verb (typeOf? shape) name.toList with
    | none => rw [List.findSome?_eq_none_iff.1 first m.shape mem] at found; cases found
    | some other =>
        obtain ⟨tried, -, found'⟩ := List.exists_of_findSome?_eq_some first
        obtain rfl := MutationShape.eq_of_prefix (shape found).2 (shape found').2
        exact found'.symm.trans found

/-- The letters of markers are word characters. -/
theorem isWord_of_isAlpha {c : Char} (letter : c.isAlpha = true) : isWord c = true := by
  refine (wordRanges.contains_eq_true_iff c.toNat).2 ?_
  rcases Bool.or_eq_true_iff.1 (show (c.isUpper || c.isLower) = true from letter) with upper | lower
  · exact ⟨(0x41, 0x5a), List.mem_cons_of_mem _ List.mem_cons_self, of_decide_eq_true upper⟩
  · obtain ⟨above, below⟩ := Bool.and_eq_true_iff.1
      (show (decide (c.val ≥ 'a'.val) && decide (c.val ≤ 'z'.val)) = true from lower)
    refine ⟨(0x61, 0x7a), ?_, of_decide_eq_true above, of_decide_eq_true below⟩
    exact List.mem_cons_of_mem _ (List.mem_cons_of_mem _ (List.mem_cons_of_mem _
      List.mem_cons_self))

/-- A cut of the words behind a verb is what the contract says. -/
theorem denotes_iff {name type : List Char} {shape : MutationShape} :
    Denotes name shape type
      ↔ ∃ words, name = shape.verb.toList ++ words ∧ words ≠ []
          ∧ (∀ c ∈ words, isWord c = true) ∧ typeOf? shape words = some type := by
  constructor
  · rintro (⟨writes, spelled, given, words⟩ | ⟨spelled, cut, given, front, back, shortest⟩
      | ⟨writes, spelled, given, all, shortest⟩ | ⟨writes, spelled, given, all, none⟩)
    · refine ⟨type, spelled, given, words, ?_⟩
      obtain rfl | rfl | rfl := writes <;> rfl
    · rename_i words before
      have letters : "Edge".toList.all Char.isAlpha = true := rfl
      have marker : ∀ c ∈ "Edge".toList, isWord c = true :=
        fun c mem => isWord_of_isAlpha (List.all_eq_true.1 letters c mem)
      refine ⟨words, spelled, ?_, ?_, connectedType?_eq_some_iff.2 ⟨given, before, cut, shortest⟩⟩
      · rw [cut]
        exact List.append_ne_nil_of_right_ne_nil _ given
      · rw [cut]
        exact List.forall_mem_append.2 ⟨List.forall_mem_append.2 ⟨front, marker⟩, back⟩
    · refine ⟨_, spelled, given, all, ?_⟩
      have same := (edgeType_eq_iff given).2 (.inl shortest)
      obtain rfl | rfl := writes <;> exact congrArg some same
    · refine ⟨type, spelled, given, all, ?_⟩
      have same := (edgeType_eq_iff given).2 (.inr ⟨rfl, none⟩)
      obtain rfl | rfl := writes <;> exact congrArg some same
  · rintro ⟨words, spelled, given, all, cut⟩
    have node (writes : shape.writesNode) (same : words = type) : Denotes name shape type :=
      .node writes (same ▸ spelled) (same ▸ given) (same ▸ all)
    have edge (writes : shape.changesEdge) (same : edgeType words = type) :
        Denotes name shape type := by
      obtain shortest | ⟨rfl, none⟩ := (edgeType_eq_iff given).1 same
      · exact .edge writes spelled given all shortest
      · exact .wholeEdge writes spelled given all none
    cases shape with
    | createNode => exact node (.inl rfl) (Option.some.inj cut)
    | updateNode => exact node (.inr (.inl rfl)) (Option.some.inj cut)
    | deleteNode => exact node (.inr (.inr rfl)) (Option.some.inj cut)
    | connectEdge =>
        obtain ⟨given, before, whole, shortest⟩ := connectedType?_eq_some_iff.1 cut
        rw [whole] at all
        obtain ⟨front, back⟩ := List.forall_mem_append.1 all
        exact .connection spelled whole given (List.forall_mem_append.1 front).1 back shortest
    | updateEdge => exact edge (.inl rfl) (Option.some.inj cut)
    | deleteEdge => exact edge (.inr rfl) (Option.some.inj cut)

/-- What a name denotes is what it is found to be. -/
theorem denotes_iff_classify {name : String} {m : MutationName} :
    Denotes name.toList m.shape m.typeName.toList ↔ classify name = some m := by
  rw [classify_eq_some_iff_shaped, shaped?_eq_some_iff, denotes_iff]
  exact (and_iff_right rfl).symm

/-- The naming contract. A name is classified as what the contract says, and not at all if the
contract says nothing about it; it says at most one thing about any name. -/
theorem classify_contract (name : String) :
    (∀ m, classify name = some m ↔ Denotes name.toList m.shape m.typeName.toList)
      ∧ (classify name = none ↔ ∀ shape type, ¬ Denotes name.toList shape type)
      ∧ ∀ shape type shape' type', Denotes name.toList shape type →
          Denotes name.toList shape' type' → shape = shape' ∧ type = type' := by
  have found {shape : MutationShape} {type : List Char} (denotes : Denotes name.toList shape type) :
      classify name = some ⟨shape, String.ofList type⟩ :=
    denotes_iff_classify.1 (by rw [String.toList_ofList]; exact denotes)
  refine ⟨fun m => denotes_iff_classify.symm, ?_, ?_⟩
  · constructor
    · intro none shape type denotes
      rw [found denotes] at none
      cases none
    · intro none
      cases classified : classify name with
      | none => rfl
      | some m => exact absurd (denotes_iff_classify.2 classified) (none _ _)
  · intro shape type shape' type' first second
    have same := Option.some.inj ((found first).symm.trans (found second))
    rw [mk.injEq, String.ofList_inj] at same
    exact same

/-- Markers at the front, twice, and inside of types. -/
example : classify "connectNodeEdgeEdgeFrom" = some ⟨.connectEdge, "EdgeFrom"⟩
    ∧ classify "updateEdgeFromFromFrom" = some ⟨.updateEdge, "From"⟩
    ∧ classify "deleteEdgeFrom" = some ⟨.deleteEdge, "From"⟩
    ∧ classify "connectNodePersonEdge" = none := by
  decide +kernel

end MutationName

end GraphBridge.Compile
