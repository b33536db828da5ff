import GraphBridge.Proofs.Parts
import Mathlib.Data.List.Forall2

/-!
# Statements alike

Two builders are alike if they differ only in the fragments they have taken over, and those are
alike in their places. Every action of a projection keeps builders alike, because all that it asks
of a fragment is answered by the layout. Statements of builders alike have the same words, if the
lines of one of them settle and the fragments of the other end in words.
-/

namespace GraphBridge.Statement

open Query

/-- Clauses whose parts can stand for each other. -/
def Clause.Alike (c d : Clause) : Prop :=
  List.Forall₂ Part.Alike c.parts d.parts

/-- Expressions whose parts can stand for each other. -/
def Expression.Alike (e d : Expression) : Prop :=
  List.Forall₂ Part.Alike e.parts d.parts

/-- Frames whose entries can stand for each other. -/
structure Frame.Alike (f g : Frame) : Prop where
  carryOver : f.carryOver = g.carryOver
  closing : f.closing = g.closing
  entries : List.Forall₂ (fun a b => a.1 = b.1 ∧ a.2.Alike b.2) f.entries g.entries

/-- Builders that differ in what they have taken over only. -/
structure Builder.Alike (b c : Builder) : Prop where
  clauses : List.Forall₂ Clause.Alike b.clauses c.clauses
  frames : List.Forall₂ Frame.Alike b.frames c.frames
  threads : b.threads = c.threads
  scope : b.scope = c.scope
  parameters : b.parameters = c.parameters

theorem forall₂_separated {lists others : List (List Part)} (separator : String)
    (alike : List.Forall₂ (List.Forall₂ Part.Alike) lists others) :
    List.Forall₂ Part.Alike (separated separator lists) (separated separator others) := by
  induction alike with
  | nil => exact .nil
  | cons first rest ih =>
      cases rest with
      | nil => exact first
      | cons next rest => exact List.rel_append first (.cons (.own separator) ih)

namespace Frame

variable {f g : Frame}

theorem Alike.bodyParts (alike : f.Alike g) :
    List.Forall₂ Part.Alike f.bodyParts g.bodyParts := by
  have entries : List.Forall₂ (List.Forall₂ Part.Alike) (f.entries.map entryParts)
      (g.entries.map entryParts) := by
    refine List.rel_map (fun a b same => ?_) alike.entries
    rw [entryParts, entryParts, same.1]
    exact .cons (.own _) same.2
  exact .cons (.own _) (List.rel_append (forall₂_separated ", " entries) (.cons (.own _) .nil))

theorem Alike.collectedParts (alike : f.Alike g) (limit? : Option Nat) :
    List.Forall₂ Part.Alike (f.collectedParts limit?) (g.collectedParts limit?) :=
  .cons (.own _) (List.rel_append alike.bodyParts (.cons (.own _) .nil))

theorem Alike.closedParts (alike : f.Alike g) :
    List.Forall₂ Part.Alike f.closedParts g.closedParts := by
  unfold Frame.closedParts
  rw [alike.closing, alike.carryOver]
  refine List.rel_append ?_ (.cons (.own _) .nil)
  split
  · exact alike.collectedParts _
  · exact alike.bodyParts
  · exact alike.bodyParts

theorem Alike.returnedParts (alike : f.Alike g) :
    List.Forall₂ Part.Alike f.returnedParts g.returnedParts := by
  unfold Frame.returnedParts
  rw [alike.closing]
  split
  · exact alike.collectedParts _
  · exact List.rel_append alike.bodyParts (.cons (.own _) .nil)
  · exact alike.bodyParts

end Frame

namespace Builder

variable {b c : Builder}

theorem forall₂_zipIdx {α β : Type} {related : α → β → Prop} {as : List α} {bs : List β}
    (each : List.Forall₂ related as bs) (start : Nat) :
    List.Forall₂ (fun a b => related a.1 b.1 ∧ a.2 = b.2) (as.zipIdx start) (bs.zipIdx start) := by
  induction each generalizing start with
  | nil => exact .nil
  | cons first _ ih => exact .cons ⟨first, rfl⟩ (ih (start + 1))

namespace Alike

theorem kept (alike : b.Alike c) (place : Nat) : b.kept place = c.kept place := by
  have names : (b.frames.take place).map (·.carryOver)
      = (c.frames.take place).map (·.carryOver) := by
    rw [← List.forall₂_eq_eq_eq]
    exact List.rel_map (fun _ _ same => same.carryOver) (List.forall₂_take place alike.frames)
  rw [Builder.kept, Builder.kept, names, alike.threads]

/-- Builders alike have lines alike. -/
theorem lineParts (alike : b.Alike c) :
    List.Forall₂ (List.Forall₂ Part.Alike) b.lineParts c.lineParts := by
  have clauses : List.Forall₂ (List.Forall₂ Part.Alike) (b.clauses.map Clause.parts)
      (c.clauses.map Clause.parts) :=
    List.forall₂_map_left_iff.2 (List.forall₂_map_right_iff.2 alike.clauses)
  refine List.rel_append (List.rel_append clauses ?_) ?_
  · refine List.rel_reverse (List.rel_map ?_ (List.forall₂_drop 1 (forall₂_zipIdx alike.frames 0)))
    rintro ⟨f, place⟩ ⟨g, _⟩ ⟨same, rfl⟩
    show List.Forall₂ Part.Alike (b.withParts place f) (c.withParts place g)
    rw [withParts, withParts, alike.kept]
    exact .cons (.own _) same.closedParts
  · have frames := alike.frames
    revert frames
    generalize b.frames = fs, c.frames = gs
    rintro (_ | ⟨first, -⟩)
    · exact .nil
    · exact .cons (.cons (.own _) first.returnedParts) .nil

/-! ## What keeps builders alike -/

theorem empty : Alike {} {} :=
  ⟨.nil, .nil, rfl, rfl, rfl⟩

theorem addClause (alike : b.Alike c) {first second : Clause} (same : first.Alike second) :
    (b.addClause first).Alike (c.addClause second) :=
  { alike with clauses := List.rel_append alike.clauses (.cons same .nil) }

theorem insertClause (alike : b.Alike c) (place : Nat) {first second : Clause}
    (same : first.Alike second) :
    (b.insertClause place first).Alike (c.insertClause place second) :=
  { alike with
    clauses := List.rel_append (List.forall₂_take place alike.clauses)
      (.cons same (List.forall₂_drop place alike.clauses)) }

theorem bindScope (alike : b.Alike c) (name : String) :
    (b.bindScope name).Alike (c.bindScope name) := by
  unfold Builder.bindScope
  rw [alike.scope]
  split
  · exact alike
  · exact { alike with scope := rfl }

theorem openFrame (alike : b.Alike c) (carryOver : String) (closing : Closing) :
    (b.openFrame carryOver closing).Alike (c.openFrame carryOver closing) := by
  unfold Builder.openFrame
  apply bindScope
  refine ⟨alike.clauses, ?_, alike.threads, alike.scope, alike.parameters⟩
  exact List.rel_append alike.frames (.cons ⟨rfl, rfl, .nil⟩ .nil)

theorem project (alike : b.Alike c) (frame : Nat) (key : String) {first second : Expression}
    (same : first.Alike second) :
    (b.project frame key first).Alike (c.project frame key second) := by
  have entered (f g : Frame) (alike : f.Alike g) :
      Frame.Alike { f with entries := f.entries ++ [(key, first)] }
        { g with entries := g.entries ++ [(key, second)] } :=
    { alike with entries := List.rel_append alike.entries (.cons ⟨rfl, same⟩ .nil) }
  exact { alike with frames := forall₂_modify entered alike.frames frame }

theorem thread (alike : b.Alike c) (name : String) (consumer : Nat) (producer? : Option Nat) :
    (b.thread name consumer producer?).Alike (c.thread name consumer producer?) :=
  { alike with
    threads := congrArg (fun threads => threads ++ [Thread.mk name consumer producer?])
      alike.threads }

theorem refer (alike : b.Alike c) (name : String) (s : Supplied) :
    (b.refer name s).1 = (c.refer name s).1 ∧ (b.refer name s).2.Alike (c.refer name s).2 := by
  obtain ⟨reference, parameters⟩ := refer_congr alike.parameters name s
  refine ⟨reference, ?_, ?_, ?_, ?_, parameters⟩
  · rw [clauses_refer, clauses_refer]
    exact alike.clauses
  · rw [frames_refer, frames_refer]
    exact alike.frames
  · rw [threads_refer, threads_refer, alike.threads]
  · rw [scope_refer, scope_refer, alike.scope]

theorem referAll (alike : b.Alike c) (path : String) (supplied : List Supplied) :
    (b.referAll path supplied).1 = (c.referAll path supplied).1
      ∧ (b.referAll path supplied).2.Alike (c.referAll path supplied).2 := by
  obtain ⟨references, parameters⟩ := referAll_congr alike.parameters path supplied
  refine ⟨references, ?_, ?_, ?_, ?_, parameters⟩
  · rw [clauses_referAll, clauses_referAll]
    exact alike.clauses
  · rw [frames_referAll, frames_referAll]
    exact alike.frames
  · rw [threads_referAll, threads_referAll, alike.threads]
  · rw [scope_referAll, scope_referAll, alike.scope]

end Alike

end Builder

end GraphBridge.Statement

namespace GraphBridge.Compile

open Query Statement

/-! ## Actions alike -/

/-- Scalar fields that differ in the fragments of an override only. -/
inductive Scalar.Alike : Scalar → Scalar → Prop where
  | typeName (name : String) : Alike (.typeName name) (.typeName name)
  | identity : Alike .identity .identity
  | property (stored : String) : Alike (.property stored) (.property stored)
  | override (bound : List String) {body body' tail tail' : Fragment} (bodies : body.Alike body')
      (tails : tail.Alike tail') : Alike (.override bound body tail) (.override bound body' tail')

/-- Ways to reach nodes that differ in the fragment of an override only. -/
inductive Reach.Alike : Reach → Reach → Prop where
  | relationship (edgeType : String) (direction : Direction) (label : String)
      (identity? : Option String) (supplied : List Supplied) :
      Alike (.relationship edgeType direction label identity? supplied)
        (.relationship edgeType direction label identity? supplied)
  | override (bound : List String) {body body' : Fragment} (returned : String)
      (bodies : body.Alike body') : Alike (.override bound body returned)
        (.override bound body' returned)

/-- Actions that differ in the fragments of overrides only. -/
inductive Action.Alike : Action → Action → Prop where
  | scalar (key : String) {value value' : Scalar} (values : value.Alike value') :
      Alike (.scalar key value) (.scalar key value')
  | enter (key : String) (closing : Closing) {reach reach' : Reach} (reaches : reach.Alike reach') :
      Alike (.enter key reach closing) (.enter key reach' closing)
  | leave (key : String) : Alike (.leave key) (.leave key)

section

variable {b c : Builder} {body body' tail tail' : Fragment}

theorem alike_inlined (isOptional : Bool) (bodies : body.Alike body') (names : Table String) :
    (Clause.inlined isOptional ⟨body, names⟩).Alike (.inlined isOptional ⟨body', names⟩) :=
  List.rel_append (List.forall₂_same.2 fun part own => by
    cases isOptional with
    | false => cases own
    | true =>
        obtain rfl := List.mem_singleton.1 own
        exact .own _) (.cons (.taken names bodies) .nil)

theorem alike_inlinedClause (config : Config) (bodies : body.Alike body') (names : Table String) :
    (inlinedClause config ⟨body, names⟩).Alike (inlinedClause config ⟨body', names⟩) := by
  have keyword : (Inlined.mk body names).renamed.leadingKeyword
      = (Inlined.mk body' names).renamed.leadingKeyword :=
    Fragment.answer_of_layout Fragment.leadingKeyword_core (bodies.layout_rename names.get?)
  rw [inlinedClause, inlinedClause, keyword]
  exact alike_inlined _ bodies names

theorem isEmpty_renamed (bodies : body.Alike body') (names : Table String) :
    (Inlined.mk body names).renamed.isEmpty = (Inlined.mk body' names).renamed.isEmpty :=
  Fragment.answer_of_layout Fragment.isEmpty_core (bodies.layout_rename names.get?)

theorem alike_addBody (alike : b.Alike c) (config : Config) (bodies : body.Alike body')
    (names : Table String) :
    (addBody config b ⟨body, names⟩).Alike (addBody config c ⟨body', names⟩) := by
  unfold addBody
  rw [isEmpty_renamed bodies names]
  split
  · exact alike
  · exact alike.addClause (alike_inlinedClause config bodies names)

theorem alike_keepFor (alike : b.Alike c) (frame : Nat) (name : String) :
    (keepFor b frame name).Alike (keepFor c frame name) :=
  (alike.bindScope name).thread name frame none

theorem alike_keepMentioned (alike : b.Alike c) (frame : Nat) {first second : Fragment}
    (same : first.layout = second.layout) (names : List String) :
    (keepMentioned frame first names b).Alike (keepMentioned frame second names c) := by
  unfold keepMentioned
  induction names generalizing b c with
  | nil => exact alike
  | cons name names ih =>
      rw [List.foldl_cons, List.foldl_cons,
        @Fragment.answer_of_layout _ (·.mentions name) (·.mentions_core name) _ _ same]
      refine ih ?_
      split
      · exact alike_keepFor alike frame name
      · exact alike

theorem alike_subquery (path name : String) (bodies : body.Alike body') (tails : tail.Alike tail')
    (names : Table String) :
    (Clause.subquery path ⟨body, names⟩ ⟨tail, names⟩ name).Alike
      (.subquery path ⟨body', names⟩ ⟨tail', names⟩ name) := by
  unfold Clause.Alike Clause.parts
  dsimp only
  rw [isEmpty_renamed bodies names]
  refine .cons (.own _) (List.rel_append ?_
    (.cons (.own _) (.cons (.taken names tails) (.cons (.own _) .nil))))
  split
  · exact .nil
  · exact .cons (.taken names bodies) (.cons (.own _) .nil)

/-- An override of a scalar field keeps builders alike and gives expressions alike. -/
theorem alike_inlineScalar (alike : b.Alike c) (config : Config) (bound : List String)
    (bodies : body.Alike body') (tails : tail.Alike tail') (path key : String) (frame : Nat) :
    (inlineScalar config bound body tail path key frame b).1.Alike
        (inlineScalar config bound body' tail' path key frame c).1
      ∧ (inlineScalar config bound body tail path key frame b).2.Alike
        (inlineScalar config bound body' tail' path key frame c).2 := by
  unfold inlineScalar
  dsimp only
  generalize scalarNames path (path ++ "_" ++ key) bound = names
  have calls : (Inlined.mk tail names).renamed.isAggregate
      = (Inlined.mk tail' names).renamed.isAggregate :=
    Fragment.answer_of_layout Fragment.isAggregate_core (tails.layout_rename names.get?)
  have inlined := alike_addBody alike config bodies names
  split
  · exact ⟨.cons (.own _) .nil,
      alike_keepFor (alike.addClause (alike_subquery _ _ bodies tails names)) frame _⟩
  rw [calls]
  split
  · refine ⟨.cons (.own _) .nil, alike_keepFor (inlined.addClause ?_) frame _⟩
    rw [inlined.scope]
    exact .cons (.own _) (.cons (.taken names tails) (.cons (.own _) .nil))
  · exact ⟨.cons (.taken names tails) .nil,
      alike_keepMentioned inlined frame (tails.layout_rename names.get?) _⟩

theorem alike_emit_scalar (alike : b.Alike c) (config : Config) (path key : String) (frame : Nat)
    {value value' : Scalar} (values : value.Alike value') :
    (value.emit config path key frame b).1.Alike (value'.emit config path key frame c).1
      ∧ (value.emit config path key frame b).2.Alike (value'.emit config path key frame c).2 := by
  cases values with
  | typeName name => exact ⟨.cons (.own _) .nil, alike⟩
  | identity => exact ⟨.cons (.own _) .nil, alike⟩
  | property stored => exact ⟨.cons (.own _) .nil, alike⟩
  | override bound bodies tails =>
      exact alike_inlineScalar alike config bound bodies tails path key frame

theorem alike_emit_reach (alike : b.Alike c) (config : Config) (parent child : String)
    {reach reach' : Reach} (reaches : reach.Alike reach') :
    (reach.emit config parent child b).Alike (reach'.emit config parent child c) := by
  cases reaches with
  | relationship edgeType direction label identity? supplied =>
      obtain ⟨bound, alike⟩ := alike.referAll child supplied
      unfold Reach.emit inlineRelationship filterFor
      dsimp only
      rw [bound]
      exact alike.addClause (.cons (.own _) .nil)
  | override bound returned bodies =>
      exact alike.addClause (alike_inlinedClause config bodies _)

/-- States with the same open frames and builders alike. -/
structure State.Alike (s t : State) : Prop where
  builder : s.builder.Alike t.builder
  stack : s.stack = t.stack

/-- Actions alike keep states alike. -/
theorem State.Alike.step {s t : State} (alike : s.Alike t) (config : Config) {a a' : Action}
    (actions : a.Alike a') : (State.step config s a).Alike (State.step config t a') := by
  obtain ⟨b, stack⟩ := s
  obtain ⟨c, _⟩ := t
  obtain ⟨alike, rfl⟩ := alike
  match actions, stack with
  | .scalar key values, [] => exact ⟨alike, rfl⟩
  | .scalar key values, (frame, path) :: outer =>
      obtain ⟨expressions, builders⟩ := alike_emit_scalar alike config path key frame values
      exact ⟨builders.project frame key expressions, rfl⟩
  | .enter key closing reaches, [] => exact ⟨alike, rfl⟩
  | .enter key closing reaches, (frame, path) :: outer =>
      have reached := alike_emit_reach alike config path (path ++ "_" ++ key) reaches
      refine ⟨reached.openFrame _ closing, ?_⟩
      exact congrArg (fun place => (place, _) :: (frame, path) :: outer)
        reached.frames.length_eq
  | .leave key, [] => exact ⟨alike, rfl⟩
  | .leave key, [_] => exact ⟨alike, rfl⟩
  | .leave key, (inner, child) :: (frame, path) :: outer =>
      have value : (Expression.named child).Alike (.named child) := .cons (.own _) .nil
      exact ⟨(alike.project frame key value).thread child frame (some inner), rfl⟩

theorem State.Alike.run {s t : State} (alike : s.Alike t) (config : Config)
    {actions others : List Action} (each : List.Forall₂ Action.Alike actions others) :
    (State.run config actions s).Alike (State.run config others t) := by
  induction each generalizing s t with
  | nil => exact alike
  | cons first _ ih => exact ih (alike.step config first)

/-! ## Plans alike -/

/-- Plans that differ in the fragments they have taken over only. -/
inductive Plan.Alike : Plan → Plan → Prop where
  | traversal (script : String) (aliases? : Option (Table String)) :
      Alike (.traversal script aliases?) (.traversal script aliases?)
  | verbatim {f g : Fragment} (names : Table String) (alike : f.Alike g) :
      Alike (.verbatim ⟨f, names⟩) (.verbatim ⟨g, names⟩)
  | projecting {b c : Builder} (alike : b.Alike c) : Alike (.projecting b) (.projecting c)
  | returning {b c : Builder} (alike : b.Alike c) {e d : Expression} (expressions : e.Alike d) :
      Alike (.returning b e) (.returning c d)

/-- Statements that differ in their texts only, and not even there if they are scripts. -/
structure Compiled.Alike (compiled other : Compiled) : Prop where
  language : compiled.language = other.language
  parameters : compiled.parameters = other.parameters
  aliases : compiled.aliases? = other.aliases?
  script : compiled.language = .gremlin → compiled.text = other.text

/-- The kinds and texts of the meaningful tokens. -/
def meaningful (tokens : List Token) : List (TokenKind × String) :=
  (tokens.filter (!·.isTrivia)).map fun t => (t.kind, t.text)

theorem meaningful_eq (tokens : List Token) :
    meaningful tokens = (words true tokens).map fun w => (w.kind, w.text) := by
  have tokens := congrArg (List.map fun t : Token => (t.kind, t.text)) (map_token_words true tokens)
  rw [List.map_map, List.map_map] at tokens
  exact tokens.symm

/-- Whether two texts are lexed, and differ in white space and comments only. -/
def SameWords (first second : String) : Prop :=
  ∃ tokens others, tokenize first = .ok tokens ∧ tokenize second = .ok others
    ∧ meaningful tokens = meaningful others

namespace Plan

/-- Whether every line of the statement settles. -/
def settles (plan : Plan) : Bool :=
  plan.lineParts.all (settlesFrom .start)

/-- Whether every fragment with something behind it on its line ends in a word. -/
def endsInWords (plan : Plan) : Bool :=
  plan.lineParts.all Statement.endsInWords

namespace Alike

variable {plan other : Plan}

theorem lineParts (alike : plan.Alike other) :
    List.Forall₂ (List.Forall₂ Part.Alike) plan.lineParts other.lineParts := by
  cases alike with
  | traversal script aliases? => exact .cons (.cons (.own _) .nil) .nil
  | verbatim names alike => exact .cons (.cons (.taken names alike) .nil) .nil
  | projecting alike => exact alike.lineParts
  | returning alike expressions =>
      refine List.rel_append ?_ (.cons (.cons (.own _) expressions) .nil)
      exact List.forall₂_map_left_iff.2 (List.forall₂_map_right_iff.2 alike.clauses)

/-- Plans alike come to statements that differ in the texts of declarative statements only. -/
theorem compiled (alike : plan.Alike other) : plan.compiled.Alike other.compiled := by
  cases alike with
  | traversal script aliases? => exact ⟨rfl, rfl, rfl, fun _ => rfl⟩
  | verbatim names alike => exact ⟨rfl, rfl, rfl, nofun⟩
  | projecting alike => exact ⟨rfl, alike.parameters, rfl, nofun⟩
  | returning alike expressions => exact ⟨rfl, alike.parameters, rfl, nofun⟩

/-- The texts of plans alike have the same words, if the lines of the second settle and the
fragments of the first end in words. -/
theorem sameWords (alike : plan.Alike other) (ends : plan.endsInWords = true)
    (settles : other.settles = true) : SameWords plan.compiled.text other.compiled.text := by
  obtain ⟨found, first, second⟩ := exists_read_lines alike.lineParts ends settles
  rw [← toList_text] at first second
  obtain ⟨f, lexed, layout⟩ := Fragment.read_eq_some.1 first
  obtain ⟨g, lexed', layout'⟩ := Fragment.read_eq_some.1 second
  refine ⟨f.tokens, g.tokens, Fragment.tokenize_of_ofText lexed,
    Fragment.tokenize_of_ofText lexed', ?_⟩
  rw [meaningful_eq, meaningful_eq]
  exact congrArg _ (layout.trans layout'.symm)

end Alike

end Plan

end

end GraphBridge.Compile

