import GraphBridge.Proofs.Keywords
import GraphBridge.Proofs.Outcome
import GraphBridge.Proofs.Planning
import GraphBridge.Proofs.References

/-!
# Two ways to inline overrides

A configuration says whether a scalar override becomes a subquery or clauses of its own, and whether
a leading `MATCH` of an override becomes optional. Two compilations that differ in these settings
walk through the same selections. At every moment the frames that are open, the variables they
carry, the keys entered into them and the parameters bound so far are the same; different are the
clauses taken over from overrides, the expressions that read their values, and which variables have
to stay in scope for them.
-/

namespace GraphBridge

/-- Configurations that differ at most in how overrides are inlined. -/
structure Config.SameButModes (config other : Config) : Prop where
  reshapePolicy : config.reshapePolicy = other.reshapePolicy
  maxDepth : config.maxDepth = other.maxDepth

end GraphBridge

namespace GraphBridge.Statement

open Query

/-- Whether a clause is there in every mode, and the same: it is not taken over from an override,
nor put in front of what is. -/
def Clause.isSettled : Clause → Bool
  | .inlined .. | .aggregate .. | .subquery .. | .keep _ => false
  | _ => true

/-- Expressions that are the same, unless one of them is what an override returns. -/
inductive Expression.SameButOverride : Expression → Expression → Prop where
  | same (e : Expression) : SameButOverride e e
  | first (value : Inlined) (d : Expression) : SameButOverride (.inlined value) d
  | second (e : Expression) (value : Inlined) : SameButOverride e (.inlined value)

/-- Frames with the same variable, the same keys in the same order and the same closing, whose
entries differ at most where the value of an override is entered. -/
structure Frame.SameOutline (f g : Frame) : Prop where
  carryOver : f.carryOver = g.carryOver
  closing : f.closing = g.closing
  entries : List.Forall₂ (fun a b => a.1 = b.1 ∧ a.2.SameButOverride b.2) f.entries g.entries

/-- Builders with frames of the same outlines, the same parameters and the same clauses but for
those of overrides. -/
structure Builder.SameOutline (b c : Builder) : Prop where
  clauses : b.clauses.filter Clause.isSettled = c.clauses.filter Clause.isSettled
  frames : List.Forall₂ Frame.SameOutline b.frames c.frames
  parameters : b.parameters = c.parameters

theorem Frame.SameOutline.refl (f : Frame) : f.SameOutline f :=
  ⟨rfl, rfl, List.forall₂_same.2 fun entry _ => ⟨rfl, .same entry.2⟩⟩

namespace Builder

/-- A later builder of the same statement that differs in unsettled clauses and in what is kept in
scope only. -/
structure AddsUnsettled (b later : Builder) : Prop where
  clauses : later.clauses.filter Clause.isSettled = b.clauses.filter Clause.isSettled
  frames : later.frames = b.frames
  parameters : later.parameters = b.parameters

namespace AddsUnsettled

variable {b b' : Builder}

theorem refl (b : Builder) : AddsUnsettled b b :=
  ⟨rfl, rfl, rfl⟩

theorem trans {b'' : Builder} (first : AddsUnsettled b b') (second : AddsUnsettled b' b'') :
    AddsUnsettled b b'' :=
  ⟨second.clauses.trans first.clauses, second.frames.trans first.frames,
    second.parameters.trans first.parameters⟩

theorem addClause (b : Builder) {clause : Clause} (unsettled : clause.isSettled = false) :
    AddsUnsettled b (b.addClause clause) := by
  refine ⟨?_, rfl, rfl⟩
  rw [Builder.addClause, List.filter_append, List.filter_singleton, unsettled]
  exact List.append_nil _

theorem insertClause (b : Builder) (place : Nat) {clause : Clause}
    (unsettled : clause.isSettled = false) : AddsUnsettled b (b.insertClause place clause) := by
  refine ⟨?_, rfl, rfl⟩
  rw [Builder.insertClause, List.filter_append, List.filter_cons_of_neg (by simp [unsettled]),
    ← List.filter_append, List.take_append_drop]

theorem keepFor (b : Builder) (frame : Nat) (name : String) :
    AddsUnsettled b (Compile.keepFor b frame name) :=
  ⟨congrArg _ (Compile.clauses_keepFor b frame name), Compile.frames_keepFor name,
    Builder.parameters_bindScope b name⟩

theorem keepMentioned (b : Builder) (frame : Nat) (tail : Fragment) (names : List String) :
    AddsUnsettled b (Compile.keepMentioned frame tail names b) :=
  Compile.keepMentioned_induction (motive := AddsUnsettled b)
    (fun later name grown => grown.trans (keepFor later frame name)) names (refl b)

theorem addBody (b : Builder) (config : Config) (body : Inlined) :
    AddsUnsettled b (Compile.addBody config b body) := by
  unfold Compile.addBody
  split
  · exact refl b
  · exact addClause b rfl

end AddsUnsettled

namespace SameOutline

variable {b c : Builder}

theorem refl (b : Builder) : b.SameOutline b :=
  ⟨rfl, List.forall₂_same.2 fun f _ => .refl f, rfl⟩

/-- What is added unsettled changes no outline. -/
theorem later (alike : b.SameOutline c) {b' c' : Builder} (first : AddsUnsettled b b')
    (second : AddsUnsettled c c') : b'.SameOutline c' where
  clauses := first.clauses.trans (alike.clauses.trans second.clauses.symm)
  frames := by
    rw [first.frames, second.frames]
    exact alike.frames
  parameters := first.parameters.trans (alike.parameters.trans second.parameters.symm)

theorem addClause (alike : b.SameOutline c) (clause : Clause) :
    (b.addClause clause).SameOutline (c.addClause clause) :=
  { alike with clauses := by simp only [Builder.addClause, List.filter_append, alike.clauses] }

theorem openFrame (alike : b.SameOutline c) (carryOver : String) (closing : Closing) :
    (b.openFrame carryOver closing).SameOutline (c.openFrame carryOver closing) where
  clauses := by rw [clauses_openFrame, clauses_openFrame, alike.clauses]
  frames := by
    rw [frames_openFrame, frames_openFrame]
    exact List.rel_append alike.frames (.cons (.refl _) .nil)
  parameters := by rw [parameters_openFrame, parameters_openFrame, alike.parameters]

theorem project (alike : b.SameOutline c) (frame : Nat) (key : String) {e d : Expression}
    (same : e.SameButOverride d) : (b.project frame key e).SameOutline (c.project frame key d) := by
  have entered (f g : Frame) (alike : f.SameOutline g) :
      Frame.SameOutline { f with entries := f.entries ++ [(key, e)] }
        { g with entries := g.entries ++ [(key, d)] } :=
    { alike with entries := List.rel_append alike.entries (.cons ⟨rfl, same⟩ .nil) }
  exact { alike with frames := forall₂_modify entered alike.frames frame }

theorem thread (alike : b.SameOutline c) (name : String) (consumer : Nat)
    (producer? : Option Nat) :
    (b.thread name consumer producer?).SameOutline (c.thread name consumer producer?) :=
  ⟨alike.clauses, alike.frames, alike.parameters⟩

theorem referAll (alike : b.SameOutline c) (path : String) (supplied : List Supplied) :
    (b.referAll path supplied).1 = (c.referAll path supplied).1
      ∧ (b.referAll path supplied).2.SameOutline (c.referAll path supplied).2 := by
  obtain ⟨references, parameters⟩ := referAll_congr alike.parameters path supplied
  refine ⟨references, ?_, ?_, parameters⟩
  · rw [clauses_referAll, clauses_referAll, alike.clauses]
  · rw [frames_referAll, frames_referAll]
    exact alike.frames

end SameOutline

end Builder

end GraphBridge.Statement

namespace GraphBridge.Compile

open Operation Query Schema Statement

/-! ## Projections in two modes -/

section

variable {b c : Builder} (config other : Config)

/-- A scalar override enters nothing but the value of its key, in either mode. -/
theorem inlineScalar_unsettled (bound : List String) (body tail : Fragment) (path key : String)
    (frame : Nat) (b : Builder) :
    let made := inlineScalar config bound body tail path key frame b
    b.AddsUnsettled made.2
      ∧ (made.1 = .named (path ++ "_" ++ key) ∨ ∃ value, made.1 = .inlined value) := by
  have body := Builder.AddsUnsettled.addBody b config
    ⟨body, scalarNames path (path ++ "_" ++ key) bound⟩
  unfold inlineScalar
  dsimp only
  split
  · exact ⟨(Builder.AddsUnsettled.addClause b rfl).trans (.keepFor _ _ _), .inl rfl⟩
  split
  · exact ⟨body.trans ((Builder.AddsUnsettled.addClause _ rfl).trans (.keepFor _ _ _)), .inl rfl⟩
  · exact ⟨body.trans (.keepMentioned _ _ _ _), .inr ⟨_, rfl⟩⟩

theorem sameOutline_emit_scalar (alike : b.SameOutline c) (path key : String) (frame : Nat)
    (value : Scalar) :
    (value.emit config path key frame b).1.SameButOverride (value.emit other path key frame c).1
      ∧ (value.emit config path key frame b).2.SameOutline
          (value.emit other path key frame c).2 := by
  cases value with
  | typeName name => exact ⟨.same _, alike⟩
  | identity => exact ⟨.same _, alike⟩
  | property stored => exact ⟨.same _, alike⟩
  | override bound body tail =>
      obtain ⟨added, made⟩ := inlineScalar_unsettled config bound body tail path key frame b
      obtain ⟨added', made'⟩ := inlineScalar_unsettled other bound body tail path key frame c
      refine ⟨?_, alike.later added added'⟩
      unfold Scalar.emit
      rcases made with named | ⟨value, returned⟩
      · rcases made' with named' | ⟨value, returned⟩
        · rw [named, named']
          exact .same _
        · rw [returned]
          exact .second _ _
      · rw [returned]
        exact .first _ _

theorem sameOutline_emit_reach (alike : b.SameOutline c) (parent child : String) (reach : Reach) :
    (reach.emit config parent child b).SameOutline (reach.emit other parent child c) := by
  cases reach with
  | relationship edgeType direction label identity? supplied =>
      obtain ⟨bound, alike⟩ := alike.referAll child supplied
      unfold Reach.emit inlineRelationship filterFor
      dsimp only
      rw [bound]
      exact alike.addClause _
  | override bound body returned => exact alike.later (.addClause b rfl) (.addClause c rfl)

/-- States with the same open frames and builders of the same outline. -/
structure State.SameOutline (s t : State) : Prop where
  builder : s.builder.SameOutline t.builder
  stack : s.stack = t.stack

/-- An action keeps outlines the same, whatever the modes are in which it is done. -/
theorem State.SameOutline.step {s t : State} (alike : s.SameOutline t) (a : Action) :
    (State.step config s a).SameOutline (State.step other t a) := by
  obtain ⟨b, stack⟩ := s
  obtain ⟨c, _⟩ := t
  obtain ⟨alike, rfl⟩ := alike
  match a, stack with
  | .scalar key value, (frame, path) :: outer =>
      obtain ⟨same, emitted⟩ := sameOutline_emit_scalar config other alike path key frame value
      exact ⟨emitted.project frame key same, rfl⟩
  | .enter key reach closing, (frame, path) :: outer =>
      have reached := sameOutline_emit_reach config other alike path (path ++ "_" ++ key) reach
      refine ⟨reached.openFrame _ closing, ?_⟩
      exact congrArg (fun place => (place, _) :: (frame, path) :: outer)
        reached.frames.length_eq
  | .leave key, (inner, child) :: (frame, path) :: outer =>
      exact ⟨(alike.project frame key (.same (.named child))).thread child frame (some inner), rfl⟩
  | .scalar _ _, [] => exact ⟨alike, rfl⟩
  | .enter _ _ _, [] => exact ⟨alike, rfl⟩
  | .leave _, [] => exact ⟨alike, rfl⟩
  | .leave _, [_] => exact ⟨alike, rfl⟩

theorem State.SameOutline.run {s t : State} (alike : s.SameOutline t) (actions : List Action) :
    (State.run config actions s).SameOutline (State.run other actions t) := by
  induction actions generalizing s t with
  | nil => exact alike
  | cons a actions ih => exact ih (alike.step config other a)

end

/-! ## Plans in two modes -/

/-- A context in another mode. -/
def Context.withConfig (ctx : Context) (config : Config) : Context :=
  { ctx with config := config }

/-- Of a configuration, looking things up knows the depth only. -/
theorem resolve_withConfig (ctx : Context) {other : Config} (modes : ctx.config.SameButModes other)
    (levels : Nat) : resolve (ctx.withConfig other) levels = resolve ctx levels := by
  induction levels with
  | zero =>
      funext typeName selections
      show Except.error (Error.compile (.depthExceeded other.maxDepth)) = _
      rw [← modes.maxDepth]
      rfl
  | succ levels ih =>
      funext typeName selections
      unfold resolve
      rw [ih]
      rfl

/-- Plans that are the same, or project with the same outlines. -/
inductive Plan.SameOutline : Plan → Plan → Prop where
  | same (plan : Plan) : SameOutline plan plan
  | projecting {b c : Builder} (alike : b.SameOutline c) :
      SameOutline (.projecting b) (.projecting c)

/-- Statements that differ in their texts only. -/
structure Compiled.SameButText (compiled other : Compiled) : Prop where
  language : compiled.language = other.language
  parameters : compiled.parameters = other.parameters
  aliases : compiled.aliases? = other.aliases?

theorem Plan.SameOutline.compiled {plan other : Plan} (alike : plan.SameOutline other) :
    plan.compiled.SameButText other.compiled := by
  cases alike with
  | same => exact ⟨rfl, rfl, rfl⟩
  | projecting alike => exact ⟨rfl, alike.parameters, rfl⟩

section

variable {ctx : Context} {root : Root} {field : Field} {start : Builder} {other : Config}
  (modes : ctx.config.SameButModes other)
include modes

/-- Projecting a root field behind the same clauses in two modes. -/
theorem projectSelection_modes (unframed : Unframed start) (closing : Closing) :
    SameOutcome id Builder.SameOutline
      (projectSelection ctx ctx.config.maxDepth root.returnType root.path start.frames.length
        field.selections (start.openFrame root.path closing))
      (projectSelection (ctx.withConfig other) other.maxDepth root.returnType root.path
        start.frames.length field.selections (start.openFrame root.path closing)) := by
  have second := projectSelection_root unframed (ctx.withConfig other) root field closing
  rw [resolve_withConfig ctx modes] at second
  rw [projectSelection_root unframed ctx root field closing]
  refine second ▸ modes.maxDepth ▸ SameOutcome.map (.of_eq rfl) ?_
  rintro entries _ rfl
  have opened : State.SameOutline ⟨start.openFrame root.path closing, [(0, root.path)]⟩
      ⟨start.openFrame root.path closing, [(0, root.path)]⟩ := ⟨.refl _, rfl⟩
  exact (opened.run ctx.config other (actionsOf entries)).builder

theorem projectRoot_modes (unframed : Unframed start) :
    SameOutcome id Plan.SameOutline (projectRoot ctx root field start)
      (projectRoot (ctx.withConfig other) root field start) := by
  unfold projectRoot
  refine (projectSelection_modes modes (unframed.limitRows root) (rootClosing root)).bind ?_
  exact fun b c _ _ alike => .ok (.projecting alike)

theorem projectWritten_modes (unframed : Unframed start) :
    SameOutcome id Plan.SameOutline (projectWritten ctx root field start)
      (projectWritten (ctx.withConfig other) root field start) := by
  unfold projectWritten
  by_cases empty : (field.selections.isEmpty || !root.returnsObject) = true
  · rw [if_pos empty, if_pos empty]
    exact .ok (.same _)
  · rw [if_neg empty, if_neg empty]
    refine (projectSelection_modes modes unframed (.root false none false)).bind ?_
    refine fun b c _ _ alike => .ok (.projecting (alike.later ?_ ?_))
    · split
      · exact .insertClause b _ rfl
      · exact .refl b
    · split
      · exact .insertClause c _ rfl
      · exact .refl c

theorem planRoot_modes :
    SameOutcome id Plan.SameOutline (Compiler.planRoot ctx root field)
      (Compiler.planRoot (ctx.withConfig other) root field) := by
  have refl (planned : Except Error Plan) : SameOutcome id Plan.SameOutline planned planned :=
    (SameOutcome.of_eq rfl).imp fun plan _ same => same ▸ .same plan
  exact @planRoot_related _ refl ctx (ctx.withConfig other) rfl root field field.selections rfl
    (fun _ unframed => projectRoot_modes modes unframed)
    fun _ unframed => projectWritten_modes modes unframed

end

namespace Compiler

theorem planDocument_modes (index : Index) {config other : Config}
    (modes : config.SameButModes other) (document : Operation.Document) (name? : Option String) :
    SameOutcome id Plan.SameOutline ((Compiler.mk index config).planDocument document name?)
      ((Compiler.mk index other).planDocument document name?) := by
  unfold planDocument
  dsimp only
  cases document.operation? name? with
  | none => exact .error rfl
  | some operation =>
      dsimp only
      cases operation.rootField? with
      | none => exact .error rfl
      | some field =>
          refine .bind (.of_eq rfl) ?_
          rintro root _ - - rfl
          exact @planRoot_modes ⟨index, config, operation.fragments⟩ _ _ _ modes

/-- In two modes that differ in how overrides are inlined only, an operation fails with the same
error, or comes to statements of one language with the same parameters, projected from the same
frames with the same variables, closings and keys. -/
theorem compileDocument_modes (index : Index) {config other : Config}
    (modes : config.SameButModes other) (document : Operation.Document) (name? : Option String) :
    let c : Compiler := ⟨index, config⟩
    let c' : Compiler := ⟨index, other⟩
    (∃ e, c.compileDocument document name? = .error e
        ∧ c'.compileDocument document name? = .error e)
      ∨ ∃ plan plan', c.planDocument document name? = .ok plan
          ∧ c'.planDocument document name? = .ok plan'
          ∧ c.compileDocument document name? = .ok plan.compiled
          ∧ c'.compileDocument document name? = .ok plan'.compiled
          ∧ plan.SameOutline plan' ∧ plan.compiled.SameButText plan'.compiled := by
  intro c c'
  have planned := planDocument_modes index modes document name?
  rw [compileDocument_eq, compileDocument_eq]
  generalize c.planDocument document name? = found, c'.planDocument document name? = found'
    at planned
  cases planned with
  | error same =>
      obtain rfl := same
      exact .inl ⟨_, rfl, rfl⟩
  | ok alike => exact .inr ⟨_, _, rfl, rfl, rfl, rfl, alike, alike.compiled⟩

/-- Persons with friends, who are counted by an override. -/
def countedIndex : Index := ⟨⟨[
  ⟨"Person", .object, [], [
    ⟨"name", ⟨"String", false, false⟩, [], []⟩,
    ⟨"friends", ⟨"Person", true, false⟩, [⟨"name", ⟨"String", false, false⟩, none, []⟩],
      [⟨"relationship", [("type", .string "knows")]⟩]⟩,
    ⟨"known", ⟨"Int", false, false⟩, [],
      [⟨"cypher", [("statement", .string "MATCH (this)-[:knows]->(f) RETURN count(f)")]⟩]⟩]⟩,
  ⟨"Query", .object, [], [⟨"person", ⟨"Person", false, false⟩, [], []⟩]⟩]⟩⟩

theorem compileDocument_modes_counted :
    let config : Config := {}
    let other : Config := { subqueryCalls := true, optionalOverrideMatches := false }
    let known : Selection := .field none "known" [] []
    let document : Operation.Document := ⟨[⟨none, .query, [.field none "person" [] [known,
      .field none "friends" [("name", .string "Bo")] [known, .field none "name" [] []]]], []⟩]⟩
    config.SameButModes other
      ∧ ∃ plan plan', (Compiler.mk countedIndex config).planDocument document none = .ok plan
        ∧ (Compiler.mk countedIndex other).planDocument document none = .ok plan'
        ∧ plan.compiled.text ≠ plan'.compiled.text
        ∧ plan.compiled.parameters.keys = ["person_Person_friends_name"]
        ∧ plan.SameOutline plan' ∧ plan.compiled.SameButText plan'.compiled := by
  intro config other known document
  have modes : config.SameButModes other := ⟨rfl, rfl⟩
  have shape : (((Compiler.mk countedIndex config).planDocument document none).toOption.any
      fun plan => ((Compiler.mk countedIndex other).planDocument document none).toOption.any
        fun plan' => plan.compiled.text != plan'.compiled.text
          && plan.compiled.parameters.keys == ["person_Person_friends_name"]) = true := by
    decide +kernel
  obtain ⟨plan, planned, shape⟩ := exists_ok_of_any shape
  obtain ⟨plan', planned', checked⟩ := exists_ok_of_any shape
  rw [Bool.and_eq_true, bne_iff_ne, beq_iff_eq] at checked
  refine ⟨modes, plan, plan', planned, planned', checked.1, checked.2, ?_⟩
  rcases compileDocument_modes countedIndex modes document none with
    ⟨e, failed, -⟩ | ⟨p, p', found, found', -, -, same⟩
  · rw [compileDocument_eq, planned] at failed
    cases failed
  · rw [planned] at found
    rw [planned'] at found'
    cases found
    cases found'
    exact same

end Compiler

end GraphBridge.Compile
