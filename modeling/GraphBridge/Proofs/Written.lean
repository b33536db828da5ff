import GraphBridge.Proofs.Anchoring
import GraphBridge.Proofs.Expansion

/-!
# Projecting behind a read and behind a write

A read projects its selection behind the clause that finds the root, a write behind the clauses that
write it. If no relationship field carries arguments, nothing in a projection looks at the clauses
in front of it or at the parameters bound there: both add the same clauses, open the same frames and
keep the same variables in scope. So the two statements differ in what is in front, in the `WITH`
that a write puts in between, and in the `LIMIT` of a read.
-/

namespace GraphBridge.Statement

/-- Builders that have gone on alike behind different clauses: the same clauses have been added to
both, the outermost frames differ at most in how they are closed, and the other frames and the
variables to be kept are the same. -/
structure Builder.GoneOnAlike (front back : List Clause) (x y : Closing) (b c : Builder) :
    Prop where
  clauses : ∃ added, b.clauses = front ++ added ∧ c.clauses = back ++ added
  frames : ∃ (f : Frame) (inner : List Frame), b.frames = { f with closing := x } :: inner
    ∧ c.frames = { f with closing := y } :: inner
  threads : b.threads = c.threads
  scope : b.scope = c.scope

namespace Builder.GoneOnAlike

variable {front back : List Clause} {x y : Closing} {b c : Builder}

theorem length_frames (alike : GoneOnAlike front back x y b c) :
    b.frames.length = c.frames.length := by
  obtain ⟨f, inner, first, second⟩ := alike.frames
  rw [first, second, List.length_cons, List.length_cons]

/-- Opening the outermost frame behind different clauses. -/
theorem start (closedFirst : b.frames = []) (closedSecond : c.frames = [])
    (threads : b.threads = c.threads) (scope : b.scope = c.scope) (path : String) :
    GoneOnAlike b.clauses c.clauses x y (b.openFrame path x) (c.openFrame path y) where
  clauses := ⟨[], by rw [clauses_openFrame, List.append_nil],
    by rw [clauses_openFrame, List.append_nil]⟩
  frames := ⟨⟨path, [], x⟩, [], by rw [frames_openFrame, closedFirst, List.nil_append],
    by rw [frames_openFrame, closedSecond, List.nil_append]⟩
  threads := by rw [threads_openFrame, threads_openFrame, threads]
  scope := by
    unfold openFrame bindScope
    dsimp only
    rw [scope]
    split <;> simp only

theorem addClause (alike : GoneOnAlike front back x y b c) (clause : Clause) :
    GoneOnAlike front back x y (b.addClause clause) (c.addClause clause) := by
  obtain ⟨added, first, second⟩ := alike.clauses
  refine { alike with clauses := ⟨added ++ [clause], ?_, ?_⟩ }
  · rw [Builder.addClause, first, List.append_assoc]
  · rw [Builder.addClause, second, List.append_assoc]

theorem bindScope (alike : GoneOnAlike front back x y b c) (name : String) :
    GoneOnAlike front back x y (b.bindScope name) (c.bindScope name) := by
  unfold Builder.bindScope
  rw [alike.scope]
  split
  · exact alike
  · exact { alike with scope := rfl }

theorem openFrame (alike : GoneOnAlike front back x y b c) (carryOver : String)
    (closing : Closing) :
    GoneOnAlike front back x y (b.openFrame carryOver closing) (c.openFrame carryOver closing) := by
  obtain ⟨f, inner, first, second⟩ := alike.frames
  have opened : GoneOnAlike front back x y
      { b with frames := b.frames ++ [⟨carryOver, [], closing⟩] }
      { c with frames := c.frames ++ [⟨carryOver, [], closing⟩] } := by
    refine { alike with frames := ⟨f, inner ++ [⟨carryOver, [], closing⟩], ?_, ?_⟩ }
    · rw [first, List.cons_append]
    · rw [second, List.cons_append]
  exact opened.bindScope carryOver

theorem project (alike : GoneOnAlike front back x y b c) (frame : Nat) (key : String)
    (e : Expression) :
    GoneOnAlike front back x y (b.project frame key e) (c.project frame key e) := by
  obtain ⟨f, inner, first, second⟩ := alike.frames
  refine { alike with frames := ?_ }
  unfold Builder.project
  dsimp only
  rw [first, second]
  cases frame with
  | zero => exact ⟨{ f with entries := f.entries ++ [(key, e)] }, inner, rfl, rfl⟩
  | succ frame => exact ⟨f, _, List.modify_succ_cons .., List.modify_succ_cons ..⟩

theorem thread (alike : GoneOnAlike front back x y b c) (name : String) (consumer : Nat)
    (producer? : Option Nat) :
    GoneOnAlike front back x y (b.thread name consumer producer?)
      (c.thread name consumer producer?) :=
  { alike with threads := by rw [Builder.thread, Builder.thread, alike.threads] }

theorem keepFor (alike : GoneOnAlike front back x y b c) (frame : Nat) (name : String) :
    GoneOnAlike front back x y (Compile.keepFor b frame name) (Compile.keepFor c frame name) :=
  (alike.bindScope name).thread name frame none

theorem keepMentioned (alike : GoneOnAlike front back x y b c) (frame : Nat)
    (tail : Query.Fragment) (names : List String) :
    GoneOnAlike front back x y (Compile.keepMentioned frame tail names b)
      (Compile.keepMentioned frame tail names c) := by
  unfold Compile.keepMentioned
  induction names generalizing b c with
  | nil => exact alike
  | cons name names ih =>
      rw [List.foldl_cons, List.foldl_cons]
      split
      · exact ih (alike.keepFor frame name)
      · exact ih alike

theorem addBody (alike : GoneOnAlike front back x y b c) (config : Config) (body : Inlined) :
    GoneOnAlike front back x y (Compile.addBody config b body) (Compile.addBody config c body) := by
  unfold Compile.addBody
  split
  · exact alike
  · exact alike.addClause _

/-- The `WITH` lines say nothing about the clauses, nor how the outermost frame is closed. -/
theorem withLines_eq (alike : GoneOnAlike front back x y b c) : b.withLines = c.withLines := by
  obtain ⟨f, inner, first, second⟩ := alike.frames
  have kept (place : Nat) : b.kept place = c.kept place := by
    unfold kept
    rw [List.map_take, List.map_take, first, second, alike.threads]
    rfl
  unfold withLines withLine
  simp only [kept]
  rw [first, second]
  rfl

/-- A clause that is put between what was there and what has been added. -/
theorem insertClause_between {front added : List Clause} {b : Builder}
    (clauses : b.clauses = front ++ added) (clause : Clause) :
    b.insertClause front.length clause = { b with clauses := front ++ [clause] ++ added } := by
  rw [Builder.insertClause, clauses, List.take_left, List.drop_left, List.append_assoc]
  rfl

/-- The lines of both: what was there in front, what has been added, and the frames with their
common body. The second may get one more clause where the added ones begin. -/
theorem lines_eq (alike : GoneOnAlike front back (.root false none true) (.root false none false)
    b c) :
    ∃ added body, b.clauses = front ++ added
      ∧ b.lines = front.map Clause.text ++ added.map Clause.text ++ b.withLines
          ++ ["RETURN " ++ body ++ " LIMIT 1"]
      ∧ ∀ clause : Clause,
          (if back.length < c.clauses.length then c.insertClause back.length clause else c).lines
            = back.map Clause.text ++ (if added = [] then [] else [clause.text])
              ++ added.map Clause.text ++ b.withLines ++ ["RETURN " ++ body] := by
  obtain ⟨added, clauses, clauses'⟩ := alike.clauses
  obtain ⟨f, inner, frames, frames'⟩ := alike.frames
  refine ⟨added, f.body, clauses, ?_, fun clause => ?_⟩
  · rw [lines, returnLines, clauses, frames, List.map_append, String.append_assoc]
    rfl
  have returned : c.returnLines = ["RETURN " ++ f.body] := by
    rw [returnLines, frames']
    rfl
  rw [← returned, alike.withLines_eq]
  by_cases none : added = []
  · subst none
    rw [List.append_nil] at clauses'
    rw [clauses', if_neg (Nat.lt_irrefl _), if_pos rfl, lines, clauses', List.map_nil,
      List.append_nil, List.append_nil]
  · have longer : back.length < c.clauses.length := by
      rw [clauses', List.length_append]
      exact Nat.lt_add_of_pos_right (List.length_pos_of_ne_nil none)
    rw [if_pos longer, if_neg none, insertClause_between clauses', lines, List.map_append,
      List.map_append]
    rfl

end Builder.GoneOnAlike

end GraphBridge.Statement

namespace GraphBridge.Compile

open Operation Query Schema Statement

/-! ## Actions that bind no parameters -/

/-- A way to reach nodes that no arguments restrict. -/
def Reach.IsUnfiltered : Reach → Prop
  | .relationship _ _ _ _ supplied => supplied = []
  | .override .. => True

/-- An action that binds no parameters. -/
def Action.IsUnfiltered : Action → Prop
  | .enter _ reach _ => reach.IsUnfiltered
  | .scalar .. | .leave _ => True

section Actions

variable {front back : List Clause} {x y : Closing} {b c : Builder} (config : Config)

theorem goneOnAlike_inlineScalar (alike : b.GoneOnAlike front back x y c) (bound : List String)
    (body tail : Fragment) (path key : String) (frame : Nat) :
    let made := inlineScalar config bound body tail path key frame b
    let made' := inlineScalar config bound body tail path key frame c
    made.1 = made'.1 ∧ made.2.GoneOnAlike front back x y made'.2 := by
  have behind := alike.addBody config ⟨body, scalarNames path (path ++ "_" ++ key) bound⟩
  unfold inlineScalar
  dsimp only
  split
  · exact ⟨rfl, (alike.addClause _).keepFor _ _⟩
  split
  · rw [behind.scope]
    exact ⟨rfl, (behind.addClause _).keepFor _ _⟩
  · exact ⟨rfl, behind.keepMentioned _ _ _⟩

theorem goneOnAlike_putScalar (alike : b.GoneOnAlike front back x y c) (frame : Nat)
    (path key : String) (value : Scalar) :
    (State.putScalar config b frame path key value).GoneOnAlike front back x y
      (State.putScalar config c frame path key value) := by
  unfold State.putScalar
  cases value with
  | typeName name => exact alike.project _ _ _
  | identity => exact alike.project _ _ _
  | property stored => exact alike.project _ _ _
  | override bound body tail =>
      obtain ⟨same, inlined⟩ := goneOnAlike_inlineScalar config alike bound body tail path key frame
      unfold Scalar.emit
      dsimp only
      rw [same]
      exact inlined.project _ _ _

theorem goneOnAlike_emit_reach (alike : b.GoneOnAlike front back x y c) (parent child : String)
    {reach : Reach} (bare : reach.IsUnfiltered) :
    (reach.emit config parent child b).GoneOnAlike front back x y
      (reach.emit config parent child c) := by
  cases reach with
  | relationship edgeType direction label identity? supplied =>
      obtain rfl : supplied = [] := bare
      exact alike.addClause _
  | override bound body returned => exact alike.addClause _

/-- States with the same open frames and builders that have gone on alike. -/
structure State.GoneOnAlike (front back : List Clause) (x y : Closing) (s t : State) : Prop where
  builder : s.builder.GoneOnAlike front back x y t.builder
  stack : s.stack = t.stack

/-- An action that binds no parameters goes on alike. -/
theorem State.GoneOnAlike.step {s t : State} (alike : s.GoneOnAlike front back x y t) {a : Action}
    (bare : a.IsUnfiltered) :
    (State.step config s a).GoneOnAlike front back x y (State.step config t a) := by
  obtain ⟨b, stack⟩ := s
  obtain ⟨c, _⟩ := t
  obtain ⟨alike, rfl⟩ := alike
  match a, stack with
  | .scalar key value, (frame, path) :: outer =>
      exact ⟨goneOnAlike_putScalar config alike frame path key value, rfl⟩
  | .enter key reach closing, (frame, path) :: outer =>
      have reached := goneOnAlike_emit_reach config alike path (path ++ "_" ++ key) bare
      refine ⟨reached.openFrame _ closing, ?_⟩
      exact congrArg (fun place => (place, _) :: (frame, path) :: outer) reached.length_frames
  | .leave key, (inner, child) :: (frame, path) :: outer =>
      exact ⟨(alike.project frame key (.named child)).thread child frame (some inner), rfl⟩
  | .scalar _ _, [] => exact ⟨alike, rfl⟩
  | .enter _ _ _, [] => exact ⟨alike, rfl⟩
  | .leave _, [] => exact ⟨alike, rfl⟩
  | .leave _, [_] => exact ⟨alike, rfl⟩

theorem State.GoneOnAlike.run {s t : State} (alike : s.GoneOnAlike front back x y t)
    {actions : List Action} (bare : ∀ a ∈ actions, a.IsUnfiltered) :
    (State.run config actions s).GoneOnAlike front back x y (State.run config actions t) := by
  induction actions generalizing s t with
  | nil => exact alike
  | cons a actions ih =>
      obtain ⟨first, others⟩ := List.forall_mem_cons.1 bare
      exact ih (alike.step config first) others

end Actions

/-! ## Selections without arguments on relationships -/

/-- No relationship that selections come to, on a type or on an object below it, has arguments. -/
def RelationshipsAreBare (ctx : Context) (typeName path : String) (selections : List Selection) :
    Prop :=
  ∀ owner place f, Projected ctx owner place f typeName path selections →
    ∀ d, IsObjectField ctx owner f d → ∀ edgeType direction,
      d.mapping = .relationship edgeType direction → f.arguments = []

/-- A grouped field is called like one of the fields, with the same arguments. -/
theorem exists_mem_of_groupFields {fields : List Field} :
    ∀ f ∈ groupFields fields, ∃ g ∈ fields, g.name = f.name ∧ g.arguments = f.arguments := by
  fun_induction groupFields fields with
  | case1 => exact List.forall_mem_nil _
  | case2 f rest ih =>
      refine List.forall_mem_cons.2 ⟨⟨f, List.mem_cons_self, rfl, rfl⟩, fun g mem => ?_⟩
      obtain ⟨other, later, same⟩ := ih g mem
      exact ⟨other, List.mem_cons_of_mem _ (List.mem_filter.1 later).1, same⟩

/-- What selections come to stands, with its arguments, in the selections or in a fragment. -/
theorem Projected.exists_mem {ctx : Context} {owner place typeName path : String} {f : Field}
    {selections : List Selection}
    (below : Projected ctx owner place f typeName path selections) {all : List Field}
    (known : ∀ d ∈ ctx.fragments, fieldsOf d.selections ⊆ all)
    (inside : fieldsOf selections ⊆ all) :
    ∃ g ∈ all, g.name = f.name ∧ g.arguments = f.arguments := by
  induction below with
  | here collected mem =>
      obtain ⟨g, among, same⟩ := exists_mem_of_groupFields f mem
      have selected := Selects.of_collectFields collected g among
      exact ⟨g, (selected.mem_fieldsOf known inside).1, same⟩
  | @inner typeName path selections fields g d collected mem _ _ ih =>
      have each : ∀ f ∈ fields, fieldsOf f.selections ⊆ all := fun f among =>
        ((Selects.of_collectFields collected f among).mem_fieldsOf known inside).2
      refine ih (forall_mem_groupFields (motive := fun s => fieldsOf s ⊆ all) ?_ each g mem)
      intro first second front back
      rw [fieldsOf_append]
      exact List.append_subset.2 ⟨front, back⟩

/-- It is enough that no field has arguments that is written anywhere in the selections or in a
fragment and is a relationship of some type. -/
theorem relationshipsAreBare_of_written {ctx : Context} {selections : List Selection}
    (each : ∀ f ∈ fieldsOf selections ++ ctx.fragments.flatMap fun d => fieldsOf d.selections,
      ∀ owner d, ctx.index.field owner f.name = .ok d → d.isObject = true →
        ∀ edgeType direction, d.mapping = .relationship edgeType direction → f.arguments = [])
    (typeName path : String) : RelationshipsAreBare ctx typeName path selections := by
  intro owner place f below d object edgeType direction mapped
  obtain ⟨g, mem, name, arguments⟩ := below.exists_mem
    (fun d mem _ inside => List.mem_append_right _ (List.mem_flatMap.2 ⟨d, mem, inside⟩))
    (List.subset_append_left _ _)
  rw [← arguments]
  exact each g mem owner d (name ▸ object.found) object.isObject edgeType direction mapped

theorem mem_actionsOf {a : Action} {entries : List Entry} :
    a ∈ actionsOf entries ↔ ∃ e ∈ entries, a ∈ e.actions := by
  induction entries with
  | nil => simp [actionsOf]
  | cons e rest ih => simp [actionsOf, ih]

/-- An entry is that of a scalar or of an object field. -/
theorem scalar_or_object {ctx : Context} {inner : Resolves} {typeName : String} {f : Field}
    {e : Entry} (found : resolveField ctx inner typeName f = .ok e) :
    (∃ value, e = .scalar f.responseKey value)
      ∨ ∃ d reach entries, IsObjectField ctx typeName f d ∧ resolveReach ctx d f = .ok reach
          ∧ inner d.graphType f.selections = .ok entries
          ∧ e = .object f.responseKey reach (closingOf d f) entries := by
  unfold resolveField at found
  split at found
  · cases found
    exact .inl ⟨_, rfl⟩
  rename_i plain
  obtain ⟨d, looked, found⟩ := mapError_bind_eq_ok found
  split at found
  · rename_i object
    obtain ⟨reach, reached, found⟩ := bind_eq_ok found
    obtain ⟨entries, selected, made⟩ := bind_eq_ok found
    cases made
    exact .inr ⟨d, reach, entries, ⟨by simpa using plain, looked, object⟩, reached, selected, rfl⟩
  · obtain ⟨value, valued, made⟩ := mapError_bind_eq_ok found
    cases made
    exact .inl ⟨value, rfl⟩

/-- What is reached without arguments binds no parameters. -/
theorem isUnfiltered_actions {ctx : Context} {levels : Nat} {typeName path : String}
    {selections : List Selection} (bare : RelationshipsAreBare ctx typeName path selections)
    {entries : List Entry} (resolved : resolve ctx levels typeName selections = .ok entries) :
    ∀ a ∈ actionsOf entries, a.IsUnfiltered := by
  induction levels generalizing typeName path selections entries with
  | zero => cases resolved
  | succ levels ih =>
      obtain ⟨fields, collected, looked⟩ := resolve_eq_ok resolved
      have each : ∀ e ∈ entries, ∀ a ∈ e.actions, a.IsUnfiltered := by
        refine forall_mem_of_mapM (fun f grouped e found => ?_) looked
        rcases scalar_or_object found with ⟨value, rfl⟩ | ⟨d, reach, inner, object, reached,
          selected, rfl⟩
        · exact List.forall_mem_singleton.2 trivial
        have unfiltered : reach.IsUnfiltered := by
          obtain ⟨edgeType, direction, label, supplied, mapped, -, given, rfl⟩ | ⟨_, _, _, _, -, -,
            -, -, rfl⟩ := resolveReach_cases reached
          · rw [bare typeName path f (.here collected grouped) d object edgeType direction mapped]
              at given
            cases given
            rfl
          · trivial
        have inside : ∀ a ∈ actionsOf inner, a.IsUnfiltered :=
          ih (fun owner place g below =>
            bare owner place g (.inner collected grouped object below)) selected
        rw [Entry.actions]
        refine List.forall_mem_cons.2 ⟨unfiltered, List.forall_mem_append.2 ⟨inside, ?_⟩⟩
        exact List.forall_mem_singleton.2 trivial
      intro a mem
      obtain ⟨e, among, own⟩ := mem_actionsOf.1 mem
      exact each e among a own

/-! ## Reads and writes -/

/-- What a write projects. -/
theorem projectWritten_eq {start : Builder} (unframed : Unframed start) (ctx : Context)
    {root : Root} {field : Field} (object : root.returnsObject = true)
    (nonempty : field.selections ≠ []) :
    projectWritten ctx root field start
      = (resolve ctx ctx.config.maxDepth root.returnType field.selections).map fun entries =>
          let b := (RootProjection.mk start root.path (.root false none false) entries).final
            ctx.config
          .projecting (if start.clauses.length < b.clauses.length
            then b.insertClause start.clauses.length (.keep root.path) else b) := by
  unfold projectWritten
  rw [if_neg (by simp [object, nonempty])]
  dsimp only
  rw [projectSelection_root unframed]
  cases resolve ctx ctx.config.maxDepth root.returnType field.selections <;> rfl

/-- A read and a write project the same selection alike. If no relationship has arguments, the one
fails when the other does, with the same error; and if they succeed, the clauses that are added, the
`WITH` lines and the body are the same, whatever stood in front. A write keeps its variable before
the added clauses, if there are any, and a read is cut to one row. -/
theorem projectWritten_projectRoot (ctx : Context) {readRoot writeRoot : Root}
    {readField writeField : Field} {read write : Builder} {found : Clause}
    (path : writeRoot.path = readRoot.path) (type : writeRoot.returnType = readRoot.returnType)
    (selections : writeField.selections = readField.selections)
    (object : writeRoot.returnsObject = true) (nonempty : readField.selections ≠ [])
    (singular : readRoot.returnsArray = false) (unlimited : readRoot.limit? = none)
    (unframed : Unframed read) (unframed' : Unframed write) (first : read.clauses = [found])
    (bare : RelationshipsAreBare ctx readRoot.returnType readRoot.path readField.selections) :
    (∀ e, projectRoot ctx readRoot readField read = .error e
        ↔ projectWritten ctx writeRoot writeField write = .error e)
      ∧ ∀ plan, projectRoot ctx readRoot readField read = .ok plan →
        ∃ (b c : Builder) (added : List Clause) (body : String), plan = .projecting b
          ∧ projectWritten ctx writeRoot writeField write = .ok (.projecting c)
          ∧ b.clauses = found :: added
          ∧ b.lines = found.text :: added.map Clause.text ++ b.withLines
              ++ ["RETURN " ++ body ++ " LIMIT 1"]
          ∧ c.lines = write.clauses.map Clause.text
              ++ (if added = [] then [] else ["WITH " ++ readRoot.path])
              ++ added.map Clause.text ++ b.withLines ++ ["RETURN " ++ body] := by
  have limit : limitRows read readRoot = read := by rw [limitRows, unlimited]
  have closing : rootClosing readRoot = .root false none true := by rw [rootClosing, singular]; rfl
  rw [projectRoot_eq unframed, projectWritten_eq unframed' ctx object (selections ▸ nonempty), type,
    selections, limit, closing]
  cases resolved : resolve ctx ctx.config.maxDepth readRoot.returnType readField.selections with
  | error e => exact ⟨fun e' => Iff.rfl, fun plan planned => nomatch planned⟩
  | ok entries =>
      refine ⟨fun e => ⟨fun failed => (nomatch failed), fun failed => (nomatch failed)⟩, ?_⟩
      rintro _ ⟨⟩
      -- both projections open their frame and do the same actions
      have opened : State.GoneOnAlike read.clauses write.clauses (.root false none true)
          (.root false none false) ⟨read.openFrame readRoot.path (.root false none true),
            [(0, readRoot.path)]⟩
          ⟨write.openFrame readRoot.path (.root false none false), [(0, readRoot.path)]⟩ :=
        ⟨.start unframed.frames unframed'.frames (by rw [unframed.threads, unframed'.threads])
          (by rw [unframed.scope, unframed'.scope]) _, rfl⟩
      have alike := (opened.run ctx.config (isUnfiltered_actions bare resolved)).builder
      obtain ⟨added, body, clauses, lines, lines'⟩ := alike.lines_eq
      rw [first] at clauses lines
      refine ⟨_, _, added, body, rfl, rfl, clauses, lines, ?_⟩
      rw [path]
      exact lines' (.keep readRoot.path)

/-- Persons with friends, who are counted by an override. -/
def befriendedIndex : Index := ⟨⟨[
  ⟨"Person", .object, [], [
    ⟨"name", ⟨"String", false, false⟩, [], []⟩,
    ⟨"friends", ⟨"Person", true, false⟩, [], [⟨"relationship", [("type", .string "knows")]⟩]⟩,
    ⟨"befriended", ⟨"Int", false, false⟩, [],
      [⟨"cypher", [("statement", .string "MATCH (this)<-[:knows]-(f) RETURN count(f)")]⟩]⟩]⟩]⟩⟩

theorem projectWritten_projectRoot_befriended :
    let counted : FragmentDefinition :=
      ⟨"Counted", "Person", [.field none "name" [] [], .field none "befriended" [] []]⟩
    let ctx : Context := ⟨befriendedIndex, {}, [counted]⟩
    let field : Field :=
      ⟨none, "person", [], [.field none "friends" [] [.spread "Counted"], .spread "Counted"]⟩
    let value : Supplied := ⟨"name", none, .string "Ada"⟩
    let read : Builder := ({} : Builder).addClause (.find ⟨"person_Person", "Person", ⟨[], []⟩⟩)
    let write : Builder := ((({} : Builder).referAll "person_Person" [value]).2).addClause
      (.createNode "person_Person" "Person" [⟨value, "person_Person_name"⟩])
    ∃ (b c : Builder) (added : List Clause) (body : String),
      projectRoot ctx (returningRoot none) field read = .ok (.projecting b)
      ∧ projectWritten ctx (returningRoot none) field write = .ok (.projecting c)
      ∧ added.length = 5
      ∧ b.lines = "MATCH (person_Person:`Person`)" :: added.map Clause.text ++ b.withLines
          ++ ["RETURN " ++ body ++ " LIMIT 1"]
      ∧ c.lines = ["CREATE (person_Person:`Person` \x7bname: $person_Person_name\x7d)",
            "WITH person_Person"]
          ++ added.map Clause.text ++ b.withLines ++ ["RETURN " ++ body] := by
  intro counted ctx field value read write
  have shape : (projected? (projectRoot ctx (returningRoot none) field read)).any
      (fun b => b.clauses.length == 6) = true := by
    decide +kernel
  obtain ⟨b, planned, count⟩ := exists_projecting shape
  have none : ∀ f ∈ fieldsOf field.selections ++ ctx.fragments.flatMap fun d =>
      fieldsOf d.selections, f.arguments = [] := by
    simp [field, ctx, counted, fieldsOf, Selection.fields]
  have bare : RelationshipsAreBare ctx "Person" "person_Person" field.selections :=
    relationshipsAreBare_of_written (fun f mem _ _ _ _ _ _ _ => none f mem) _ _
  have unframed : Unframed read := Unframed.empty.addClause _
  have unframed' : Unframed write := (Unframed.empty.referAll _ _).addClause _
  obtain ⟨-, same⟩ := @projectWritten_projectRoot ctx (returningRoot .none) (returningRoot .none)
    field field read write _ rfl rfl rfl rfl (List.cons_ne_nil _ _) rfl rfl unframed unframed' rfl
    bare
  obtain ⟨_, c, added, body, ⟨⟩, written, clauses, lines, lines'⟩ := same _ planned
  rw [clauses, List.length_cons, beq_iff_eq] at count
  have five : added.length = 5 := Nat.succ.inj count
  rw [if_neg (List.ne_nil_of_length_eq_add_one five)] at lines'
  exact ⟨b, c, added, body, planned, written, five, lines, lines'⟩

end GraphBridge.Compile
