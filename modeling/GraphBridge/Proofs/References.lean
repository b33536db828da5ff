import GraphBridge.Proofs.Parameters
import GraphBridge.Proofs.Provenance

/-!
# Parameters of a statement

References to parameters are written in clauses, while values are put into a table. This module ties
the two together: at every moment of a compilation, the parameters in the table are those that the
clauses refer to, and each has the value that is supplied for it by the field which stands at the
variable of the clause. Since the text of a statement is lexed into the parameters of its
references, the parameter tokens of a compiled text and the table have the same names.
-/

namespace GraphBridge.Statement

/-- The variable of the node or the edge that a clause is about; query text taken over has none. -/
def Clause.subject? : Clause → Option String
  | .find node | .reach _ _ node => some node.name
  | .limit name _ | .keep name | .createNode name .. | .findNode name _ | .set name _
  | .findEnds name .. | .createEdge name .. | .findEdge name .. | .deleteNode name
  | .deleteEdge name => some name
  | .inlined .. | .aggregate .. | .subquery .. => none

end GraphBridge.Statement

namespace GraphBridge.Compile

open Grammar Operation Query Schema Statement Text

variable {o : Origin} {arguments : Table Json} {b b' : Builder}

/-! ## Binding references -/

theorem isIdentifier_candidate {name : String} (isName : isIdentifier name = true)
    (attempt : Nat) : isIdentifier (Builder.candidate name attempt) = true := by
  unfold Builder.candidate
  split
  · exact isName
  · have digits : (toString (attempt + 1)).toList.all isIdentifierPart = true := by
      obtain ⟨c, rest, shape, first, others⟩ := Spelled.digits_toString (attempt + 1)
      rw [shape, List.all_cons, (identifier_of_isDigit first).1, Bool.true_and, List.all_eq_true]
      intro d mem
      exact (identifier_of_isDigit (List.all_eq_true.1 others d mem)).1
    have underscore : isIdentifier (name ++ "_") = true :=
      isIdentifier_append isName (by decide +kernel)
    exact isIdentifier_append underscore digits

/-- References with usable names, to values that arguments supply, take a builder to another, which
differs from it in its parameters only. -/
structure Refers (arguments : Table Json) (b : Builder) (references : List Reference)
    (b' : Builder) : Prop where
  clauses : b'.clauses = b.clauses
  frames : b'.frames = b.frames
  threads : b'.threads = b.threads
  binding : Binding b.parameters references b'.parameters
  named : ∀ r ∈ references, r.IsNamed
  supplies : ∀ r ∈ references, Supplies arguments r.supplied.name r.supplied.value

namespace Refers

variable {references more : List Reference}

theorem nil (b : Builder) : Refers arguments b [] b where
  clauses := rfl
  frames := rfl
  threads := rfl
  binding := .nil _
  named := List.forall_mem_nil _
  supplies := List.forall_mem_nil _

theorem append {b'' : Builder} (first : Refers arguments b references b')
    (second : Refers arguments b' more b'') : Refers arguments b (references ++ more) b'' where
  clauses := second.clauses.trans first.clauses
  frames := second.frames.trans first.frames
  threads := second.threads.trans first.threads
  binding := first.binding.append second.binding
  named := List.forall_mem_append.2 ⟨first.named, second.named⟩
  supplies := List.forall_mem_append.2 ⟨first.supplies, second.supplies⟩

theorem refer (b : Builder) {name : String} (isName : isIdentifier name = true) {s : Supplied}
    (supplied : ComesFrom arguments s) :
    Refers arguments b [(b.refer name s).1] (b.refer name s).2 where
  clauses := by simp
  frames := by simp
  threads := by simp
  binding := .refer b name s
  named := by
    refine List.forall_mem_singleton.2 ⟨?_, supplied.property⟩
    have parameter : (b.refer name s).1.parameter = b.parameterName name s.value := by
      unfold Builder.refer
      rcases b.bindParameter_cases name s.value with ⟨_, -, -, shape⟩ | ⟨-, shape⟩ <;> rw [shape]
    obtain ⟨attempt, chosen⟩ := b.parameterName_eq_candidate name s.value
    rw [parameter, chosen]
    exact isIdentifier_candidate isName attempt
  supplies := List.forall_mem_singleton.2 supplied.supplies

theorem referAll (b : Builder) {path : String} (isPath : isIdentifier path = true)
    {supplied : List Supplied} (each : ∀ s ∈ supplied, ComesFrom arguments s) :
    Refers arguments b (b.referAll path supplied).1 (b.referAll path supplied).2 := by
  induction supplied generalizing b with
  | nil => exact nil b
  | cons s rest ih =>
      obtain ⟨first, others⟩ := List.forall_mem_cons.1 each
      rw [Builder.referAll_cons]
      have name := isIdentifier_join isPath (isIdentifier_of_isName first.name)
      exact (refer b name first).append (ih _ others)

end Refers

/-- The conditions on a node refer to what was bound for it. -/
theorem mem_references_filterFor (path : String) (identity? : Option String)
    (supplied : List Supplied) (r : Reference) :
    r ∈ (filterFor b path identity? supplied).1.references
      ↔ r ∈ (b.referAll path supplied).1 := by
  simp only [filterFor, Filter.references, List.mem_append, List.mem_filter]
  cases isIdentity identity? r.supplied <;> simp

/-! ## Sound builders -/

/-- A value is supplied for a clause by a field that stands at the variable of the clause. -/
def SuppliedFor (o : Origin) (clause : Clause) (s : Supplied) : Prop :=
  ∃ path f, clause.subject? = some path ∧ o.Stands path f ∧ Supplies f.arguments s.name s.value

/-- A builder with usable names, whose parameters are those that its clauses refer to, each bound to
the value that is supplied for the clause. -/
structure Sound (o : Origin) (b : Builder) : Prop where
  named : b.IsNamed
  binding : Binding [] b.references b.parameters
  supplied : ∀ clause ∈ b.clauses, ∀ r ∈ clause.references, SuppliedFor o clause r.supplied

namespace Sound

theorem empty : Sound o {} where
  named := ⟨List.forall_mem_nil _, List.forall_mem_nil _, List.forall_mem_nil _⟩
  binding := .nil _
  supplied := List.forall_mem_nil _

/-- Binding nothing keeps a builder sound. -/
theorem rebind (sound : Sound o b) (refers : Refers arguments b [] b') : Sound o b' where
  named := by
    refine ⟨?_, ?_, ?_⟩
    · rw [refers.clauses]
      exact sound.named.clauses
    · rw [refers.frames]
      exact sound.named.frames
    · rw [refers.threads]
      exact sound.named.threads
  binding := by
    rw [Builder.references, refers.clauses, ← List.append_nil (List.flatMap _ _)]
    exact sound.binding.append refers.binding
  supplied := by
    rw [refers.clauses]
    exact sound.supplied

/-- A clause that writes exactly the references that were bound for it keeps a builder sound. -/
theorem addClause {references : List Reference} (sound : Sound o b)
    (refers : Refers arguments b references b') {clause : Clause} (named : clause.IsNamed)
    (written : ∀ r, r ∈ clause.references ↔ r ∈ references)
    (supplied : ∀ r ∈ clause.references, SuppliedFor o clause r.supplied) :
    Sound o (b'.addClause clause) := by
  have shape : (b'.addClause clause).references = b.references ++ clause.references := by
    simp [Builder.references, Builder.addClause, refers.clauses]
  refine ⟨⟨?_, ?_, ?_⟩, ?_, ?_⟩
  · rw [Builder.addClause, refers.clauses]
    exact List.forall_mem_append.2 ⟨sound.named.clauses, List.forall_mem_singleton.2 named⟩
  · rw [Builder.addClause, refers.frames]
    exact sound.named.frames
  · rw [Builder.addClause, refers.threads]
    exact sound.named.threads
  · rw [shape]
    exact sound.binding.append (refers.binding.congr written)
  · rw [Builder.addClause, refers.clauses]
    exact List.forall_mem_append.2 ⟨sound.supplied, List.forall_mem_singleton.2 supplied⟩

/-- A clause without references. -/
theorem addPlainClause (sound : Sound o b) {clause : Clause} (named : clause.IsNamed)
    (plain : clause.references = []) : Sound o (b.addClause clause) := by
  have refers : Refers [] b [] b := .nil b
  refine sound.addClause refers named ?_ ?_
  · simp [plain]
  · simp [plain]

/-- A clause that refers to what the field at its variable supplies. -/
theorem addReferring {path : String} {f : Field} {references : List Reference} (sound : Sound o b)
    (stands : o.Stands path f) (refers : Refers f.arguments b references b') {clause : Clause}
    (subject : clause.subject? = some path) (named : clause.IsNamed)
    (written : ∀ r, r ∈ clause.references ↔ r ∈ references) : Sound o (b'.addClause clause) :=
  sound.addClause refers named written fun r mem =>
    ⟨path, f, subject, stands, refers.supplies r ((written r).1 mem)⟩

theorem insertKeep (sound : Sound o b) (place : Nat) {path : String}
    (isPath : isIdentifier path = true) : Sound o (b.insertClause place (.keep path)) := by
  have shape : (b.insertClause place (.keep path)).references = b.references := by
    rw [Builder.references, Builder.references, Builder.insertClause, List.flatMap_append,
      List.flatMap_cons]
    show _ ++ ([] ++ _) = _
    rw [List.nil_append, ← List.flatMap_append, List.take_append_drop]
  -- the clause stands among those that were there
  have inserted {holds : Clause → Prop} (own : holds (.keep path))
      (others : ∀ clause ∈ b.clauses, holds clause) :
      ∀ clause ∈ (b.insertClause place (.keep path)).clauses, holds clause := by
    intro clause mem
    rcases List.mem_append.1 mem with front | back
    · exact others clause (List.mem_of_mem_take front)
    · rcases List.mem_cons.1 back with rfl | behind
      · exact own
      · exact others clause (List.mem_of_mem_drop behind)
  refine ⟨⟨?_, sound.named.frames, sound.named.threads⟩, ?_, ?_⟩
  · exact inserted isPath sound.named.clauses
  · rw [shape]
    exact sound.binding
  · exact inserted (List.forall_mem_nil _) sound.supplied

theorem openFrame (sound : Sound o b) {path : String} (isPath : isIdentifier path = true)
    (closing : Closing) : Sound o (b.openFrame path closing) := by
  refine ⟨⟨?_, ?_, ?_⟩, ?_, ?_⟩
  · rw [Builder.clauses_openFrame]
    exact sound.named.clauses
  · rw [Builder.frames_openFrame]
    exact List.forall_mem_append.2
      ⟨sound.named.frames, List.forall_mem_singleton.2 ⟨isPath, List.forall_mem_nil _⟩⟩
  · rw [Builder.threads_openFrame]
    exact sound.named.threads
  · rw [Builder.references, Builder.clauses_openFrame, Builder.parameters_openFrame]
    exact sound.binding
  · rw [Builder.clauses_openFrame]
    exact sound.supplied

theorem project (sound : Sound o b) (frame : Nat) {key : String} (isKey : isName key = true)
    {expression : Expression} (named : expression.IsNamed) :
    Sound o (b.project frame key expression) where
  named := by
    refine ⟨sound.named.clauses, fun f mem => ?_, sound.named.threads⟩
    obtain ⟨place, found⟩ := List.mem_iff_getElem?.1 mem
    rw [Builder.getElem?_frames_project, Option.map_eq_some_iff] at found
    obtain ⟨g, old, rfl⟩ := found
    have before := sound.named.frames g (List.mem_of_getElem? old)
    split
    · exact ⟨before.carryOver, List.forall_mem_append.2 ⟨before.entries,
        List.forall_mem_singleton.2 ⟨isIdentifier_of_isName isKey, named⟩⟩⟩
    · exact before
  binding := sound.binding
  supplied := sound.supplied

theorem thread (sound : Sound o b) {name : String} (isName : isIdentifier name = true)
    (consumer : Nat) (producer? : Option Nat) : Sound o (b.thread name consumer producer?) where
  named := ⟨sound.named.clauses, sound.named.frames,
    List.forall_mem_append.2 ⟨sound.named.threads, List.forall_mem_singleton.2 isName⟩⟩
  binding := sound.binding
  supplied := sound.supplied

end Sound

/-! ## Projections -/

/-- A sound builder with a frame to project into. -/
structure Framed (o : Origin) (b : Builder) : Prop where
  sound : Sound o b
  frames : b.frames ≠ []

namespace Framed

variable {config : Config} {path key : String}

theorem openFrame (sound : Sound o b) (isPath : isIdentifier path = true) (closing : Closing) :
    Framed o (b.openFrame path closing) where
  sound := sound.openFrame isPath closing
  frames := by simp

theorem project (framed : Framed o b) (frame : Nat) (isKey : isName key = true)
    {expression : Expression} (named : expression.IsNamed) :
    Framed o (b.project frame key expression) where
  sound := framed.sound.project frame isKey named
  frames := by
    intro none
    have length := b.length_frames_project frame key expression
    rw [none] at length
    exact framed.frames (List.length_eq_zero_iff.1 length.symm)

theorem putScalar (framed : Framed o b) (frame : Nat) (isPath : isIdentifier path = true)
    (isKey : isName key = true) {value : Scalar} (bare : value.IsBare) :
    Framed o (State.putScalar config b frame path key value) := by
  cases value with
  | typeName name => exact framed.project frame isKey .intro
  | identity => exact framed.project frame isKey isPath
  | property stored => exact framed.project frame isKey ⟨isPath, Quotable.of_isIdentifier bare⟩
  | override bound body tail => cases bare

theorem putObject (framed : Framed o b) (frame inner : Nat) (isKey : isName key = true)
    {child : String} (isChild : isIdentifier child = true) :
    Framed o (State.putObject b frame inner key child) := by
  have named : (Expression.named child).IsNamed := isChild
  have put := framed.project frame isKey named
  exact ⟨put.sound.thread isChild frame (some inner), put.frames⟩

end Framed

theorem Sound.reach (config : Config) (sound : Sound o b) {parent child : String}
    (isParent : isIdentifier parent = true) (isChild : isIdentifier child = true) {f : Field}
    (stands : o.Stands child f) {reach : Reach} (bare : reach.IsBare f.arguments) :
    Sound o (reach.emit config parent child b) := by
  cases reach with
  | override bound body returned => cases bare
  | relationship edgeType direction label identity? supplied =>
      obtain ⟨isType, isLabel, given⟩ := bare
      have refers : Refers f.arguments b _ _ := .referAll b isChild given
      have same := @mem_references_filterFor b child identity? supplied
      exact sound.addReferring stands refers rfl
        ⟨isParent, ⟨isIdentifier_join isChild isType, isType⟩, isChild,
          Quotable.of_isIdentifier isLabel, fun r mem => refers.named r ((same r).1 mem)⟩ same

section Emit

variable {config : Config}

mutual

/-- An entry with usable names keeps a builder sound. -/
theorem Framed.emitEntry {b : Builder} (framed : Framed o b) {path : String}
    (isPath : isIdentifier path = true) (frame : Nat) (outer : List (Nat × String)) (e : Entry)
    (bare : e.IsBare o path) : Framed o (emitEntry config path frame outer b e) := by
  match e with
  | .scalar key value => exact framed.putScalar frame isPath bare.1 bare.2
  | .object key reach closing entries =>
      obtain ⟨isKey, ⟨f, stands, reached⟩, inner⟩ := bare
      have isChild := isIdentifier_join isPath (isIdentifier_of_isName isKey)
      have opened := Framed.openFrame (framed.sound.reach config isPath isChild stands reached)
        isChild closing
      rw [emitEntry_object]
      exact (opened.emit isChild _ _ entries inner).putObject frame _ isKey isChild

/-- Entries with usable names keep a builder sound, one after the other. -/
theorem Framed.emit {b : Builder} (framed : Framed o b) {path : String}
    (isPath : isIdentifier path = true) (frame : Nat) (outer : List (Nat × String))
    (entries : List Entry) (bare : AreBare o path entries) :
    Framed o (emit config path frame outer entries b) := by
  match entries with
  | [] => exact framed
  | e :: rest =>
      rw [emit_cons]
      exact (framed.emitEntry isPath frame outer e bare.1).emit isPath frame outer rest bare.2

end

/-- A projection behind sound clauses is sound. -/
theorem RootProjection.framed_final (p : RootProjection) (sound : Sound o p.start)
    (isPath : isIdentifier p.path = true) (bare : AreBare o p.path p.entries) :
    Framed o (p.final config) :=
  (Framed.openFrame sound isPath p.closing).emit isPath 0 [] p.entries bare

end Emit

/-! ## Plans -/

namespace Plan

/-- The clauses of a plan. -/
def clauses : Plan → List Clause
  | .projecting b | .returning b _ => b.clauses
  | .traversal .. | .verbatim .. => []

/-- The references that a plan writes. -/
def references (plan : Plan) : List Reference :=
  plan.clauses.flatMap Clause.references

/-- A plan of a sound builder that can be written out. -/
def IsSound (o : Origin) : Plan → Prop
  | .projecting b => Framed o b
  | .returning b expression => Sound o b ∧ expression.IsNamed
  | .traversal .. | .verbatim .. => False

end Plan

/-- A root field of an operation with usable names, on a schema with usable names. -/
structure Rooted (o : Origin) (ctx : Context) (root : Root) (field : Field) : Prop where
  origin : o = ⟨ctx.fragments, root.path, field⟩
  schema : ctx.index.IsBare
  root : root.IsBare
  usable : o.IsUsable

namespace Rooted

variable {ctx : Context} {root : Root} {field : Field} {start : Builder} {plan : Plan}

theorem stands (rooted : Rooted o ctx root field) : o.Stands root.path field := by
  rw [rooted.origin]
  exact .root

theorem areUsable (rooted : Rooted o ctx root field) : AreUsable field.arguments :=
  rooted.usable.arguments rooted.stands

/-- What is selected on a root field has usable names. -/
theorem areBare (rooted : Rooted o ctx root field) {entries : List Entry}
    (resolved : resolve ctx ctx.config.maxDepth root.returnType field.selections = .ok entries) :
    AreBare o root.path entries :=
  areBare_resolve rooted.usable rooted.schema (by rw [rooted.origin]) rooted.stands.occurs.inner
    resolved

theorem limitRows (rooted : Rooted o ctx root field) (sound : Sound o start) :
    Sound o (limitRows start root) := by
  unfold Compile.limitRows
  split
  · exact sound.addPlainClause rooted.root.path rfl
  · exact sound

theorem projectRoot (rooted : Rooted o ctx root field) (sound : Sound o start)
    (unframed : Unframed start) (planned : projectRoot ctx root field start = .ok plan) :
    plan.IsSound o := by
  rw [projectRoot_eq unframed] at planned
  cases resolved : resolve ctx ctx.config.maxDepth root.returnType field.selections with
  | error e => simp [resolved, Except.map] at planned
  | ok entries =>
      rw [resolved] at planned
      cases planned
      exact RootProjection.framed_final _ (rooted.limitRows sound) rooted.root.path
        (rooted.areBare resolved)

theorem projectWritten (rooted : Rooted o ctx root field) (sound : Sound o start)
    (unframed : Unframed start) (planned : projectWritten ctx root field start = .ok plan) :
    plan.IsSound o := by
  have projected {b : Builder} (same : plan = .projecting b) : plan.IsSound o := by
    subst same
    obtain ⟨entries, yields⟩ := projectWritten_yields unframed planned
    have final : Framed o (RootProjection.final _ ctx.config) := RootProjection.framed_final
      ⟨start, root.path, .root false none false, entries⟩ sound rooted.root.path
      (rooted.areBare yields.resolved)
    rcases yields.builder with rfl | rfl
    · exact final
    · exact ⟨final.sound.insertKeep _ rooted.root.path,
        by simpa [Builder.insertClause] using final.frames⟩
  simp only [Compile.projectWritten, bind, Except.bind] at planned
  split at planned
  · cases planned
    exact ⟨sound, rooted.root.path⟩
  · split at planned
    · cases planned
    · exact projected (Except.ok.inj planned).symm

theorem planRead (rooted : Rooted o ctx root field)
    (planned : planRead ctx root field = .ok plan) : plan.IsSound o := by
  obtain ⟨supplied, given, projected⟩ := planRead_eq_ok planned
  have each := comesFrom_suppliedByArguments rooted.areUsable rooted.schema
    rooted.root.arguments (List.Subset.refl _) given
  have refers : Refers field.arguments {} _ _ := .referAll {} rooted.root.path each
  have same := @mem_references_filterFor {} root.path (ctx.index.identityField? root.returnType)
    supplied
  refine rooted.projectRoot ?_ ?_ projected
  · exact Sound.empty.addReferring rooted.stands refers rfl ⟨rooted.root.path,
      Quotable.of_isIdentifier rooted.root.label, fun r mem => refers.named r ((same r).1 mem)⟩ same
  · exact (Unframed.empty.referAll _ _).addClause _

end Rooted

/-! ## Writes -/

section Writes

variable {path : String} {f : Field}

theorem Refers.whereId (b : Builder) (isPath : isIdentifier path = true) {s : Supplied}
    (supplied : ComesFrom arguments s) :
    Refers arguments b [(b.refer (path ++ "_whereId") s).1] (b.refer (path ++ "_whereId") s).2 :=
  .refer b (isIdentifier_append isPath (by decide +kernel)) supplied

theorem Refers.endpoints (b : Builder) (isPath : isIdentifier path = true)
    {ends : Supplied × Supplied}
    (supplied : ComesFrom arguments ends.1 ∧ ComesFrom arguments ends.2) :
    Refers arguments b [(bindEndpoints b path ends).1.1, (bindEndpoints b path ends).1.2]
      (bindEndpoints b path ends).2 := by
  have source : Refers arguments b [(b.refer (path ++ "_whereFromId") ends.1).1]
      (b.refer (path ++ "_whereFromId") ends.1).2 :=
    .refer b (isIdentifier_append isPath (by decide +kernel)) supplied.1
  exact source.append
    (.refer _ (isIdentifier_append isPath (by decide +kernel)) supplied.2)

theorem Refers.input (b : Builder) (isPath : isIdentifier path = true) {input : List Supplied}
    (given : ∀ s ∈ input, ComesFrom arguments s) :
    Refers arguments b (bindInput b path input).1 (bindInput b path input).2 :=
  .referAll b isPath fun s mem => given s (List.mem_filter.1 mem).1

theorem Refers.edge {g : Given} (known : g.IsUsable arguments) {root : Root}
    (isPath : isIdentifier root.path = true) {key : EdgeKey}
    (bound : bindEdge g root b = .ok (key, b')) : Refers arguments b key.references b' := by
  unfold bindEdge at bound
  split at bound
  · rename_i ends found
    cases bound
    exact .endpoints b isPath (Given.comesFrom_endpoints known found)
  · split at bound
    · rename_i id own
      cases bound
      exact .whereId b isPath (Given.comesFrom_ownId? known own)
    · cases bound

theorem Sound.matchNode (sound : Sound o b) (stands : o.Stands path f)
    (isPath : isIdentifier path = true) {s : Supplied} (supplied : ComesFrom f.arguments s) :
    Sound o (matchNode b path s) := by
  have refers : Refers f.arguments b _ _ := .whereId b isPath supplied
  exact sound.addReferring stands refers rfl
    ⟨isPath, List.forall_mem_singleton.1 refers.named⟩ fun _ => Iff.rfl

theorem Sound.findEnds (sound : Sound o b) (stands : o.Stands path f)
    (isPath : isIdentifier path = true) {ends : Supplied × Supplied}
    (supplied : ComesFrom f.arguments ends.1 ∧ ComesFrom f.arguments ends.2) :
    Sound o ((bindEndpoints b path ends).2.addClause
      (.findEnds path (bindEndpoints b path ends).1.1 (bindEndpoints b path ends).1.2)) := by
  have refers : Refers f.arguments b _ _ := .endpoints b isPath supplied
  obtain ⟨source, target⟩ := List.forall_mem_cons.1 refers.named
  exact sound.addReferring stands refers rfl
    ⟨isPath, source, List.forall_mem_singleton.1 target⟩ fun _ => Iff.rfl

theorem Sound.setClause (sound : Sound o b) (stands : o.Stands path f)
    (isPath : isIdentifier path = true) {input : List Supplied}
    (given : ∀ s ∈ input, ComesFrom f.arguments s) (skipped? : Option String) :
    Sound o (setClause b path input skipped?) := by
  obtain ⟨supplied, part, ⟨none, shape⟩ | ⟨some, shape⟩⟩ := setClause_cases b path input skipped?
  -- without a clause nothing may have been bound
  · have refers : Refers f.arguments b _ _ := .referAll b isPath fun s mem => given s (part mem)
    rw [none] at refers
    rw [shape]
    exact sound.rebind refers
  · have refers : Refers f.arguments b _ _ := .referAll b isPath fun s mem => given s (part mem)
    rw [shape]
    exact sound.addReferring stands refers rfl ⟨isPath, some, refers.named⟩ fun _ => Iff.rfl

end Writes

namespace Rooted

variable {ctx : Context} {root : Root} {field : Field} {plan : Plan} {g : Given}
  {typeName : String}

theorem createNode (rooted : Rooted o ctx root field) (known : g.IsUsable field.arguments)
    (quotable : Quotable (writtenLabel ctx.index typeName))
    (planned : createNode ctx root field g typeName = .ok plan) : plan.IsSound o := by
  have refers : Refers field.arguments {} _ _ := .input {} rooted.root.path known.input
  refine rooted.projectWritten ?_ ((Unframed.empty.referAll _ _).addClause _) planned
  exact Sound.empty.addReferring rooted.stands refers rfl
    ⟨rooted.root.path, quotable, refers.named⟩ fun _ => Iff.rfl

theorem updateNode (rooted : Rooted o ctx root field) (known : g.IsUsable field.arguments)
    (planned : updateNode ctx root field g = .ok plan) : plan.IsSound o := by
  obtain ⟨id, found, written⟩ := mapError_bind_eq_ok planned
  have supplied := Given.comesFrom_nodeId known found
  refine rooted.projectWritten ?_ ((Unframed.empty.matchNode _ _).setClause _ _ _) written
  have matched := Sound.empty.matchNode rooted.stands rooted.root.path supplied
  exact matched.setClause rooted.stands rooted.root.path known.input _

theorem deleteNode (rooted : Rooted o ctx root field) (known : g.IsUsable field.arguments)
    (planned : deleteNode ctx root g = .ok plan) : plan.IsSound o := by
  obtain ⟨id, found, made⟩ := mapError_bind_eq_ok planned
  cases made
  have supplied := Given.comesFrom_nodeId known found
  have matched := Sound.empty.matchNode rooted.stands rooted.root.path supplied
  exact ⟨matched.addPlainClause rooted.root.path rfl, .intro⟩

theorem connectEdge (rooted : Rooted o ctx root field) (known : g.IsUsable field.arguments)
    (quotable : Quotable (writtenLabel ctx.index typeName))
    (planned : connectEdge ctx root field g typeName = .ok plan) : plan.IsSound o := by
  obtain ⟨ends, found, written⟩ := mapError_bind_eq_ok planned
  have supplied := Given.comesFrom_endpoints known found
  have matched := Sound.empty.findEnds rooted.stands rooted.root.path supplied
  have refers := fun b => Refers.input b rooted.root.path known.input
  refine rooted.projectWritten ?_
    ((((Unframed.empty.bindEndpoints _ _).addClause _).referAll _ _).addClause _) written
  exact matched.addReferring rooted.stands (refers _) rfl
    ⟨rooted.root.path, quotable, (refers _).named⟩ fun _ => Iff.rfl

theorem foundEdge (rooted : Rooted o ctx root field) (known : g.IsUsable field.arguments)
    (quotable : Quotable (writtenLabel ctx.index typeName)) {key : EdgeKey}
    (bound : bindEdge g root {} = .ok (key, b)) :
    Sound o (b.addClause (.findEdge root.path (writtenLabel ctx.index typeName) key)) := by
  have refers := Refers.edge known rooted.root.path bound
  exact Sound.empty.addReferring rooted.stands refers rfl
    ⟨rooted.root.path, quotable, refers.named⟩ fun _ => Iff.rfl

theorem updateEdge (rooted : Rooted o ctx root field) (known : g.IsUsable field.arguments)
    (quotable : Quotable (writtenLabel ctx.index typeName))
    (planned : updateEdge ctx root field g typeName = .ok plan) : plan.IsSound o := by
  obtain ⟨⟨key, b⟩, bound, written⟩ := mapError_bind_eq_ok planned
  have found := rooted.foundEdge known quotable bound
  refine rooted.projectWritten ?_
    (((Unframed.empty.bindEdge bound).addClause _).setClause _ _ _) written
  exact found.setClause rooted.stands rooted.root.path known.input none

theorem deleteEdge (rooted : Rooted o ctx root field) (known : g.IsUsable field.arguments)
    (quotable : Quotable (writtenLabel ctx.index typeName))
    (planned : deleteEdge ctx root g typeName = .ok plan) : plan.IsSound o := by
  obtain ⟨⟨key, b⟩, bound, made⟩ := mapError_bind_eq_ok planned
  cases made
  have found := rooted.foundEdge known quotable bound
  exact ⟨found.addPlainClause rooted.root.path rfl, .intro⟩

/-- Each of the six templates writes what it binds. -/
theorem planWrite (rooted : Rooted o ctx root field)
    (planned : planWrite ctx root field = .ok plan) : plan.IsSound o := by
  unfold Compile.planWrite at planned
  split at planned
  · cases planned
  rename_i shape typeName classified
  have quotable := quotable_writtenLabel rooted.schema classified
  obtain ⟨g, given, written⟩ := mapError_bind_eq_ok planned
  have known := Given.isUsable_ofField rooted.schema rooted.root rooted.areUsable given
  cases shape with
  | createNode => exact rooted.createNode known quotable written
  | updateNode => exact rooted.updateNode known written
  | deleteNode => exact rooted.deleteNode known written
  | connectEdge => exact rooted.connectEdge known quotable written
  | updateEdge => exact rooted.updateEdge known quotable written
  | deleteEdge => exact rooted.deleteEdge known quotable written

theorem planRoot (rooted : Rooted o ctx root field)
    (planned : Compiler.planRoot ctx root field = .ok plan) : plan.IsSound o := by
  unfold Compiler.planRoot at planned
  split at planned
  · rename_i fragment given
    rw [rooted.root.plain] at given
    cases given
  · exact rooted.planWrite planned
  · exact rooted.planRead planned

end Rooted

/-! ## Compiled statements -/

/-- The text of a sound plan is lexed into the parameters of its references. -/
theorem Plan.IsSound.tokenize {plan : Plan} (sound : plan.IsSound o) :
    ∃ tokens, tokenize plan.compiled.text = .ok tokens
      ∧ tokens.filterMap Token.parameter? = plan.references.map (·.parameter) := by
  cases plan with
  | projecting b => exact Builder.tokenize_text sound.1.named sound.2
  | returning b expression => exact Builder.tokenize_textReturning sound.1.named sound.2
  | traversal script aliases? => cases sound
  | verbatim fragment => cases sound

/-- The parameters of a sound plan are those of its references, each bound to its value. -/
theorem Plan.IsSound.binding {plan : Plan} (sound : plan.IsSound o) :
    Binding [] plan.references plan.compiled.parameters
      ∧ ∀ clause ∈ plan.clauses, ∀ r ∈ clause.references, SuppliedFor o clause r.supplied := by
  cases plan with
  | projecting b => exact ⟨sound.1.binding, sound.1.supplied⟩
  | returning b expression => exact ⟨sound.1.binding, sound.1.supplied⟩
  | traversal script aliases? => cases sound
  | verbatim fragment => cases sound

/-- Each name in a table that is bound from nothing is that of a reference, and each reference has
its name there. -/
theorem mem_keys_iff {references : List Reference} {parameters : Table Json}
    (binding : Binding [] references parameters) (name : String) :
    name ∈ references.map (·.parameter) ↔ name ∈ parameters.keys := by
  constructor
  · intro mem
    obtain ⟨r, written, rfl⟩ := List.mem_map.1 mem
    obtain ⟨value, found, -⟩ := binding.bound r written
    refine Classical.byContradiction fun absent => ?_
    rw [Table.get?_eq_none_iff.2 absent] at found
    cases found
  · intro mem
    rcases binding.used name mem with old | ⟨r, written, same⟩
    · cases old
    · exact List.mem_map.2 ⟨r, written, same⟩

namespace Compiler

/-- Plans one operation of a document: the one of the given name, or the first. -/
def planDocument (c : Compiler) (document : Operation.Document) (name? : Option String) :
    Except Error Plan :=
  let empty := Error.compile (.emptySelection (name?.getD "<anonymous>"))
  match document.operation? name? with
  | none => .error empty
  | some operation =>
      match operation.rootField? with
      | none => .error empty
      | some field => do
          let root ← (c.index.root field.name).mapError Error.schema
          planRoot ⟨c.index, c.config, operation.fragments⟩
            { root with limit? := limitOf? field.arguments } field

/-- Compiling is planning and writing out. -/
theorem compileDocument_eq (c : Compiler) (document : Operation.Document)
    (name? : Option String) :
    c.compileDocument document name? = (c.planDocument document name?).map Plan.compiled := by
  unfold compileDocument planDocument
  dsimp only
  cases document.operation? name? with
  | none => rfl
  | some operation =>
      dsimp only
      cases operation.rootField? with
      | none => rfl
      | some field =>
          dsimp only
          cases (c.index.root field.name).mapError Error.schema <;> rfl

/-- What one operation of a document is planned from. -/
theorem planDocument_eq_ok {c : Compiler} {document : Operation.Document} {name? : Option String}
    {plan : Plan} (planned : c.planDocument document name? = .ok plan) :
    ∃ operation field root, document.operation? name? = some operation
      ∧ operation.rootField? = some field ∧ c.index.root field.name = .ok root
      ∧ planRoot ⟨c.index, c.config, operation.fragments⟩
          { root with limit? := limitOf? field.arguments } field = .ok plan := by
  unfold planDocument at planned
  dsimp only at planned
  split at planned
  · cases planned
  rename_i operation selected
  split at planned
  · cases planned
  rename_i field first
  obtain ⟨root, found, planned⟩ := mapError_bind_eq_ok planned
  exact ⟨operation, field, root, selected, first, found, planned⟩

theorem rooted_of_operation {c : Compiler} {operation : Operation} {field : Field} {root : Root}
    (schema : c.index.IsBare)
    (usable : ∀ f ∈ fields operation, f.IsNamed ∧ hasNamedInputs f = true)
    (first : operation.rootField? = some field) (found : c.index.root field.name = .ok root) :
    Rooted ⟨operation.fragments, root.path, field⟩ ⟨c.index, c.config, operation.fragments⟩
      { root with limit? := limitOf? field.arguments } field := by
  have bare := schema.root found
  exact {
    origin := rfl
    schema := schema
    root := ⟨bare.name, bare.path, bare.label, bare.arguments, bare.plain⟩
    usable := fun path f stands => usable f (stands.mem_fields first).1 }

/-- The text of a compiled statement, its table of parameters and the operation agree. -/
structure ParametersAgree (o : Origin) (plan : Plan) (compiled : Compiled) (tokens : List Token) :
    Prop where
  lexed : tokenize compiled.text = .ok tokens
  /-- The names of the parameter tokens are the names in the table. -/
  names : ∀ name, name ∈ tokens.filterMap Token.parameter? ↔ name ∈ compiled.parameters.keys
  /-- The parameter tokens are those of the references that the clauses write, in order. -/
  written : tokens.filterMap Token.parameter? = plan.references.map (·.parameter)
  /-- A reference is written for a value that the field at the variable of its clause supplies. -/
  supplied : ∀ clause ∈ plan.clauses, ∀ r ∈ clause.references, SuppliedFor o clause r.supplied
  /-- A reference has that value in the table. -/
  bound : ∀ r ∈ plan.references, r.IsBoundIn compiled.parameters

/-- Parameters are sound and complete: a statement compiled for an operation is lexed without
failure, its parameter tokens name exactly the parameters of the table, and each of them is bound to
the value that the operation supplies for it. -/
theorem compile_parameters {schema source : String} {c : Compiler} {values : Table Json}
    {name? : Option String} {document : Operation.Document} {operation : Operation}
    {compiled : Compiled} (read : Index.ofText schema = .ok c.index)
    (plain : c.index.isPlain = true) (stored : c.index.storesIdentifiers = true)
    (parsed : Operation.Document.ofText source values = .ok document)
    (selected : document.operation? name? = some operation)
    (inputs : ∀ f ∈ fields operation, hasNamedInputs f = true)
    (done : c.compile source values name? = .ok compiled) :
    ∃ field root plan tokens, operation.rootField? = some field
      ∧ c.index.root field.name = .ok root ∧ c.planDocument document name? = .ok plan
      ∧ compiled = plan.compiled
      ∧ ParametersAgree ⟨operation.fragments, root.path, field⟩ plan compiled tokens := by
  have bare : c.index.IsBare := ⟨Index.isNamed_ofText read, stored, plain⟩
  have usable : ∀ f ∈ fields operation, f.IsNamed ∧ hasNamedInputs f = true := by
    have mem : operation ∈ document.operations := by
      cases name? with
      | none => exact List.mem_of_head? selected
      | some name => exact List.mem_of_find?_eq_some selected
    exact fun f inside =>
      ⟨Operation.Document.isNamed_ofText parsed operation mem f inside, inputs f inside⟩
  -- compiling is writing out a plan, and the plan of the root field is sound
  have compiledDocument : c.compileDocument document name? = .ok compiled := by
    simpa only [compile, parsed, mapError_ok, bind, Except.bind] using done
  rw [compileDocument_eq] at compiledDocument
  cases planned : c.planDocument document name? with
  | error e => simp [planned, Except.map] at compiledDocument
  | ok plan =>
      rw [planned] at compiledDocument
      obtain rfl : plan.compiled = compiled := Except.ok.inj compiledDocument
      obtain ⟨other, field, root, same, first, found, rootPlanned⟩ := planDocument_eq_ok planned
      obtain rfl : operation = other := Option.some.inj (selected.symm.trans same)
      have sound := (rooted_of_operation bare usable first found).planRoot rootPlanned
      obtain ⟨tokens, lexed, written⟩ := sound.tokenize
      obtain ⟨binding, supplied⟩ := sound.binding
      refine ⟨field, root, plan, tokens, first, found, rfl, rfl, lexed, ?_, written, supplied,
        binding.bound⟩
      intro name
      rw [written]
      exact mem_keys_iff binding name

/-- Persons with friends who are found by their names, and a mutation that creates a person. -/
def peopleSchema : String :=
  "type Person \x7bname: String friends(name: String): [Person] @relationship(type: knows)\x7d
  type Mutation \x7bcreateNodePerson(input: New): Person\x7d"

/-- A mutation whose input has a key that is the name of a parameter of a field below. -/
def collidingMutation : String :=
  "mutation \x7bcreateNodePerson(input: \x7bfriends_name: Bob\x7d)
    \x7bfriends(name: Cid) \x7bname\x7d\x7d\x7d"

/-- Where two values would have one parameter, the second gets another. -/
theorem compile_parameters_colliding :
    ∃ (c : Compiler) (document : Operation.Document) (operation : Operation)
        (compiled : Compiled), Index.ofText peopleSchema = .ok c.index
      ∧ c.index.isPlain = true ∧ c.index.storesIdentifiers = true
      ∧ Operation.Document.ofText collidingMutation [] = .ok document
      ∧ document.operation? none = some operation
      ∧ (∀ f ∈ fields operation, hasNamedInputs f = true)
      ∧ c.compile collidingMutation [] none = .ok compiled
      ∧ compiled.parameters.keys
        = ["createNodePerson_Person_friends_name", "createNodePerson_Person_friends_name_2"]
      ∧ ∃ field root plan tokens, operation.rootField? = some field
          ∧ c.index.root field.name = .ok root ∧ c.planDocument document none = .ok plan
          ∧ compiled = plan.compiled
          ∧ ParametersAgree ⟨operation.fragments, root.path, field⟩ plan compiled tokens := by
  have shape : ((Index.ofText peopleSchema).toOption.any fun index =>
      (index.isPlain && index.storesIdentifiers)
        && ((Operation.Document.ofText collidingMutation []).toOption.any fun document =>
            (document.operation? none).any fun operation =>
              (fields operation).all hasNamedInputs)
        && ((compile ⟨index, {}⟩ collidingMutation [] none).toOption.any fun compiled =>
            compiled.parameters.keys == ["createNodePerson_Person_friends_name",
              "createNodePerson_Person_friends_name_2"])) = true := by decide +kernel
  obtain ⟨index, read, checked⟩ := exists_ok_of_any shape
  rw [Bool.and_eq_true, Bool.and_eq_true, Bool.and_eq_true] at checked
  obtain ⟨⟨⟨plain, stored⟩, known⟩, done⟩ := checked
  obtain ⟨document, parsed, known⟩ := exists_ok_of_any known
  obtain ⟨operation, selected, inputs⟩ := (Option.any_eq_true _ _).1 known
  have inputs : ∀ f ∈ fields operation, hasNamedInputs f = true := List.all_eq_true.1 inputs
  obtain ⟨compiled, done, keys⟩ := exists_ok_of_any done
  have keys := eq_of_beq keys
  exact ⟨⟨index, {}⟩, document, operation, compiled, read, plain, stored, parsed, selected, inputs,
    done, keys, compile_parameters read plain stored parsed selected inputs done⟩

end Compiler

end GraphBridge.Compile
