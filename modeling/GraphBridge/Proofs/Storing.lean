import GraphBridge.Proofs.ArgumentOrder
import GraphBridge.Proofs.Keywords

/-!
# What a write stores

A mutation stores the entries of one clause: the property map of a `CREATE` or the assignments of a
`SET`. The clauses behind it only read what was written. The entries are the fields of the input
object that are not marked as identity, and a change of a node leaves out the one that has the name
its identity was found under. So whether the identity of a node type is stored as a property depends
on the input type and not on the node type: an unmarked field with the name of the identity is
stored, unless a node is changed and found by that name.
-/

namespace GraphBridge.Statement

/-- The properties that a clause stores. The text of an override fragment is not looked into. -/
def Clause.stores : Clause → List Reference
  | .createNode _ _ properties | .createEdge _ _ properties | .set _ properties => properties
  | _ => []

/-- Whether a clause writes into the graph. The text of an override fragment is not looked into. -/
def Clause.writes : Clause → Bool
  | .createNode .. | .createEdge .. | .set .. | .deleteNode _ | .deleteEdge _ => true
  | _ => false

/-- What does not write stores nothing. -/
theorem Clause.stores_eq_nil {clause : Clause} (reads : clause.writes = false) :
    clause.stores = [] := by
  cases clause <;> first | rfl | cases reads

/-- A line behind the clauses of a statement. -/
def IsProjection (line : String) : Prop :=
  ∃ rest, line = "WITH " ++ rest ∨ line = "RETURN " ++ rest

theorem Builder.isProjection_withLines (b : Builder) : ∀ line ∈ b.withLines, IsProjection line := by
  intro line mem
  obtain ⟨⟨f, place⟩, -, rfl⟩ := List.mem_map.1 (List.mem_reverse.1 mem)
  refine ⟨", ".intercalate (b.kept place) ++ (", " ++ f.closed), .inl ?_⟩
  change "WITH " ++ _ ++ ", " ++ f.closed = _
  rw [String.append_assoc, String.append_assoc]

theorem Builder.isProjection_returnLines (b : Builder) :
    ∀ line ∈ b.returnLines, IsProjection line := by
  intro line mem
  obtain ⟨f, -, rfl⟩ := Option.map_eq_some_iff.1 (Option.mem_toList.1 mem)
  exact ⟨f.returned, .inr rfl⟩

namespace Supplied

/-- Whether a member of an input object is an identity depends on its name. -/
theorem isId_congr {declared : List Schema.ArgumentDescriptor} {members : Table Json}
    {s t : Supplied} (first : s ∈ ofInput declared members) (second : t ∈ ofInput declared members)
    (same : s.name = t.name) : s.isId = t.isId := by
  obtain ⟨⟨name, value⟩, -, rfl⟩ := List.mem_map.1 first
  obtain ⟨⟨name', value'⟩, -, rfl⟩ := List.mem_map.1 second
  cases same
  rfl

end Supplied

end GraphBridge.Statement

namespace GraphBridge.Compile

open Operation Query Schema Statement

/-! ## Projections write nothing -/

/-- A later builder of the same statement: the clauses that have been added write nothing. -/
structure ReadsOn (b later : Builder) : Prop where
  clauses : ∃ reading, later.clauses = b.clauses ++ reading
    ∧ ∀ clause ∈ reading, clause.writes = false

namespace ReadsOn

variable {b c d : Builder}

theorem of_eq (same : c.clauses = b.clauses) : ReadsOn b c :=
  ⟨⟨[], by rw [same, List.append_nil], List.forall_mem_nil _⟩⟩

theorem refl (b : Builder) : ReadsOn b b :=
  of_eq rfl

theorem trans (first : ReadsOn b c) (second : ReadsOn c d) : ReadsOn b d := by
  obtain ⟨reading, clauses, none⟩ := first.clauses
  obtain ⟨more, later, none'⟩ := second.clauses
  refine ⟨⟨reading ++ more, ?_, List.forall_mem_append.2 ⟨none, none'⟩⟩⟩
  rw [later, clauses, List.append_assoc]

theorem addClause (b : Builder) {clause : Clause} (reads : clause.writes = false) :
    ReadsOn b (b.addClause clause) :=
  ⟨⟨[clause], rfl, List.forall_mem_singleton.2 reads⟩⟩

theorem addBody (b : Builder) (config : Config) (body : Inlined) :
    ReadsOn b (addBody config b body) := by
  unfold Compile.addBody
  split
  · exact refl b
  · exact addClause b rfl

theorem scalar (b : Builder) (config : Config) (path key : String) (frame : Nat)
    (value : Scalar) : ReadsOn b (value.emit config path key frame b).2 := by
  cases value with
  | typeName | identity | property => exact refl b
  | override bound body tail =>
      unfold Scalar.emit inlineScalar
      dsimp only
      split
      · exact (addClause b rfl).trans (of_eq (clauses_keepFor _ _ _))
      have behind := addBody b config ⟨body, scalarNames path (path ++ "_" ++ key) bound⟩
      split
      · exact behind.trans ((addClause _ rfl).trans (of_eq (clauses_keepFor _ _ _)))
      · exact behind.trans (of_eq (clauses_keepMentioned _ _ _ _))

theorem reach (b : Builder) (config : Config) (parent child : String) (reach : Reach) :
    ReadsOn b (reach.emit config parent child b) := by
  cases reach with
  | relationship edgeType direction label identity? supplied =>
      exact (of_eq (Builder.clauses_referAll b child supplied)).trans (addClause _ rfl)
  | override bound body returned => exact addClause b rfl

/-- No action of a projection adds a clause that writes anything. -/
theorem step (config : Config) (s : State) (a : Action) :
    ReadsOn s.builder (s.step config a).builder := by
  obtain ⟨b, stack⟩ := s
  match a, stack with
  | .scalar key value, (frame, path) :: outer =>
      exact (scalar b config path key frame value).trans (of_eq rfl)
  | .enter key reached closing, (frame, path) :: outer =>
      exact (reach b config path _ reached).trans (of_eq (Builder.clauses_openFrame _ _ _))
  | .leave key, (inner, child) :: (frame, path) :: outer => exact of_eq rfl
  | .scalar _ _, [] => exact refl b
  | .enter _ _ _, [] => exact refl b
  | .leave _, [] => exact refl b
  | .leave _, [_] => exact refl b

theorem run (config : Config) (actions : List Action) (s : State) :
    ReadsOn s.builder (s.run config actions).builder :=
  State.run_induction (motive := fun reached => ReadsOn s.builder reached.builder)
    (fun reached a before => before.trans (step config reached a)) actions (refl _)

/-- The projection of a root field writes nothing. -/
theorem final (p : RootProjection) (config : Config) : ReadsOn p.start (p.final config) :=
  (of_eq (Builder.clauses_openFrame _ _ _)).trans (run config (actionsOf p.entries) p.first)

end ReadsOn

/-- The clauses of the statement of a plan. -/
def Plan.HasClauses (clauses : List Clause) : Plan → Prop
  | .projecting b | .returning b _ => b.clauses = clauses
  | .traversal .. | .verbatim _ => False

/-- Behind its clauses a statement has projections only. -/
theorem Plan.HasClauses.text {clauses : List Clause} {plan : Plan} (has : plan.HasClauses clauses) :
    ∃ lines, plan.compiled.text = "\n".intercalate (clauses.map Clause.text ++ lines)
      ∧ ∀ line ∈ lines, IsProjection line := by
  cases plan with
  | projecting b =>
      cases has
      refine ⟨b.withLines ++ b.returnLines, ?_,
        List.forall_mem_append.2 ⟨b.isProjection_withLines, b.isProjection_returnLines⟩⟩
      change "\n".intercalate b.lines = _
      rw [Builder.lines, List.append_assoc]
  | returning b expression =>
      cases has
      exact ⟨["RETURN " ++ expression.text], rfl,
        List.forall_mem_singleton.2 ⟨expression.text, .inr rfl⟩⟩
  | traversal script aliases? => cases has
  | verbatim fragment => cases has

/-- What is written is projected behind the clauses that write it, by clauses that store nothing. -/
theorem projectWritten_hasClauses {ctx : Context} {root : Root} {field : Field} {b : Builder}
    {plan : Plan} (unframed : Unframed b) (planned : projectWritten ctx root field b = .ok plan) :
    ∃ reading, plan.HasClauses (b.clauses ++ reading) ∧ ∀ clause ∈ reading, clause.stores = [] := by
  obtain rfl | ⟨later, -, projected⟩ := projectWritten_cases planned
  · exact ⟨[], (List.append_nil _).symm, List.forall_mem_nil _⟩
  obtain ⟨built, rfl⟩ : ∃ built, plan = .projecting built :=
    projected.elim (fun same => ⟨_, same⟩) fun same => ⟨_, same⟩
  obtain ⟨entries, yields⟩ := projectWritten_yields unframed planned
  obtain ⟨reading, clauses, reads⟩ :=
    (ReadsOn.final ⟨b, root.path, .root false none false, entries⟩ ctx.config).clauses
  have none := fun clause mem => Clause.stores_eq_nil (reads clause mem)
  obtain rfl | rfl := yields.builder
  · exact ⟨reading, clauses, none⟩
  · refine ⟨.keep root.path :: reading, ?_, List.forall_mem_cons.2 ⟨rfl, none⟩⟩
    change List.take _ _ ++ Clause.keep root.path :: List.drop _ _ = _
    rw [clauses, List.take_left, List.drop_left]

/-! ## The clauses that write a node -/

/-- The clauses that write a node, with the properties they store: one clause creates it; or one
finds it, and one more changes it if there is anything to set. -/
inductive WritesNode (path label : String) :
    MutationShape → List Reference → List Clause → Prop where
  | create (properties : List Reference) :
      WritesNode path label .createNode properties [.createNode path label properties]
  | find (id : Reference) : WritesNode path label .updateNode [] [.findNode path id]
  | change (id : Reference) (properties : List Reference) (given : properties ≠ []) :
      WritesNode path label .updateNode properties [.findNode path id, .set path properties]

/-- Setting properties adds a clause that stores the input without identities and without what is
to be skipped, or no clause if nothing is left. -/
theorem setClause_stores (b : Builder) (path : String) (input : List Supplied)
    (skipped? : Option String) :
    ∃ properties : List Reference,
      properties.map (·.supplied)
          = (input.filter fun s => some s.name != skipped?).filter (fun s => !s.isId)
        ∧ (properties = [] ∧ (setClause b path input skipped?).clauses = b.clauses
          ∨ properties ≠ []
            ∧ (setClause b path input skipped?).clauses = b.clauses ++ [.set path properties]) := by
  unfold setClause bindInput
  generalize (input.filter fun s => some s.name != skipped?).filter (fun s => !s.isId) = supplied
  refine ⟨(b.referAll path supplied).1, Builder.supplied_referAll b path supplied, ?_⟩
  dsimp only
  split
  · next empty => exact .inl ⟨List.isEmpty_iff.1 empty, Builder.clauses_referAll b path supplied⟩
  · next given =>
      refine .inr ⟨fun empty => given (List.isEmpty_iff.2 empty), ?_⟩
      rw [Builder.addClause, Builder.clauses_referAll]

namespace Given

/-- The name that a write of a node leaves out of the input object: for a change the one that the
identity was found under. -/
def skipped? (g : Given) (index : Index) (root : Root) : MutationShape → Option String
  | .updateNode => (g.nodeId index root false).toOption.map (·.name)
  | _ => none

/-- The fields of the input object that a write of a node stores. -/
def storable (g : Given) (index : Index) (root : Root) (shape : MutationShape) : List Supplied :=
  (g.input.filter fun s => some s.name != g.skipped? index root shape).filter fun s => !s.isId

/-- Whether the input object has a field of a name that is not marked as identity. -/
def givesUnmarked (g : Given) (name : String) : Bool :=
  g.input.any fun s => s.name == name && !s.isId

/-- Whether a node is found by something else than an unmarked field of a name: by an argument of
another name, or without such an argument by a marked field of the input object. -/
def isFoundBesides (g : Given) (name : String) : Bool :=
  match g.ownId? with
  | some id => id.name != name
  | none => g.input.any Supplied.isId

variable {index : Index} {root : Root} {field : Field} {g : Given} {name : String}

theorem exists_input (given : ofField index root field = .ok g) :
    ∃ declared members, g.input = Supplied.ofInput declared members := by
  unfold ofField at given
  split at given
  · cases given
    exact ⟨[], [], rfl⟩
  · dsimp only at given
    split at given
    · obtain ⟨inputs, -, made⟩ := bind_eq_ok given
      cases made
      exact ⟨inputs, _, rfl⟩
    · cases given
      exact ⟨[], _, rfl⟩

theorem isId_congr (given : ofField index root field = .ok g) {s t : Supplied} (first : s ∈ g.input)
    (second : t ∈ g.input) (same : s.name = t.name) : s.isId = t.isId := by
  obtain ⟨declared, members, input⟩ := exists_input given
  rw [input] at first second
  exact Supplied.isId_congr first second same

/-- A field of some name is stored if it is given unmarked and not left out. -/
theorem exists_storable_iff (shape : MutationShape) :
    (∃ s ∈ g.storable index root shape, s.name = name)
      ↔ g.givesUnmarked name = true ∧ g.skipped? index root shape ≠ some name := by
  unfold storable givesUnmarked
  simp only [List.mem_filter, List.any_eq_true, Bool.and_eq_true, beq_iff_eq, bne_iff_ne,
    Bool.not_eq_true']
  constructor
  · rintro ⟨s, ⟨⟨mem, kept⟩, plain⟩, rfl⟩
    exact ⟨⟨s, mem, rfl, plain⟩, kept.symm⟩
  · rintro ⟨⟨s, mem, rfl, plain⟩, kept⟩
    exact ⟨s, ⟨⟨mem, kept.symm⟩, plain⟩, rfl⟩

/-- The identity of a node that is changed is found among the arguments, or else in the input. -/
theorem orElse_of_nodeId {id : Supplied} (found : g.nodeId index root false = .ok id) :
    (g.ownId? <|> g.inputId? (index.identityField? root.returnType)) = some id := by
  unfold nodeId at found
  dsimp only at found
  split at found
  · rename_i chosen
    cases found
    rw [← chosen]
    simp
  · cases found

/-- Under which name the identity is found in the input object, if there is an unmarked field with
the name of the identity of the type. -/
theorem any_isId_iff (given : ofField index root field = .ok g)
    (unmarked : g.givesUnmarked name = true) {id : Supplied}
    (found : g.inputId? (some name) = some id) :
    g.input.any Supplied.isId = true ↔ name ≠ id.name := by
  obtain ⟨s, mem, facts⟩ := List.any_eq_true.1 unmarked
  simp only [Bool.and_eq_true, beq_iff_eq, Bool.not_eq_true'] at facts
  obtain ⟨rfl, plain⟩ := facts
  unfold inputId? at found
  cases marked : g.input.find? Supplied.isId with
  | some first =>
      rw [marked] at found
      cases found
      have among := List.mem_of_find?_eq_some marked
      have isId := List.find?_some marked
      refine iff_of_true (List.any_eq_true.2 ⟨id, among, isId⟩) fun same => ?_
      -- a field of the same name would be marked as well
      rw [← isId_congr given mem among same, plain] at isId
      cases isId
  | none =>
      have unmarked : ¬ g.input.any Supplied.isId = true := fun some => by
        obtain ⟨t, among, isId⟩ := List.any_eq_true.1 some
        exact List.find?_eq_none.1 marked t among isId
      rw [marked] at found
      change (_ <|> _) = _ at found
      cases called : g.input.find? fun t => some t.name == some s.name with
      | some first =>
          rw [called] at found
          cases found
          have same := List.find?_some called
          rw [beq_iff_eq, Option.some.injEq] at same
          exact iff_of_false unmarked fun other => other same.symm
      | none => exact absurd BEq.rfl (List.find?_eq_none.1 called s mem)

/-- Under which name the identity of a node is found, if the input object has an unmarked field with
the name of the identity of the type. -/
theorem isFoundBesides_iff (given : ofField index root field = .ok g)
    (identity : index.identityField? root.returnType = some name)
    (unmarked : g.givesUnmarked name = true) {id : Supplied}
    (found : g.nodeId index root false = .ok id) :
    g.isFoundBesides name = true ↔ name ≠ id.name := by
  have chosen := orElse_of_nodeId found
  unfold isFoundBesides
  cases own : g.ownId? with
  | some other =>
      rw [own] at chosen
      cases chosen
      exact bne_iff_ne.trans ne_comm
  | none =>
      rw [own, identity] at chosen
      exact any_isId_iff given unmarked chosen

end Given

section Planned

variable {ctx : Context} {root : Root} {field : Field} {shape : MutationShape}
  {typeName f : String} {g : Given}

/-- The statement of a write of a node begins with the clauses that write it, and nothing behind
them stores anything. -/
theorem planShape_writesNode (node : shape = .createNode ∨ shape = .updateNode) {plan : Plan}
    (planned : planShape ctx root field g typeName shape = .ok plan) :
    ∃ stored front reading,
      WritesNode root.path (writtenLabel ctx.index typeName) shape stored front
        ∧ stored.map (·.supplied) = g.storable ctx.index root shape
        ∧ plan.HasClauses (front ++ reading) ∧ ∀ clause ∈ reading, clause.stores = [] := by
  obtain rfl | rfl := node
  · obtain ⟨reading, has, none⟩ :=
      projectWritten_hasClauses ((Unframed.empty.referAll _ _).addClause _) planned
    refine ⟨_, _, reading, .create (bindInput {} root.path g.input).1, ?_, ?_, none⟩
    · have all : (g.input.filter fun s => some s.name != g.skipped? ctx.index root .createNode)
          = g.input := List.filter_eq_self.2 fun s _ => rfl
      rw [Given.storable, all]
      exact Builder.supplied_referAll _ _ _
    · rwa [Builder.addClause, Builder.clauses_referAll] at has
  · obtain ⟨id, found, planned⟩ := mapError_bind_eq_ok planned
    obtain ⟨reading, has, none⟩ :=
      projectWritten_hasClauses ((Unframed.empty.matchNode _ _).setClause _ _ _) planned
    have skipped : g.skipped? ctx.index root .updateNode = some id.name := by
      rw [Given.skipped?, found]
      rfl
    obtain ⟨stored, supplied, set⟩ :=
      setClause_stores (matchNode {} root.path id) root.path g.input (some id.name)
    rw [← skipped] at supplied
    obtain ⟨rfl, clauses⟩ | ⟨given, clauses⟩ := set
    · rw [clauses] at has
      exact ⟨_, _, reading, .find _, supplied, has, none⟩
    · rw [clauses] at has
      exact ⟨_, _, reading, .change _ _ given, supplied, has, none⟩

/-- An unmarked field with the name of the identity is not left out if and only if the node, if it is
updated, is found by something else. -/
theorem skipped?_ne_iff (given : Given.ofField ctx.index root field = .ok g)
    (node : shape = .createNode ∨ shape = .updateNode)
    (identity : ctx.index.identityField? root.returnType = some f)
    (unmarked : g.givesUnmarked f = true) {plan : Plan}
    (planned : planShape ctx root field g typeName shape = .ok plan) :
    g.skipped? ctx.index root shape ≠ some f
      ↔ (shape = .updateNode → g.isFoundBesides f = true) := by
  obtain rfl | rfl := node
  · exact iff_of_true (fun skipped => by cases skipped) fun same => by cases same
  · obtain ⟨id, found, -⟩ := mapError_bind_eq_ok planned
    rw [Given.isFoundBesides_iff given identity unmarked found, Given.skipped?, found]
    change some id.name ≠ some f ↔ _
    rw [ne_eq, Option.some.injEq, eq_comm]
    exact ⟨fun other _ => other, fun other => other rfl⟩

/-- When the identity of a node is stored as a property. A create or an update that compiles begins
with the clauses that write the node, and the clauses and projections behind them store nothing.
What is stored are the fields of the input object that are not marked as identity, for an update
without the one that has the name its identity is found under. So a field with the name of the
identity of the node type is stored if and only if it is given unmarked and the node, if it is
updated, is found by something else. -/
theorem compileRoot_storesIdentity_iff (mutation : root.kind = .mutation)
    (own : root.fragment? = none)
    (named : MutationName.classify root.name = some ⟨shape, typeName⟩)
    (node : shape = .createNode ∨ shape = .updateNode)
    (identity : ctx.index.identityField? root.returnType = some f) :
    ∃ g, Given.ofField ctx.index root field = .ok g
      ∧ ∀ compiled, Compiler.compileRoot ctx root field = .ok compiled →
          ∃ stored front reading lines,
            WritesNode root.path (writtenLabel ctx.index typeName) shape stored front
              ∧ compiled.text = "\n".intercalate ((front ++ reading).map Clause.text ++ lines)
              ∧ (∀ clause ∈ reading, clause.stores = [])
              ∧ (∀ line ∈ lines, IsProjection line)
              ∧ stored.map (·.supplied) = g.storable ctx.index root shape
              ∧ ((∃ r ∈ stored, r.supplied.name = f)
                ↔ g.givesUnmarked f = true
                  ∧ (shape = .updateNode → g.isFoundBesides f = true)) := by
  obtain ⟨g, given⟩ := Given.exists_ofField ctx.index root field
  refine ⟨g, given, fun compiled done => ?_⟩
  rw [compileRoot_eq_planShape mutation own named given] at done
  obtain ⟨plan, planned, rfl⟩ := map_eq_ok_iff.1 done
  obtain ⟨stored, front, reading, writes, supplied, has, reads⟩ := planShape_writesNode node planned
  obtain ⟨lines, text, projections⟩ := has.text
  refine ⟨stored, front, reading, lines, writes, text, reads, projections, supplied, ?_⟩
  have named : (∃ r ∈ stored, r.supplied.name = f)
      ↔ ∃ s ∈ g.storable ctx.index root shape, s.name = f := by
    simp only [← supplied, List.mem_map, exists_exists_and_eq_and]
  rw [named, Given.exists_storable_iff]
  exact and_congr_right fun unmarked => skipped?_ne_iff given node identity unmarked planned

end Planned

/-- Persons who are created and changed by an input object with an unmarked field for the
identity. -/
def unmarkedIndex : Index := ⟨⟨[
  ⟨"Person", .object, [], [
    ⟨"_id", ⟨"ID", false, false⟩, [], [⟨"id", []⟩]⟩,
    ⟨"name", ⟨"String", false, false⟩, [], []⟩]⟩,
  ⟨"NewPerson", .inputObject, [], [
    ⟨"_id", ⟨"ID", false, false⟩, [], []⟩,
    ⟨"name", ⟨"String", false, false⟩, [], []⟩]⟩,
  ⟨"Query", .object, [], [⟨"person", ⟨"Person", false, false⟩, [], []⟩]⟩,
  ⟨"Mutation", .object, [], [
    ⟨"createNodePerson", ⟨"Person", false, false⟩,
      [⟨"input", ⟨"NewPerson", false, false⟩, none, []⟩], []⟩,
    ⟨"updateNodePerson", ⟨"Person", false, false⟩,
      [⟨"id", ⟨"ID", false, false⟩, none, []⟩,
        ⟨"input", ⟨"NewPerson", false, false⟩, none, []⟩], []⟩]⟩]⟩⟩

/-- Changes the person of an identity, with an input object that gives another one. -/
def unmarkedField : Field :=
  ⟨none, "updateNodePerson",
    [("id", .string "5"), ("input", .object [("_id", .string "9"), ("name", .string "Ann")])], []⟩

theorem compileRoot_storesIdentity_iff_update :
    ∃ root compiled, unmarkedIndex.root "updateNodePerson" = .ok root
      ∧ unmarkedIndex.identityField? root.returnType = some "_id"
      ∧ Compiler.compileRoot ⟨unmarkedIndex, {}, []⟩ root unmarkedField = .ok compiled
      ∧ ∃ stored front reading lines,
          WritesNode root.path (writtenLabel unmarkedIndex "Person") .updateNode stored front
            ∧ compiled.text = "\n".intercalate ((front ++ reading).map Clause.text ++ lines)
            ∧ ∃ r ∈ stored, r.supplied.name = "_id" := by
  have shape : ((unmarkedIndex.root "updateNodePerson").toOption.any fun root =>
      (root.kind == .mutation && root.fragment?.isNone
        && MutationName.classify root.name == some ⟨.updateNode, "Person"⟩)
      && (unmarkedIndex.identityField? root.returnType == some "_id"
        && (Given.ofField unmarkedIndex root unmarkedField).toOption.any fun g =>
          g.givesUnmarked "_id" && g.isFoundBesides "_id")
      && (Compiler.compileRoot ⟨unmarkedIndex, {}, []⟩ root unmarkedField).toOption.isSome)
      = true := by
    decide +kernel
  obtain ⟨root, looked, shape⟩ := exists_ok_of_any shape
  simp only [Bool.and_eq_true, beq_iff_eq, Option.isNone_iff_eq_none] at shape
  obtain ⟨⟨⟨⟨mutation, own⟩, named⟩, identity, facts⟩, done⟩ := shape
  obtain ⟨g', given', facts⟩ := exists_ok_of_any facts
  rw [Bool.and_eq_true] at facts
  obtain ⟨gives, besides⟩ := facts
  obtain ⟨g, given, stores⟩ := @compileRoot_storesIdentity_iff ⟨unmarkedIndex, {}, []⟩ root
    unmarkedField .updateNode "Person" "_id" mutation own named (.inr rfl) identity
  cases given.symm.trans given'
  cases compiled : Compiler.compileRoot ⟨unmarkedIndex, {}, []⟩ root unmarkedField with
  | error e => rw [compiled] at done; cases done
  | ok statement =>
      obtain ⟨stored, front, reading, lines, writes, text, -, -, -, iff⟩ :=
        stores statement compiled
      exact ⟨root, statement, looked, identity, compiled, stored, front, reading, lines, writes,
        text, iff.2 ⟨gives, fun _ => besides⟩⟩

/-- A creation that gives the identity in an unmarked field, and what it compiles to. -/
def unmarkedCreation : String × String :=
  ("mutation \x7bcreateNodePerson(input: \x7b_id: \"9\", name: \"Ann\"\x7d)\x7d",
    "CREATE (createNodePerson_Person:`Person` \x7b_id: $createNodePerson_Person__id, "
      ++ "name: $createNodePerson_Person_name\x7d)\nRETURN ID(createNodePerson_Person)")

/-- A change that gives another identity in an unmarked field, and what it compiles to. -/
def unmarkedChange : String × String :=
  ("mutation \x7bupdateNodePerson(id: \"5\", input: \x7b_id: \"9\", name: \"Ann\"\x7d)\x7d",
    "MATCH (updateNodePerson_Person) WHERE ID(updateNodePerson_Person)"
      ++ " = $updateNodePerson_Person_whereId\nSET updateNodePerson_Person.`_id`"
      ++ " = $updateNodePerson_Person__id, updateNodePerson_Person.`name`"
      ++ " = $updateNodePerson_Person_name\nRETURN ID(updateNodePerson_Person)")

/-- The identity of a person is stored as a property, by a creation and by a change. -/
theorem identity_stored_as_property :
    unmarkedIndex.identityField? "Person" = some "_id"
      ∧ (∃ compiled,
          Compiler.compile ⟨unmarkedIndex, {}⟩ unmarkedCreation.1 [] none = .ok compiled
            ∧ compiled.text = unmarkedCreation.2)
      ∧ ∃ compiled,
          Compiler.compile ⟨unmarkedIndex, {}⟩ unmarkedChange.1 [] none = .ok compiled
            ∧ compiled.text = unmarkedChange.2 := by
  have compiles {pair : String × String}
      (shape : ((Compiler.compile ⟨unmarkedIndex, {}⟩ pair.1 [] none).toOption.any fun compiled =>
        compiled.text == pair.2) = true) :
      ∃ compiled, Compiler.compile ⟨unmarkedIndex, {}⟩ pair.1 [] none = .ok compiled
        ∧ compiled.text = pair.2 := by
    obtain ⟨compiled, done, text⟩ := exists_ok_of_any shape
    exact ⟨compiled, done, beq_iff_eq.1 text⟩
  exact ⟨by decide +kernel, compiles (by decide +kernel), compiles (by decide +kernel)⟩

end GraphBridge.Compile
