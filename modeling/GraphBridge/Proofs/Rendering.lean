import GraphBridge.Proofs.Plain

/-!
# Statements rendered from the tree of a selection

The builder collects clauses, frames, threads and parameters while it walks over a selection, and
joins them at the end. For schemas without overrides the statement can be said without it. The
object fields of a selection make a tree, whose nodes are numbered in the order in which they are
entered, the root field being number zero. Each node has a line that reaches it, and a `WITH` line
that closes it; both are read off the tree.
-/

namespace GraphBridge.Compile

open Operation Query Schema Statement

/-! ## The tree -/

/-- An object field of a selection, numbered. -/
structure Node where
  number : Nat
  /-- The number of the node it is selected on. -/
  parent : Nat
  /-- The variable of the node it is selected on. -/
  outer : String
  /-- Its own variable. -/
  path : String
  reach : Reach
  closing : Closing
  /-- What is selected on it. -/
  entries : List Entry

mutual

/-- The number of object fields in an entry. -/
def Entry.count : Entry → Nat
  | .scalar _ _ => 0
  | .object _ _ _ entries => countAll entries + 1

/-- The number of object fields in entries. -/
def countAll : List Entry → Nat
  | [] => 0
  | e :: rest => e.count + countAll rest

end

mutual

/-- The object fields of an entry, each before the fields selected on it. The first of them gets the
given number. -/
def Entry.preorder (parent : Nat) (path : String) (next : Nat) : Entry → List Node
  | .scalar _ _ => []
  | .object key reach closing entries =>
      ⟨next, parent, path, path ++ "_" ++ key, reach, closing, entries⟩
        :: preorder next (path ++ "_" ++ key) (next + 1) entries

/-- The object fields of entries, each before the fields selected on it. -/
def preorder (parent : Nat) (path : String) (next : Nat) : List Entry → List Node
  | [] => []
  | e :: rest => e.preorder parent path next ++ preorder parent path (next + e.count) rest

end

mutual

/-- The object fields of an entry, each behind the fields selected on it, under the same numbers. -/
def Entry.postorder (parent : Nat) (path : String) (next : Nat) : Entry → List Node
  | .scalar _ _ => []
  | .object key reach closing entries =>
      postorder next (path ++ "_" ++ key) (next + 1) entries
        ++ [⟨next, parent, path, path ++ "_" ++ key, reach, closing, entries⟩]

/-- The object fields of entries, each behind the fields selected on it. -/
def postorder (parent : Nat) (path : String) (next : Nat) : List Entry → List Node
  | [] => []
  | e :: rest => e.postorder parent path next ++ postorder parent path (next + e.count) rest

end

mutual

theorem Entry.numbers_preorder (e : Entry) (parent : Nat) (path : String) (next : Nat) :
    (e.preorder parent path next).map (·.number) = List.range' next e.count := by
  match e with
  | .scalar key value => rfl
  | .object key reach closing entries =>
      rw [Entry.preorder, List.map_cons, numbers_preorder entries, Entry.count, List.range'_succ]

/-- Nodes are numbered without gaps in the order in which they are entered. -/
theorem numbers_preorder (entries : List Entry) (parent : Nat) (path : String) (next : Nat) :
    (preorder parent path next entries).map (·.number) = List.range' next (countAll entries) := by
  match entries with
  | [] => rfl
  | e :: rest =>
      rw [preorder, List.map_append, Entry.numbers_preorder e, numbers_preorder rest, countAll,
        List.range'_append_1]

end

theorem Entry.length_preorder (e : Entry) (parent : Nat) (path : String) (next : Nat) :
    (e.preorder parent path next).length = e.count := by
  simpa using congrArg List.length (e.numbers_preorder parent path next)

/-! ## The lines of a node -/

/-- The expression of a scalar field of a variable; of an override, the one that it returns. -/
def Scalar.expression (path key : String) : Scalar → Expression
  | .typeName name => .typeName name
  | .identity => .identity path
  | .property stored => .property path stored
  | .override bound _ tail => .inlined ⟨tail, scalarNames path (path ++ "_" ++ key) bound⟩

namespace Entry

/-- The response key of an entry. -/
def key : Entry → String
  | .scalar key _ => key
  | .object key _ _ _ => key

/-- An entry as it stands in the content of a variable: an object field under its own variable. -/
def content (path : String) : Entry → String × Expression
  | .scalar key value => (key, value.expression path key)
  | .object key _ _ _ => (key, .named (path ++ "_" ++ key))

@[simp] theorem fst_content (path : String) (e : Entry) : (e.content path).1 = e.key := by
  cases e <;> rfl

end Entry

/-- The clause that reaches the nodes of an object field, given the parameters that are bound
already, with the parameters that are bound then. -/
def Reach.clause (config : Config) (parent child : String) (bound : Table Json) :
    Reach → Clause × Table Json
  | .relationship edgeType direction label identity? supplied =>
      let (filter, b) := filterFor { parameters := bound } child identity? supplied
      (.reach parent ⟨child ++ "_" ++ edgeType, edgeType, direction⟩ ⟨child, label, filter⟩,
        b.parameters)
  | .override names body returned =>
      (inlinedClause config ⟨body, objectNames parent child returned names⟩, bound)

namespace Node

/-- The projection of a node. -/
def frame (n : Node) : Frame :=
  ⟨n.path, n.entries.map (Entry.content n.path), n.closing⟩

/-- The variable of a node, from where it is closed to where it is read. -/
def thread (n : Node) : Thread :=
  ⟨n.path, n.parent, some n.number⟩

end Node

/-- The clauses that reach nodes one after the other, each with the parameters that those before it
have left. -/
def reachClauses (config : Config) (bound : Table Json) : List Node → List Clause × Table Json
  | [] => ([], bound)
  | n :: rest =>
      let (clause, bound) := n.reach.clause config n.outer n.path bound
      let (more, bound) := reachClauses config bound rest
      (clause :: more, bound)

theorem reachClauses_cons (config : Config) (bound : Table Json) (n : Node) (rest : List Node) :
    reachClauses config bound (n :: rest)
      = ((n.reach.clause config n.outer n.path bound).1
          :: (reachClauses config (n.reach.clause config n.outer n.path bound).2 rest).1,
        (reachClauses config (n.reach.clause config n.outer n.path bound).2 rest).2) := rfl

theorem reachClauses_append (config : Config) (bound : Table Json) (first second : List Node) :
    reachClauses config bound (first ++ second)
      = ((reachClauses config bound first).1
          ++ (reachClauses config (reachClauses config bound first).2 second).1,
        (reachClauses config (reachClauses config bound first).2 second).2) := by
  induction first generalizing bound with
  | nil => rfl
  | cons n rest ih => simp only [List.cons_append, reachClauses_cons, ih]

/-! ## What a projection adds -/

/-- What reaching the nodes of an object field does to a builder. -/
theorem Reach.emit_eq (config : Config) (parent child : String) (reach : Reach) (b : Builder) :
    reach.emit config parent child b
      = { b with clauses := b.clauses ++ [(reach.clause config parent child b.parameters).1]
                 parameters := (reach.clause config parent child b.parameters).2 } := by
  cases reach with
  | override names body returned => rfl
  | relationship edgeType direction label identity? supplied =>
      have same := @Builder.referAll_congr b { parameters := b.parameters } rfl child supplied
      simp only [Reach.emit, Reach.clause, inlineRelationship, filterFor, Builder.addClause, same.1,
        ← same.2]
      rw [Builder.clauses_referAll, Builder.frames_referAll, Builder.threads_referAll,
        Builder.scope_referAll]

/-- What is added to a builder while entries are projected into the frame at a place. -/
structure Grown (b : Builder) (place : Nat) (content : List (String × Expression))
    (reached : List Clause × Table Json) (opened : List Frame) (threads : List Thread)
    (b' : Builder) : Prop where
  clauses : b'.clauses = b.clauses ++ reached.1
  parameters : b'.parameters = reached.2
  frames : b'.frames = b.frames.modify place (Frame.extend content) ++ opened
  threads : b'.threads = b.threads ++ threads

namespace Grown

theorem nil (b : Builder) (place : Nat) : Grown b place [] ([], b.parameters) [] [] b where
  clauses := by simp
  parameters := rfl
  frames := by rw [Frame.extend_nil, List.modify_id, List.append_nil]
  threads := by simp

/-- What is added by one entry and then by others is added by all of them. -/
theorem trans {b b₁ b₂ : Builder} {place : Nat} {content₁ content₂ : List (String × Expression)}
    {reached₁ reached₂ : List Clause × Table Json} {opened₁ opened₂ : List Frame}
    {threads₁ threads₂ : List Thread} (isOpen : place < b.frames.length)
    (first : Grown b place content₁ reached₁ opened₁ threads₁ b₁)
    (second : Grown b₁ place content₂ reached₂ opened₂ threads₂ b₂) :
    Grown b place (content₁ ++ content₂) (reached₁.1 ++ reached₂.1, reached₂.2)
      (opened₁ ++ opened₂) (threads₁ ++ threads₂) b₂ where
  clauses := by rw [second.clauses, first.clauses, List.append_assoc]
  parameters := second.parameters
  frames := by
    rw [second.frames, first.frames, modify_append_of_lt _ _ (by simpa using isOpen),
      List.modify_modify_eq, List.append_assoc]
    congr 2
    funext f
    exact Frame.extend_extend content₁ content₂ f
  threads := by rw [second.threads, first.threads, List.append_assoc]

theorem length_frames {b b' : Builder} {place : Nat} {content : List (String × Expression)}
    {reached : List Clause × Table Json} {opened : List Frame} {threads : List Thread}
    (grown : Grown b place content reached opened threads b') :
    b'.frames.length = b.frames.length + opened.length := by
  rw [grown.frames, List.length_append, List.length_modify]

/-- What is added in the frame of an object field is added around it too, with the clause that
reaches the field, its frame, and the entry and the thread that put the frame into place. -/
theorem around {b inner : Builder} {place : Nat} {key child : String} {closing : Closing}
    {clause : Clause × Table Json} {content : List (String × Expression)}
    {reached : List Clause × Table Json} {opened : List Frame} {threads : List Thread}
    (isOpen : place < b.frames.length)
    (inside : Grown
      (Builder.openFrame
        { b with clauses := b.clauses ++ [clause.1], parameters := clause.2 } child closing)
      b.frames.length content reached opened threads inner) :
    Grown b place [(key, .named child)] (clause.1 :: reached.1, reached.2)
      (⟨child, content, closing⟩ :: opened) (threads ++ [⟨child, place, some b.frames.length⟩])
      (State.putObject inner place b.frames.length key child) where
  clauses := by
    have added := inside.clauses
    rw [Builder.clauses_openFrame, List.append_assoc] at added
    exact added
  parameters := inside.parameters
  frames := by
    have added := inside.frames
    rw [Builder.frames_openFrame, modify_append_length, List.append_assoc] at added
    show inner.frames.modify place (Frame.extend [(key, .named child)]) = _
    rw [added, modify_append_of_lt _ _ isOpen]
    rfl
  threads := by
    have added := inside.threads
    rw [Builder.threads_openFrame] at added
    show inner.threads ++ _ = _
    rw [added, List.append_assoc]

end Grown

mutual

/-- What projecting one entry without overrides adds. -/
theorem emitEntry_grown (config : Config) (e : Entry) (plain : e.isPlain = true) (path : String)
    (place : Nat) (outer : List (Nat × String)) (b : Builder) (isOpen : place < b.frames.length) :
    Grown b place [e.content path]
      (reachClauses config b.parameters (e.preorder place path b.frames.length))
      ((e.preorder place path b.frames.length).map Node.frame)
      ((e.postorder place path b.frames.length).map Node.thread)
      (emitEntry config path place outer b e) := by
  match e with
  | .scalar key value =>
      rw [emitEntry_scalar]
      have same : value.emit config path key place b = (value.expression path key, b) := by
        cases value with
        | override bound body tail => cases plain
        | typeName name => rfl
        | identity => rfl
        | property stored => rfl
      rw [State.putScalar, same]
      exact ⟨(List.append_nil _).symm, rfl, (List.append_nil _).symm, (List.append_nil _).symm⟩
  | .object key reach closing entries =>
      rw [Entry.isPlain, Bool.and_eq_true] at plain
      rw [emitEntry_object, Reach.emit_eq]
      rw [Entry.preorder, Entry.postorder, reachClauses_cons, List.map_append]
      generalize reach.clause config path (path ++ "_" ++ key) b.parameters = clause
      have inside := emit_grown config entries plain.2 (path ++ "_" ++ key) b.frames.length
        ((place, path) :: outer)
        (Builder.openFrame
          { b with clauses := b.clauses ++ [clause.1], parameters := clause.2 }
          (path ++ "_" ++ key) closing)
        (by simp)
      rw [Builder.frames_openFrame, Builder.parameters_openFrame, List.length_append,
        List.length_singleton] at inside
      exact inside.around isOpen

/-- What projecting entries without overrides adds. -/
theorem emit_grown (config : Config) (entries : List Entry) (plain : arePlain entries = true)
    (path : String) (place : Nat) (outer : List (Nat × String)) (b : Builder)
    (isOpen : place < b.frames.length) :
    Grown b place (entries.map (Entry.content path))
      (reachClauses config b.parameters (preorder place path b.frames.length entries))
      ((preorder place path b.frames.length entries).map Node.frame)
      ((postorder place path b.frames.length entries).map Node.thread)
      (emit config path place outer entries b) := by
  match entries with
  | [] => exact Grown.nil b place
  | e :: rest =>
      rw [arePlain, Bool.and_eq_true] at plain
      have first := emitEntry_grown config e plain.1 path place outer b isOpen
      have places : (emitEntry config path place outer b e).frames.length
          = b.frames.length + e.count := by
        rw [first.length_frames, List.length_map, Entry.length_preorder]
      have later := emit_grown config rest plain.2 path place outer
        (emitEntry config path place outer b e) (by omega)
      rw [places, first.parameters] at later
      have both := first.trans isOpen later
      rw [emit_cons, preorder, postorder, reachClauses_append, List.map_append, List.map_append]
      exact both

end

/-! ## The statement of a tree -/

/-- What a query root field comes to: its own node with what is asked of it, and what is selected on
it. -/
structure ReadTree where
  path : String
  label : String
  identity? : Option String
  supplied : List Supplied
  limit? : Option Nat
  closing : Closing
  entries : List Entry

/-- Looks up all that a query root field asks for. -/
def readTree (ctx : Context) (root : Root) (field : Field) : Except Error ReadTree := do
  if field.selections.isEmpty then
    throw (.compile (.emptySelection root.name))
  let supplied ←
    (suppliedByArguments ctx.index root.arguments field.arguments).mapError Error.schema
  let entries ← resolve ctx ctx.config.maxDepth root.returnType field.selections
  return ⟨root.path, root.label, ctx.index.identityField? root.returnType, supplied, root.limit?,
    rootClosing root, entries⟩

namespace ReadTree

variable (t : ReadTree)

/-- The nodes from number one on, in the order of their numbers. -/
def nodes : List Node :=
  preorder 0 t.path 1 t.entries

/-- The nodes from number one on, each behind the nodes below it. -/
def closedNodes : List Node :=
  postorder 0 t.path 1 t.entries

/-- The variables of all nodes, the root first. -/
def paths : List String :=
  t.path :: t.nodes.map (·.path)

/-- The variables that the `WITH` line of a node keeps: those of the nodes before it, and those of
the nodes behind it that are read before it. -/
def kept (place : Nat) : List String :=
  (t.paths.take place
    ++ (t.closedNodes.filter fun n => n.parent < place && place < n.number).map
      (·.path)).eraseDups

/-- The line that closes a node. -/
def withLine (n : Node) : String :=
  "WITH " ++ ", ".intercalate (t.kept n.number) ++ ", " ++ n.frame.closed

/-- The conditions on the root node, and the parameters they are bound to. -/
def filter : Filter × Table Json :=
  let (filter, b) := filterFor {} t.path t.identity? t.supplied
  (filter, b.parameters)

/-- The lines that reach the nodes, and all parameters. -/
def reached (config : Config) : List Clause × Table Json :=
  reachClauses config t.filter.2 t.nodes

/-- The line that limits the rows, if there is a limit. -/
def limitLine : List String :=
  (t.limit?.map fun limit => "WITH " ++ t.path ++ " LIMIT " ++ toString limit).toList

/-- The projection of the root node. -/
def frame : Frame :=
  ⟨t.path, t.entries.map (Entry.content t.path), t.closing⟩

/-- The lines of the statement. -/
def lines (config : Config) : List String :=
  (Clause.find ⟨t.path, t.label, t.filter.1⟩).text
    :: t.limitLine ++ (t.reached config).1.map Clause.text ++ (t.nodes.map t.withLine).reverse
    ++ ["RETURN " ++ t.frame.returned]

/-- The statement with its parameters. -/
def compiled (config : Config) : Compiled :=
  .declarative ("\n".intercalate (t.lines config)) (t.reached config).2

/-- The frames of a tree with their places: the numbers of their nodes. -/
theorem zipIdx_frames (entries : List Entry) (path : String) (next : Nat) :
    ((preorder 0 path next entries).map Node.frame).zipIdx next
      = (preorder 0 path next entries).map fun n => (n.frame, n.number) := by
  have length : (preorder 0 path next entries).length = countAll entries := by
    simpa using congrArg List.length (numbers_preorder entries 0 path next)
  rw [List.zipIdx_eq_zip_range', List.length_map, length, ← numbers_preorder entries 0 path next,
    List.zip_map']

variable {t} {b : Builder}

/-- A builder with the frames and threads of a tree keeps the variables of the tree. -/
theorem kept_eq (frames : b.frames = t.frame :: t.nodes.map Node.frame)
    (threads : b.threads = t.closedNodes.map Node.thread) (place : Nat) :
    b.kept place = t.kept place := by
  have carried : b.frames.map (·.carryOver) = t.paths := by
    rw [frames, List.map_cons, List.map_map]
    rfl
  have passing : (b.threads.filter (Builder.passes place)).map (·.name)
      = (t.closedNodes.filter fun n => n.parent < place && place < n.number).map (·.path) := by
    rw [threads, List.filter_map, List.map_map]
    rfl
  rw [Builder.kept, ReadTree.kept, passing, List.map_take, carried]

/-- A builder with the frames and threads of a tree has its `WITH` lines. -/
theorem withLines_eq (frames : b.frames = t.frame :: t.nodes.map Node.frame)
    (threads : b.threads = t.closedNodes.map Node.thread) :
    b.withLines = (t.nodes.map t.withLine).reverse := by
  have numbered : b.frames.zipIdx.drop 1 = t.nodes.map fun n => (n.frame, n.number) := by
    rw [frames, List.zipIdx_cons, List.drop_one, List.tail_cons]
    exact zipIdx_frames t.entries t.path 1
  rw [Builder.withLines, numbered, List.map_map]
  congr 2
  funext n
  simp only [Function.comp, Builder.withLine, withLine, kept_eq frames threads]

/-- The clauses in front of the projection of a tree. -/
def start (t : ReadTree) (config : Config) : List Clause :=
  .find ⟨t.path, t.label, t.filter.1⟩
    :: (t.limit?.map fun limit => Clause.limit t.path limit).toList ++ (t.reached config).1

/-- A builder with the clauses, parameters, frames and threads of a tree is its statement. -/
theorem compiled_eq {config : Config} (clauses : b.clauses = t.start config)
    (parameters : b.parameters = (t.reached config).2)
    (frames : b.frames = t.frame :: t.nodes.map Node.frame)
    (threads : b.threads = t.closedNodes.map Node.thread) :
    (Plan.projecting b).compiled = t.compiled config := by
  have limit : (t.limit?.map fun limit => Clause.limit t.path limit).toList.map Clause.text
      = t.limitLine := by
    unfold limitLine
    cases t.limit? <;> rfl
  have returned : b.returnLines = ["RETURN " ++ t.frame.returned] := by
    rw [Builder.returnLines, frames]
    rfl
  have lines : b.lines = t.lines config := by
    rw [Builder.lines, withLines_eq frames threads, returned, clauses, start, List.map_append,
      List.map_cons, limit]
    rfl
  rw [Plan.compiled, compiled, Builder.text, lines, parameters]

end ReadTree

/-- What the projection of a root field leaves in the builder. -/
theorem RootProjection.final_grown {p : RootProjection} (unframed : Unframed p.start)
    (plain : arePlain p.entries = true) (config : Config) :
    Grown (p.start.openFrame p.path p.closing) 0 (p.entries.map (Entry.content p.path))
      (reachClauses config p.start.parameters (preorder 0 p.path 1 p.entries))
      ((preorder 0 p.path 1 p.entries).map Node.frame)
      ((postorder 0 p.path 1 p.entries).map Node.thread) (p.final config) := by
  have opened : (p.start.openFrame p.path p.closing).frames.length = 1 := by
    simp [unframed.frames]
  have grown := emit_grown config p.entries plain p.path 0 []
    (p.start.openFrame p.path p.closing) (by omega)
  rw [opened, Builder.parameters_openFrame] at grown
  exact grown

theorem clauses_limitRows (b : Builder) (root : Root) :
    (limitRows b root).clauses
      = b.clauses ++ (root.limit?.map fun limit => Clause.limit root.path limit).toList := by
  unfold limitRows
  cases root.limit? with
  | none => exact (List.append_nil _).symm
  | some limit => rfl

theorem parameters_limitRows (b : Builder) (root : Root) :
    (limitRows b root).parameters = b.parameters := by
  unfold limitRows
  split <;> rfl

/-- A projection behind the clause that finds the root node of a tree is the statement of the
tree. -/
theorem ReadTree.compiled_final {t : ReadTree} {root : Root} {found : Builder}
    (unframed : Unframed found) (plain : arePlain t.entries = true) (path : root.path = t.path)
    (limit : root.limit? = t.limit?)
    (clauses : found.clauses = [.find ⟨t.path, t.label, t.filter.1⟩])
    (parameters : found.parameters = t.filter.2) (config : Config) :
    (Plan.projecting ((RootProjection.mk (limitRows found root) t.path t.closing t.entries).final
      config)).compiled = t.compiled config := by
  have start := unframed.limitRows root
  have grown := RootProjection.final_grown
    (p := ⟨limitRows found root, t.path, t.closing, t.entries⟩) start plain config
  apply ReadTree.compiled_eq
  · rw [grown.clauses, Builder.clauses_openFrame, parameters_limitRows, clauses_limitRows, clauses,
      parameters, path, limit]
    rfl
  · rw [grown.parameters, parameters_limitRows, parameters]
    rfl
  · rw [grown.frames, Builder.frames_openFrame, start.frames]
    rfl
  · rw [grown.threads, Builder.threads_openFrame, start.threads]
    rfl

/-- A read is the statement of its tree. -/
theorem planRead_eq_readTree {ctx : Context} {root : Root} (plain : ctx.index.isPlain = true)
    (object : root.returnsObject = true) (field : Field) :
    (planRead ctx root field).map Plan.compiled
      = (readTree ctx root field).map (·.compiled ctx.config) := by
  simp only [planRead, readTree, object, bind, Except.bind, Bool.not_true, Bool.false_eq_true,
    if_false]
  split
  · rfl
  cases (suppliedByArguments ctx.index root.arguments field.arguments).mapError Error.schema with
  | error e => rfl
  | ok supplied =>
      have unframed (clause : Clause) :
          Unframed ((({} : Builder).referAll root.path supplied).2.addClause clause) :=
        (Unframed.empty.referAll root.path supplied).addClause clause
      simp only [filterFor]
      rw [projectRoot_eq (unframed _)]
      cases resolved : resolve ctx ctx.config.maxDepth root.returnType field.selections with
      | error e => rfl
      | ok entries =>
          let tree : ReadTree := ⟨root.path, root.label, ctx.index.identityField? root.returnType,
            supplied, root.limit?, rootClosing root, entries⟩
          have entriesPlain : arePlain tree.entries = true := resolve_arePlain plain resolved
          have clauses : ((({} : Builder).referAll root.path supplied).2.addClause
              (.find ⟨tree.path, tree.label, tree.filter.1⟩)).clauses
                = [.find ⟨tree.path, tree.label, tree.filter.1⟩] := by
            rw [Builder.addClause, Builder.clauses_referAll]
            rfl
          exact congrArg Except.ok
            (ReadTree.compiled_final (unframed _) entriesPlain rfl rfl clauses rfl ctx.config)

theorem key_resolveField {ctx : Context} {inner : Resolves} {typeName : String} {field : Field}
    {e : Entry} (found : resolveField ctx inner typeName field = .ok e) :
    e.key = field.responseKey := by
  obtain rfl | ⟨d, -, ⟨value, -, rfl⟩ | ⟨reach, entries, -, -, rfl⟩⟩ := resolveField_cases found
  · rfl
  · rfl
  · rfl

/-- The keys of entries are those of the selected fields, in the order in which they first occur. -/
theorem keys_resolve {ctx : Context} {levels : Nat} {typeName : String}
    {selections : List Selection} {entries : List Entry}
    (found : resolve ctx levels typeName selections = .ok entries) :
    ∃ fields, collectFields typeName ctx.fragments selections = .ok fields
      ∧ entries.map Entry.key = (fields.map (·.responseKey)).eraseDups := by
  cases levels with
  | zero => cases found
  | succ levels =>
      obtain ⟨fields, collected, found⟩ := resolve_eq_ok found
      refine ⟨fields, collected, ?_⟩
      rw [← responseKeys_groupFields]
      exact map_eq_of_mapM (fun field e resolved => key_resolveField resolved) found

/-- The statement of a query root field is the one rendered from the tree of its selection, and if
there is no tree there is no statement. On every level of the tree the response keys come in the
order in which the selected fields first have them. -/
theorem compileRoot_eq_rendering {ctx : Context} {name : String} {root : Root}
    (plain : ctx.index.isPlain = true) (found : ctx.index.root name = .ok root)
    (query : root.kind = .query) (object : root.returnsObject = true) (limit? : Option Nat)
    (field : Field) :
    Compiler.compileRoot ctx { root with limit? := limit? } field
        = (readTree ctx { root with limit? := limit? } field).map (·.compiled ctx.config)
      ∧ ∀ levels typeName selections entries,
          resolve ctx levels typeName selections = .ok entries →
          ∃ fields, collectFields typeName ctx.fragments selections = .ok fields
            ∧ ∀ path, (entries.map (Entry.content path)).map Prod.fst
                = (fields.map (·.responseKey)).eraseDups := by
  refine ⟨?_, ?_⟩
  · have unmapped : root.fragment? = none := Index.root_fragment?_eq_none plain found
    have planned : Compiler.planRoot ctx { root with limit? := limit? } field
        = planRead ctx { root with limit? := limit? } field := by
      simp only [Compiler.planRoot, unmapped, query]
    rw [Compiler.compileRoot, planned]
    refine planRead_eq_readTree plain ?_ field
    exact object
  · intro levels typeName selections entries resolved
    obtain ⟨fields, collected, keys⟩ := keys_resolve resolved
    refine ⟨fields, collected, fun path => ?_⟩
    rw [List.map_map, ← keys]
    congr 1
    funext e
    exact Entry.fst_content path e

/-- Persons with their friends and their pets; no field is an override. -/
def petsIndex : Index := ⟨⟨[
  ⟨"Person", .object, [], [
    ⟨"name", ⟨"String", false, false⟩, [], []⟩,
    ⟨"friends", ⟨"Person", true, false⟩, [⟨"name", ⟨"String", false, false⟩, none, []⟩],
      [⟨"relationship", [("type", .string "KNOWS")]⟩]⟩,
    ⟨"pet", ⟨"Pet", false, false⟩, [], [⟨"relationship", [("type", .string "OWNS")]⟩]⟩]⟩,
  ⟨"Pet", .object, [], [⟨"name", ⟨"String", false, false⟩, [], []⟩]⟩,
  ⟨"Query", .object, [], [⟨"persons", ⟨"Person", true, false⟩, [], []⟩]⟩]⟩⟩

/-- Two persons, with friends of a name and the pets of these, and with their own pets. -/
def petsField : Operation.Field :=
  ⟨none, "persons", [("limit", .number (.natural 2))], [
    .field none "name" [] [],
    .field none "friends" [("name", .string "Ann")] [
      .field none "pet" [] [.field none "name" [] []]],
    .field none "pet" [] [.field none "name" [] []],
    .field none "friends" [("name", .string "Ann")] [.field none "name" [] []]]⟩

theorem compileRoot_eq_rendering_pets :
    ∃ root tree, petsIndex.root "persons" = .ok root
      ∧ readTree ⟨petsIndex, {}, []⟩ { root with limit? := some 2 } petsField = .ok tree
      ∧ tree.paths = ["persons_Person", "persons_Person_friends", "persons_Person_friends_pet",
          "persons_Person_pet"]
      ∧ Compiler.compileRoot ⟨petsIndex, {}, []⟩ { root with limit? := some 2 } petsField
          = .ok (tree.compiled {}) := by
  have shape : (petsIndex.root "persons").toOption.any (fun root =>
      root.kind == .query && root.returnsObject
        && (readTree ⟨petsIndex, {}, []⟩ { root with limit? := some 2 } petsField).toOption.any
          fun tree => tree.paths == ["persons_Person", "persons_Person_friends",
            "persons_Person_friends_pet", "persons_Person_pet"]) = true := by decide +kernel
  obtain ⟨root, found, shape⟩ := exists_ok_of_any shape
  simp only [Bool.and_eq_true] at shape
  obtain ⟨⟨query, object⟩, shape⟩ := shape
  obtain ⟨tree, treed, paths⟩ := exists_ok_of_any shape
  refine ⟨root, tree, found, treed, by simpa using paths, ?_⟩
  have rendered := @compileRoot_eq_rendering ⟨petsIndex, {}, []⟩ "persons" root
    (by decide +kernel) found (by simpa using query) object (some 2) petsField
  rw [rendered.1, treed]
  rfl

end GraphBridge.Compile
