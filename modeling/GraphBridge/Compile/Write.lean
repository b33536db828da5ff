import GraphBridge.Compile.MutationName
import GraphBridge.Compile.Read

/-!
# Writing statements

The name of a mutation selects one of six templates. Which node or edge is written is found among
the arguments: by an argument marked as identity, by its type, by the input object, or by names that
start with `from` and `to`.
-/

namespace GraphBridge.Compile

open Operation Schema Statement

/-- The arguments of a mutation. -/
structure Given where
  field : Field
  declared : List ArgumentDescriptor
  /-- The non-null fields of the input object, the first argument that is an object. -/
  input : List Supplied
  deriving Repr

namespace Given

/-- The arguments supplied to a mutation root. -/
def ofField (index : Index) (root : Root) (field : Field) : Except SchemaError Given := do
  match field.arguments.find? fun (_, value) => value.isObject with
  | none => return ⟨field, root.arguments, []⟩
  | some (name, value) =>
      let declared? := (ArgumentDescriptor.find? root.arguments name).filter fun a =>
        (index.type? a.graphType).isSome
      let inputs ← match declared? with
        | some a => index.inputArguments a.graphType
        | none => .ok []
      return ⟨field, root.arguments, Supplied.ofInput inputs (value.object?.getD [])⟩

/-- The value of a declared argument that is neither null nor an object. -/
def scalar? (g : Given) (a : ArgumentDescriptor) : Option Json :=
  (g.field.argument? a.name).filter fun value => !value.isNull && !value.isObject

/-- The identity among the arguments themselves: one marked as identity, else the first of type
`ID`. -/
def ownId? (g : Given) : Option Supplied :=
  let supplied := g.declared.filterMap fun a => (g.scalar? a).map fun value => (a, value)
  let found := (supplied.find? fun (a, _) => a.isId)
    <|> (supplied.find? fun (a, _) => a.graphType == "ID")
  found.map fun (a, value) => ⟨a.name, some a, value⟩

/-- The identity inside the input object: a field marked as identity, else the one named like the
identity of the type, else the first of type `ID`. -/
def inputId? (g : Given) (identity? : Option String) : Option Supplied :=
  g.input.find? Supplied.isId
    <|> (g.input.find? fun s => some s.name == identity?)
    <|> (g.input.find? fun s => s.declared?.any (·.graphType == "ID"))

/-- The first argument that is not null; of an object its first member that is not null. -/
def firstValue? (g : Given) : Option Supplied :=
  (g.field.arguments.find? fun (_, value) => !value.isNull).map fun (name, value) =>
    match value with
    | .object members =>
        ⟨name, none, ((members.map Prod.snd).find? fun member => !member.isNull).getD .null⟩
    | other => ⟨name, none, other⟩

/-- The identity of the node that is written, with the name it was found under. -/
def nodeId (g : Given) (index : Index) (root : Root) (fallBack : Bool) :
    Except CompileError Supplied :=
  let found := g.ownId?
    <|> g.inputId? (index.identityField? root.returnType)
    <|> (if fallBack then g.firstValue? else none)
  match found with
  | some id => .ok id
  | none => .error (.missingArgument root.name (root.idArgument?.getD "id"))

/-- The first scalar argument whose name starts with a word. -/
def named? (g : Given) (word : String) : Option Supplied :=
  (g.field.arguments.find? fun (name, value) =>
    word.toList.isPrefixOf name.toList && !value.isNull && !value.isObject).map
      fun (name, value) => ⟨name, none, value⟩

/-- The `ID` arguments whose names start with neither `from` nor `to`. -/
def otherIds (g : Given) : List Supplied :=
  let others := g.declared.filter fun a =>
    a.graphType == "ID" && !"from".toList.isPrefixOf a.name.toList
      && !"to".toList.isPrefixOf a.name.toList
  let supplied := others.filterMap fun a =>
    (g.field.argument? a.name).map fun value => (⟨a.name, some a, value⟩ : Supplied)
  supplied.filter fun s => !s.value.isNull

/-- The identities of the two ends of an edge: the arguments named for them, and for an end without
one the next of the other `ID` arguments. -/
def endpoints (g : Given) (root : Root) : Except CompileError (Supplied × Supplied) :=
  let others := g.otherIds
  let source? := g.named? "from" <|> others.head?
  let others := if (g.named? "from").isSome then others else others.drop 1
  let target? := g.named? "to" <|> others.head?
  match source?, target? with
  | some source, some target => .ok (source, target)
  | none, _ => .error (.missingArgument root.name "from")
  | _, none => .error (.missingArgument root.name "to")

end Given

/-- The label that a written type has in the graph: that of the type, if the schema has it. -/
def writtenLabel (index : Index) (typeName : String) : String :=
  match index.type? typeName with
  | some t => (storedName? t.directives).getD t.name
  | none => typeName

/-- Binds the fields of the input object that are not identities, and gives the references to
them. -/
def bindInput (b : Builder) (path : String) (input : List Supplied) : List Reference × Builder :=
  b.referAll path (input.filter fun s => !s.isId)

/-- Adds the clause that sets the fields of the input object, apart from the one that gave the
identity. -/
def setClause (b : Builder) (path : String) (input : List Supplied) (skipped? : Option String) :
    Builder :=
  let (bound, b) := bindInput b path (input.filter fun s => some s.name != skipped?)
  if bound.isEmpty then b else b.addClause (.set path bound)

/-- Binds the ends of an edge and gives the references to them. -/
def bindEndpoints (b : Builder) (path : String) (ends : Supplied × Supplied) :
    (Reference × Reference) × Builder :=
  let (source, b) := b.refer (path ++ "_whereFromId") ends.1
  let (target, b) := b.refer (path ++ "_whereToId") ends.2
  ((source, target), b)

/-- Binds what identifies an edge: its two ends, or else its own identity. -/
def bindEdge (g : Given) (root : Root) (b : Builder) : Except CompileError (EdgeKey × Builder) :=
  match g.endpoints root with
  | .ok ends =>
      let ((source, target), b) := bindEndpoints b root.path ends
      .ok (.ends source target, b)
  | .error missing =>
      match g.ownId? with
      | some id =>
          let (reference, b) := b.refer (root.path ++ "_whereId") id
          .ok (.own reference, b)
      | none => .error missing

/-- Binds the identity of a node and adds the clause that finds it. -/
def matchNode (b : Builder) (path : String) (id : Supplied) : Builder :=
  let (reference, b) := b.refer (path ++ "_whereId") id
  b.addClause (.findNode path reference)

/-- Projects what was written behind the clauses that write it, or returns its identity if nothing
is selected. Reading clauses are kept apart from the writing ones. -/
def projectWritten (ctx : Context) (root : Root) (field : Field) (b : Builder) :
    Except Error Plan := do
  if field.selections.isEmpty || !root.returnsObject then
    return .returning b (.identity root.path)
  let written := b.clauses.length
  let frame := b.frames.length
  let b ← projectSelection ctx ctx.config.maxDepth root.returnType root.path frame
    field.selections (b.openFrame root.path (.root false none false))
  return .projecting
    (if written < b.clauses.length then b.insertClause written (.keep root.path) else b)

/-- Creates a node from the input object. -/
def createNode (ctx : Context) (root : Root) (field : Field) (g : Given) (typeName : String) :
    Except Error Plan :=
  let (bound, b) := bindInput {} root.path g.input
  projectWritten ctx root field
    (b.addClause (.createNode root.path (writtenLabel ctx.index typeName) bound))

/-- Sets the properties of a node. -/
def updateNode (ctx : Context) (root : Root) (field : Field) (g : Given) :
    Except Error Plan := do
  let id ← (g.nodeId ctx.index root false).mapError Error.compile
  projectWritten ctx root field
    (setClause (matchNode {} root.path id) root.path g.input (some id.name))

/-- Deletes a node with its edges. -/
def deleteNode (ctx : Context) (root : Root) (g : Given) : Except Error Plan := do
  let id ← (g.nodeId ctx.index root true).mapError Error.compile
  return .returning ((matchNode {} root.path id).addClause (.deleteNode root.path)) .truth

/-- Creates an edge between two nodes. -/
def connectEdge (ctx : Context) (root : Root) (field : Field) (g : Given) (typeName : String) :
    Except Error Plan := do
  let ends ← (g.endpoints root).mapError Error.compile
  let ((source, target), b) := bindEndpoints {} root.path ends
  let (bound, b) := bindInput (b.addClause (.findEnds root.path source target)) root.path g.input
  projectWritten ctx root field
    (b.addClause (.createEdge root.path (writtenLabel ctx.index typeName) bound))

/-- Sets the properties of an edge. -/
def updateEdge (ctx : Context) (root : Root) (field : Field) (g : Given) (typeName : String) :
    Except Error Plan := do
  let (key, b) ← (bindEdge g root {}).mapError Error.compile
  let found := b.addClause (.findEdge root.path (writtenLabel ctx.index typeName) key)
  projectWritten ctx root field (setClause found root.path g.input none)

/-- Deletes an edge. -/
def deleteEdge (ctx : Context) (root : Root) (g : Given) (typeName : String) :
    Except Error Plan := do
  let (key, b) ← (bindEdge g root {}).mapError Error.compile
  let found := b.addClause (.findEdge root.path (writtenLabel ctx.index typeName) key)
  return .returning (found.addClause (.deleteEdge root.path)) .truth

/-- Plans a mutation root field without an override. -/
def planWrite (ctx : Context) (root : Root) (field : Field) : Except Error Plan :=
  match MutationName.classify root.name with
  | none => .error (.compile (.unsupportedMutation root.name))
  | some ⟨shape, typeName⟩ => do
      let g ← (Given.ofField ctx.index root field).mapError Error.schema
      match shape with
      | .createNode => createNode ctx root field g typeName
      | .updateNode => updateNode ctx root field g
      | .deleteNode => deleteNode ctx root g
      | .connectEdge => connectEdge ctx root field g typeName
      | .updateEdge => updateEdge ctx root field g typeName
      | .deleteEdge => deleteEdge ctx root g typeName

end GraphBridge.Compile
