import GraphBridge.Compile.Argument
import GraphBridge.Compile.Selection
import GraphBridge.Config
import GraphBridge.Query.Fragment
import GraphBridge.Query.Literal
import GraphBridge.Query.Placeholder

/-!
# Projecting selections

A selection on a node becomes entries of the frame of that node. A scalar field reads a property,
the identity or the value of an override fragment; an object field adds a pattern of its own, opens
a frame for the nodes it reaches, and projects its selection there, one level deeper.
-/

namespace GraphBridge.Compile

open Operation Query Schema Statement

/-- What a compilation works against. -/
structure Context where
  index : Index
  config : Config
  fragments : List Operation.FragmentDefinition

/-- The fragment of an override with the arguments of the field put in. -/
def fragmentFor (field : Field) (fragment : String) : Except CompileError Fragment :=
  let filled := substitute fragment fun name => (field.argument? name).map rawText
  (Fragment.ofText filled).mapError fun fault =>
    .invalidFragment field.name (.openQuote fault)

/-- The two sides of the last `RETURN` of a fragment. -/
def splitFor (field : Field) (fragment : Fragment) :
    Except CompileError (Fragment × Fragment) :=
  match fragment.splitReturn with
  | some parts => .ok parts
  | none => .error (.invalidFragment field.name .noReturn)

/-- The one variable that a fragment for an object returns. -/
def returnedVariable (field : Field) (tail : Fragment) : Except CompileError String :=
  match tail.soleVariable with
  | some name => .ok name
  | none => .error (.invalidFragment field.name (.notAVariable tail.text))

/-- The clause of an inlined fragment: a leading `MATCH` is made optional if the configuration says
so. -/
def inlinedClause (config : Config) (body : Inlined) : Clause :=
  .inlined (config.optionalOverrideMatches
    && body.renamed.leadingKeyword.any (Text.equalIgnoringCase "MATCH")) body

/-- New names for the variables of a scalar override: `this` is the node at hand, and what the
fragment binds gets the name of the field in front. -/
def scalarNames (path stem : String) (bound : List String) : Table String :=
  ("this", path) :: bound.map fun name => (name, stem ++ "_" ++ name)

/-- New names for the variables of an object override: the returned variable is the new node. -/
def objectNames (parent child returned : String) (bound : List String) : Table String :=
  ("this", parent) :: (returned, child) :: bound.map fun name => (name, child ++ "_" ++ name)

/-- Binds a variable that a clause produces and keeps it visible for a frame. -/
def keepFor (b : Builder) (frame : Nat) (name : String) : Builder :=
  (b.bindScope name).thread name frame none

/-- Keeps each variable that a returned expression mentions. -/
def keepMentioned (frame : Nat) (tail : Fragment) (names : List String) (b : Builder) : Builder :=
  names.foldl (fun b name => if tail.mentions name then keepFor b frame name else b) b

/-- The body of an override, unless there is nothing in it. -/
def addBody (config : Config) (b : Builder) (body : Inlined) : Builder :=
  if body.renamed.isEmpty then b else b.addClause (inlinedClause config body)

/-- Inlines the two sides of a scalar override and gives the expression of its value. -/
def inlineScalar (config : Config) (bound : List String) (body tail : Fragment)
    (path key : String) (frame : Nat) (b : Builder) : Expression × Builder :=
  let stem := path ++ "_" ++ key
  let names := scalarNames path stem bound
  let body : Inlined := ⟨body, names⟩
  let tail : Inlined := ⟨tail, names⟩
  if config.subqueryCalls then
    (.named stem, keepFor (b.addClause (.subquery path body tail stem)) frame stem)
  else
    let b := addBody config b body
    if tail.renamed.isAggregate then
      (.named stem, keepFor (b.addClause (.aggregate b.scope tail stem)) frame stem)
    else
      let renamed := bound.map fun name => stem ++ "_" ++ name
      (.inlined tail, keepMentioned frame tail.renamed renamed b)

/-- Inlines the override of a scalar field. -/
def projectScalarOverride (config : Config) (fragment : String) (field : Field) (path : String)
    (frame : Nat) (b : Builder) : Except CompileError (Expression × Builder) := do
  let fragment ← fragmentFor field fragment
  let (body, tail) ← splitFor field fragment
  return inlineScalar config fragment.boundVariables body tail path field.responseKey frame b

/-- The expression of a scalar field. -/
def projectScalar (config : Config) (d : FieldDescriptor) (field : Field) (path : String)
    (frame : Nat) (b : Builder) : Except CompileError (Expression × Builder) :=
  match d.mapping with
  | .identity => .ok (.identity path, b)
  | .plain | .relationship _ _ => .ok (.property path d.stored, b)
  | .overridden fragment => projectScalarOverride config fragment field path frame b

/-- Adds the pattern of a relationship. -/
def inlineRelationship (edgeType : String) (direction : Direction) (label : String)
    (identity? : Option String) (supplied : List Supplied) (parent child : String)
    (b : Builder) : Builder :=
  let (filter, b) := filterFor b child identity? supplied
  b.addClause (.reach parent ⟨child ++ "_" ++ edgeType, edgeType, direction⟩
    ⟨child, label, filter⟩)

/-- Inlines the body of an object override, whose returned variable becomes the child. -/
def inlineObject (config : Config) (bound : List String) (body : Fragment)
    (returned parent child : String) (b : Builder) : Builder :=
  b.addClause (inlinedClause config ⟨body, objectNames parent child returned bound⟩)

/-- Adds the clause that reaches the nodes of an object field. -/
def reachObject (ctx : Context) (d : FieldDescriptor) (field : Field) (parent child : String)
    (b : Builder) : Except Error Builder := do
  let label ← (ctx.index.label d.graphType).mapError Error.schema
  match d.mapping with
  | .relationship edgeType direction =>
      let supplied ←
        (suppliedByArguments ctx.index d.arguments field.arguments).mapError Error.schema
      return inlineRelationship edgeType direction label (ctx.index.identityField? d.graphType)
        supplied parent child b
  | .overridden fragment =>
      let fragment ← (fragmentFor field fragment).mapError Error.compile
      let (body, tail) ← (splitFor field fragment).mapError Error.compile
      let returned ← (returnedVariable field tail).mapError Error.compile
      return inlineObject ctx.config fragment.boundVariables body returned parent child b
  | .plain | .identity =>
      .error (.schema (.invalidDirective "relationship" d.name .unmappedObject))

/-- How the frame of an object field is closed. -/
def closingOf (d : FieldDescriptor) (field : Field) : Closing :=
  if d.isArray then .array (limitOf? field.arguments) else .object

/-- A way to project selections on a type into the frame of a variable. -/
abbrev Projects :=
  (typeName path : String) → (frame : Nat) → List Selection → Builder → Except Error Builder

/-- Projects an object field: reaches its nodes, opens their frame, projects the selection there,
and puts the result into the frame of the parent. -/
def projectObject (ctx : Context) (inner : Projects) (d : FieldDescriptor) (field : Field)
    (parent : String) (frame : Nat) (b : Builder) : Except Error Builder := do
  let child := parent ++ "_" ++ field.responseKey
  let b ← reachObject ctx d field parent child b
  let childFrame := b.frames.length
  let b ← inner d.graphType child childFrame field.selections
    (b.openFrame child (closingOf d field))
  return (b.project frame field.responseKey (.named child)).thread child frame (some childFrame)

/-- Projects one field of a type. -/
def projectField (ctx : Context) (inner : Projects) (typeName path : String) (frame : Nat)
    (b : Builder) (field : Field) : Except Error Builder :=
  if field.name == "__typename" then
    .ok (b.project frame field.responseKey (.typeName typeName))
  else do
    let d ← (ctx.index.field typeName field.name).mapError Error.schema
    if d.isObject then projectObject ctx inner d field path frame b
    else
      let (expression, b) ← (projectScalar ctx.config d field path frame b).mapError Error.compile
      return b.project frame field.responseKey expression

/-- Projects selections on a type, with the given number of levels left. -/
def projectSelection (ctx : Context) : Nat → Projects
  | 0, _, _, _, _, _ => .error (.compile (.depthExceeded ctx.config.maxDepth))
  | levels + 1, typeName, path, frame, selections, b => do
      let fields ←
        (selectedFields typeName ctx.fragments selections).mapError Error.compile
      fields.foldlM (projectField ctx (projectSelection ctx levels) typeName path frame) b

end GraphBridge.Compile
