import GraphBridge.Compile.Projection

/-!
# Reading statements

A query root field becomes a `MATCH` of its node with the filters of its arguments and a projection
of its selection. A root field with an override fragment passes a traversal script through, takes a
scalar statement as it is, or projects its selection behind the body of the fragment.
-/

namespace GraphBridge.Compile

open Operation Query Schema Statement

/-- A compiled statement. -/
structure Compiled where
  text : String
  language : QueryLanguage
  parameters : Table Json
  /-- Stored keys and field names, for reshaping the answer of a traversal. -/
  aliases? : Option (Table String)
  deriving Repr

namespace Compiled

/-- A declarative statement. -/
def declarative (text : String) (parameters : Table Json) : Compiled :=
  ⟨text, .openCypher, parameters, none⟩

end Compiled

/-- What a root field comes to before it is text. -/
inductive Plan where
  /-- A traversal script, with the alias map of the type it returns. -/
  | traversal (script : String) (aliases? : Option (Table String))
  /-- An override fragment that is the whole statement. -/
  | verbatim (fragment : Inlined)
  /-- Clauses behind which frames are projected. -/
  | projecting (b : Builder)
  /-- Clauses behind which an expression is returned. -/
  | returning (b : Builder) (expression : Expression)
  deriving Repr

namespace Plan

/-- The statement of a plan. -/
def compiled : Plan → Compiled
  | .traversal script aliases? => ⟨script, .gremlin, [], aliases?⟩
  | .verbatim fragment => .declarative fragment.text []
  | .projecting b => .declarative b.text b.parameters
  | .returning b expression => .declarative (b.textReturning expression) b.parameters

end Plan

/-- How the outermost frame of a read is closed. -/
def rootClosing (root : Root) : Closing :=
  .root root.returnsArray (if root.returnsArray then root.limit? else none) (!root.returnsArray)

/-- Adds the clause that limits the rows, if there is a limit. -/
def limitRows (b : Builder) (root : Root) : Builder :=
  match root.limit? with
  | some limit => b.addClause (.limit root.path limit)
  | none => b

/-- Projects the selection of a root field behind the clauses that bind its node. -/
def projectRoot (ctx : Context) (root : Root) (field : Field) (b : Builder) :
    Except Error Plan := do
  let b := limitRows b root
  let frame := b.frames.length
  let b ← projectSelection ctx ctx.config.maxDepth root.returnType root.path frame
    field.selections (b.openFrame root.path (rootClosing root))
  return .projecting b

/-- Plans a query root field without an override. -/
def planRead (ctx : Context) (root : Root) (field : Field) : Except Error Plan := do
  if !root.returnsObject then
    throw (.compile (.unresolvedType root.returnType))
  if field.selections.isEmpty then
    throw (.compile (.emptySelection root.name))
  let supplied ←
    (suppliedByArguments ctx.index root.arguments field.arguments).mapError Error.schema
  let (filter, b) := filterFor {} root.path (ctx.index.identityField? root.returnType) supplied
  projectRoot ctx root field (b.addClause (.find ⟨root.path, root.label, filter⟩))

/-- Whether a fragment is a traversal script. -/
def isTraversal (fragment : String) : Bool :=
  "g.".toList.isPrefixOf (fragment.toList.dropWhile Text.isBlank)

/-- A traversal script with the arguments put in. -/
def planTraversal (ctx : Context) (root : Root) (field : Field) (fragment : String) :
    Except Error Plan := do
  let text := substitute fragment fun name => (field.argument? name).map rawText
  let aliases? ←
    if root.returnsObject then
      ((ctx.index.aliasMap root.returnType).map some).mapError Error.schema
    else .ok none
  return .traversal text aliases?

/-- The body of a root override and the variable it returns, if it returns one. Without a `RETURN`
it has to mention `this`. -/
def rootBody (field : Field) (fragment : Fragment) :
    Except CompileError (Fragment × Option String) :=
  match fragment.splitReturn with
  | none =>
      if fragment.mentions "this" then .ok (fragment, none)
      else .error (.invalidFragment field.name .noReturnNorThis)
  | some (body, tail) => do
      let returned ← returnedVariable field tail
      return (body, some returned)

/-- New names for the variables of a root override: the returned variable is the root, and `this`
is too unless another variable is returned. -/
def rootNames (path : String) : Option String → Table String
  | none => [("this", path)]
  | some returned =>
      if returned == "this" then [("this", path)]
      else [("this", path ++ "_this"), (returned, path)]

/-- Plans a root field with an override. -/
def planOverride (ctx : Context) (root : Root) (field : Field) (fragment : String) :
    Except Error Plan := do
  if isTraversal fragment then
    planTraversal ctx root field fragment
  else
    let fragment ← (fragmentFor field fragment).mapError Error.compile
    if !root.returnsObject || field.selections.isEmpty then
      return .verbatim ⟨fragment, rootNames root.path none⟩
    else
      let (body, returned?) ← (rootBody field fragment).mapError Error.compile
      let body : Inlined := ⟨body, rootNames root.path returned?⟩
      let b : Builder := {}
      projectRoot ctx root field
        (if body.renamed.isEmpty then b else b.addClause (.inlined false body))

end GraphBridge.Compile
