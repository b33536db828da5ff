import GraphBridge.Compile.Write
import GraphBridge.Operation.Reader

/-!
# Compiling operations

A compiler holds a schema and a usable configuration. It compiles the root field of one operation of
a document: by its override if it has one, else by the kind of the root type it is declared on.
-/

namespace GraphBridge.Compile

open Operation Schema

/-- A schema with a configuration. -/
structure Compiler where
  index : Index
  config : Config

namespace Compiler

/-- A compiler, unless the configuration cannot be used. -/
def make (index : Index) (config : Config) : Except Error Compiler :=
  match config.validate with
  | .ok () => .ok ⟨index, config⟩
  | .error e => .error (.config e)

/-- Plans a root field that has been looked up. -/
def planRoot (ctx : Context) (root : Root) (field : Field) : Except Error Plan :=
  match root.fragment?, root.kind with
  | some fragment, _ => planOverride ctx root field fragment
  | none, .mutation => planWrite ctx root field
  | none, .query => planRead ctx root field

/-- Compiles a root field that has been looked up. -/
def compileRoot (ctx : Context) (root : Root) (field : Field) : Except Error Compiled :=
  (planRoot ctx root field).map Plan.compiled

/-- Compiles one operation of a document: the one of the given name, or the first. -/
def compileDocument (c : Compiler) (document : Operation.Document) (name? : Option String) :
    Except Error Compiled := do
  let empty := Error.compile (.emptySelection (name?.getD "<anonymous>"))
  match document.operation? name? with
  | none => .error empty
  | some operation =>
      match operation.rootField? with
      | none => .error empty
      | some field => do
          let root ← (c.index.root field.name).mapError Error.schema
          compileRoot ⟨c.index, c.config, operation.fragments⟩
            { root with limit? := limitOf? field.arguments } field

/-- Compiles an operation of a text for given values of the variables. -/
def compile (c : Compiler) (source : String) (values : Table Json) (name? : Option String) :
    Except Error Compiled := do
  let document ← (Operation.Document.ofText source values).mapError Error.parse
  c.compileDocument document name?

end Compiler

end GraphBridge.Compile
