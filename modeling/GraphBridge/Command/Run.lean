import GraphBridge.Command.Display
import GraphBridge.Command.Failure
import GraphBridge.Json.Reader
import GraphBridge.Response.Reshape

/-!
# Running commands

A request is carried out on the files it names. The outcome is an exit code with what is written to
the output and at most one line that reports a failure.
-/

namespace GraphBridge.Command

open Compile Schema

/-- The text of a file in its role. -/
def readAs (read : ReadFile) (role : FileRole) (path : String) : Except Failure String :=
  (read path).mapError (Failure.unreadable role path)

/-- The index of the schema in a file. -/
def loadSchema (read : ReadFile) (path : String) : Except Failure Index := do
  let text ← readAs read .schema path
  (Index.ofText text).mapError (Failure.invalidSchema path)

namespace CompileRequest

/-- The configuration that a request sets. -/
def config (request : CompileRequest) : Config where
  subqueryCalls := request.subqueryCalls
  maxDepth := request.maxDepth?.getD (({} : Config).maxDepth)

/-- The text of the operation. -/
def source (read : ReadFile) (request : CompileRequest) : Except Failure String :=
  match request.operation?, request.file? with
  | some text, _ => .ok text
  | none, some path => readAs read .operation path
  | none, none => .error .noOperation

/-- The values of the variables; none are given by default. -/
def values (request : CompileRequest) : Except Failure (Table Json) :=
  match request.values? with
  | none => .ok []
  | some text =>
      match Json.ofText? text with
      | none => .error .variablesText
      | some (.object members) => .ok members
      | some value => .error (.variablesValue value)

/-- Compiles the operation. -/
def run (read : ReadFile) (request : CompileRequest) : Except Failure Compiled := do
  let index ← loadSchema read request.schema
  let compiler ← (Compiler.make index request.config).mapError Failure.failed
  let source ← request.source read
  let values ← request.values
  (compiler.compile source values request.operationName?).mapError Failure.failed

end CompileRequest

namespace ReshapeRequest

/-- The aliases that are given, or those of a type of a schema, or none. -/
def aliases (read : ReadFile) (request : ReshapeRequest) : Except Failure (Table String) :=
  match request.aliases?, request.schema?, request.typeName? with
  | some text, _, _ =>
      match Json.textsOfText? text with
      | some aliases => .ok aliases
      | none => .error .aliasesText
  | none, some path, some typeName => do
      let index ← loadSchema read path
      (index.aliasMap typeName).mapError fun e => .failed (.schema e)
  | none, none, some _ => .error .typeWithoutSchema
  | none, _, none => .ok []

/-- Reshapes the response. -/
def run (read : ReadFile) (request : ReshapeRequest) : Except Failure Json := do
  let text ← readAs read .response request.response
  let response ← match Json.ofText? text with
    | some response => .ok response
    | none => .error (.responseText request.response)
  let aliases ← request.aliases read
  (Response.reshape request.policy response aliases).mapError Failure.failed

end ReshapeRequest

namespace SchemaRequest

/-- The type of a name with all its fields. -/
def listing (index : Index) (name : String) : Except SchemaError TypeListing := do
  let definitions := (index.type? name).elim [] (·.fields)
  let fields ← definitions.mapM fun f => index.field name f.name
  let label ← index.label name
  return { name, label, fields }

/-- The names of the object types that are no roots. -/
def objectTypeNames (index : Index) : List String :=
  (index.document.types.map (·.name)).filter fun name =>
    index.isObjectType name
      && name != OperationKind.query.rootTypeName && name != OperationKind.mutation.rootTypeName

/-- The type that is asked for, or all object types that are no roots. -/
def typeNames (index : Index) (request : SchemaRequest) : Except Failure (List String) :=
  match request.typeName? with
  | none => .ok (objectTypeNames index)
  | some name => if index.isObjectType name then .ok [name] else .error (.notAnObjectType name)

/-- Lists the types. -/
def run (read : ReadFile) (request : SchemaRequest) : Except Failure (List TypeListing) := do
  let index ← loadSchema read request.schema
  let names ← request.typeNames index
  (names.mapM (listing index)).mapError fun e => .failed (.schema e)

end SchemaRequest

namespace Job

/-- The result of a job as it is shown. -/
def result (read : ReadFile) (job : Job) : Except Failure String :=
  match job.task with
  | .compile request => (request.run read).map (showCompiled job.format)
  | .reshape request => (request.run read).map Json.document
  | .schema request => (request.run read).map (showTypes job.format)

end Job

/-- What running a command leaves behind. -/
structure Outcome where
  code : Nat
  output : String := ""
  error? : Option String := none
  deriving DecidableEq, Repr

/-- The line that names the version. -/
def versionText : String := "cypherql 0.1.3\n"

namespace Request

/-- Carries out a request. A failure has code 1 and is reported in any case; a result is not shown
if the job is to be quiet. -/
def outcome (read : ReadFile) : Request → Outcome
  | .version => { code := 0, output := versionText }
  | .run job =>
      match job.result read with
      | .ok text => { code := 0, output := if job.quiet then "" else text }
      | .error failure => { code := 1, error? := some failure.report }

end Request

/-- Runs a command line; one that is refused has code 2. -/
def run (read : ReadFile) (arguments : List String) : Outcome :=
  match Request.ofArguments? arguments with
  | some request => request.outcome read
  | none => { code := 2 }

end GraphBridge.Command
