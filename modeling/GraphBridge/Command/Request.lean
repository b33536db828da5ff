import GraphBridge.Command.Words
import GraphBridge.Config

/-!
# Requests

What a command line asks for: to compile an operation, to reshape a response, to list a schema, or
to name the version. Output format and silence may be set before the command and after it; after it
they win. A command line that does not spell a request is refused as a whole.
-/

namespace GraphBridge.Command

/-- How results are shown. -/
inductive Format where
  | grid
  | json
  deriving DecidableEq, Repr

namespace Format

/-- The format of a name. -/
def ofName? (text : String) : Option Format :=
  if text == "table" then some .grid
  else if text == "json" then some .json
  else none

end Format

/-- An operation to compile. -/
structure CompileRequest where
  /-- The path of the schema. -/
  schema : String
  /-- The text of the operation, or the path of a file that holds it; never both. -/
  operation? : Option String
  file? : Option String
  /-- The values of the variables as text. -/
  values? : Option String
  operationName? : Option String
  subqueryCalls : Bool
  maxDepth? : Option Nat
  deriving DecidableEq, Repr

/-- A response to reshape. -/
structure ReshapeRequest where
  /-- The path of the response. -/
  response : String
  /-- Aliases as text, or the path of a schema that has them; never both. -/
  aliases? : Option String
  schema? : Option String
  typeName? : Option String
  policy : MalformedPolicy
  deriving DecidableEq, Repr

/-- A schema to list. -/
structure SchemaRequest where
  /-- The path of the schema. -/
  schema : String
  typeName? : Option String
  deriving DecidableEq, Repr

/-- What is to be done. -/
inductive Task where
  | compile (request : CompileRequest)
  | reshape (request : ReshapeRequest)
  | schema (request : SchemaRequest)
  deriving DecidableEq, Repr

/-- A task and how its result is shown. -/
structure Job where
  task : Task
  format : Format
  /-- Whether the result is kept silent. -/
  quiet : Bool
  deriving DecidableEq, Repr

/-- What a command line asks for. -/
inductive Request where
  | version
  | run (job : Job)
  deriving DecidableEq, Repr

/-! ## Settings -/

/-- The settings that may stand before a command and after it. -/
def commonSettings : List Setting := [
  { name := "format" },
  { name := "quiet", letter? := some 'q', kind := .switch },
  { name := "verbose", letter? := some 'v', kind := .switch }]

/-- The settings that may stand before a command. -/
def leadingSettings : List Setting :=
  { name := "version", letter? := some 'V', kind := .halt } :: commonSettings

/-- The settings of compiling. -/
def compileSettings : List Setting := [
  { name := "schema", letter? := some 's' },
  { name := "file", letter? := some 'f' },
  { name := "variables" },
  { name := "operation-name" },
  { name := "subquery-calls", kind := .switch },
  { name := "max-depth" }]

/-- The settings of reshaping. -/
def reshapeSettings : List Setting := [
  { name := "aliases" },
  { name := "schema" },
  { name := "type" },
  { name := "on-malformed" }]

/-- The settings of listing a schema. -/
def schemaSettings : List Setting := [{ name := "type" }]

/-! ## Values -/

/-- A path is not empty. -/
def path? (text : String) : Option String :=
  if text.isEmpty then none else some text

/-- A count below 2^64: digits, with a plus sign in front or not. -/
def count? (text : String) : Option Nat :=
  let digits := match text.toList with
    | '+' :: digits => digits
    | digits => digits
  if digits.isEmpty || !digits.all Char.isDigit then none
  else
    let value := digits.foldl (fun n c => n * 10 + (c.toNat - '0'.toNat)) 0
    if value < UInt64.size then some value else none

/-- The policy of a name. -/
def policy? (text : String) : Option MalformedPolicy :=
  (MalformedPolicy.ofName text).toOption

/-! ## Reading requests -/

/-- What there is to compile: a schema, and at most one of operation and file. -/
def CompileRequest.ofWords? (words : Words) : Option CompileRequest := do
  let schema ← words.value? "schema" >>= path?
  let file? ← words.parsed? "file" path?
  let maxDepth? ← words.parsed? "max-depth" count?
  let operation? ← match words.plain, file? with
    | [], _ => some none
    | [operation], none => some (some operation)
    | _, _ => none
  return {
    schema, operation?, file?, maxDepth?
    values? := words.value? "variables"
    operationName? := words.value? "operation-name"
    subqueryCalls := words.has "subquery-calls" }

/-- What there is to reshape: a response, and aliases or a schema with a type. -/
def ReshapeRequest.ofWords? (words : Words) : Option ReshapeRequest := do
  let response ← match words.plain with
    | [response] => path? response
    | _ => none
  let schema? ← words.parsed? "schema" path?
  let policy? ← words.parsed? "on-malformed" policy?
  let aliases? := words.value? "aliases"
  let typeName? := words.value? "type"
  if schema?.isSome && (aliases?.isSome || typeName?.isNone) then none
  else return { response, aliases?, schema?, typeName?, policy := policy?.getD .skip }

/-- What there is to list: a schema. -/
def SchemaRequest.ofWords? (words : Words) : Option SchemaRequest := do
  let schema ← match words.plain with
    | [schema] => path? schema
    | _ => none
  return { schema, typeName? := words.value? "type" }

/-- The settings of a command and the task that its words give. -/
def command? (name : String) : Option (List Setting × (Words → Option Task)) :=
  if name == "compile" then
    some (compileSettings, fun words => (CompileRequest.ofWords? words).map .compile)
  else if name == "reshape" then
    some (reshapeSettings, fun words => (ReshapeRequest.ofWords? words).map .reshape)
  else if name == "schema" then
    some (schemaSettings, fun words => (SchemaRequest.ofWords? words).map .schema)
  else none

namespace Request

/-- The request that a command line spells, or none if it is refused. -/
def ofArguments? (arguments : List String) : Option Request := do
  let leading ← Words.read? leadingSettings true arguments
  let leadingFormat? ← leading.parsed? "format" Format.ofName?
  if leading.has "version" then return .version
  match leading.plain with
  | [] => none
  | name :: rest =>
      let (settings, task?) ← command? name
      let words ← Words.read? (settings ++ commonSettings) false rest
      let format? ← words.parsed? "format" Format.ofName?
      let task ← task? words
      return .run {
        task
        format := (format? <|> leadingFormat?).getD .grid
        quiet := leading.has "quiet" || words.has "quiet" }

/-- The paths of the files that a request reads. -/
def paths : Request → List String
  | .version => []
  | .run job =>
      match job.task with
      | .compile request => request.schema :: request.file?.toList
      | .reshape request => request.response :: request.schema?.toList
      | .schema request => [request.schema]

end Request

end GraphBridge.Command
