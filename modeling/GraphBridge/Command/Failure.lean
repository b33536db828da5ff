import GraphBridge.Command.File
import GraphBridge.Error
import GraphBridge.Json.Printer

/-!
# Failures of a command

What keeps a command from its result, and the line that reports it. A failure of the library is
reported with its cause after it, and the cause says the same once more; a configuration has no
cause of its own, and the place of a syntax fault is left open.
-/

namespace GraphBridge

namespace Error

/-- Whether an error stands for a text outside of its grammar. -/
def isSyntax : Error → Bool
  | .parse .schemaText | .parse .operationText => true
  | _ => false

/-- An error and its cause. -/
def chain (e : Error) : List String :=
  match e with
  | .schema _ | .compile _ | .reshape _ => [e.message, e.message]
  | .parse _ => if e.isSyntax then [e.message] else [e.message, e.message]
  | .execution _ | .config _ => [e.message]

end Error

namespace Command

/-- The files that a command reads. -/
inductive FileRole where
  | schema
  | operation
  | response
  deriving DecidableEq, Repr

namespace FileRole

/-- A file as it is named in a report. -/
def label (role : FileRole) (path : String) : String :=
  match role with
  | .schema => "schema " ++ path
  | .operation => "operation " ++ path
  | .response => path

end FileRole

/-- What keeps a command from its result. -/
inductive Failure where
  | unreadable (role : FileRole) (path : String) (fault : FileFault)
  | invalidSchema (path : String) (cause : Error)
  /-- Neither the text of an operation nor a file is given. -/
  | noOperation
  /-- The variables are no JSON text. -/
  | variablesText
  /-- The variables are another value than an object. -/
  | variablesValue (value : Json)
  /-- The response is no JSON text. -/
  | responseText (path : String)
  /-- The aliases are no object of strings. -/
  | aliasesText
  /-- A type is given without the schema that defines it. -/
  | typeWithoutSchema
  | notAnObjectType (name : String)
  | failed (cause : Error)

namespace Failure

/-- A failure and its causes, each explaining the one before. -/
def chain : Failure → List String
  | .unreadable role path fault => ["failed to read " ++ role.label path, fault.message]
  | .invalidSchema path cause => ("invalid schema " ++ path) :: cause.chain
  | .noOperation => ["pass the operation text or --file"]
  | .variablesText => ["--variables is not valid JSON", "<syntax>"]
  | .variablesValue value => ["--variables must be a JSON object, got " ++ value.compact]
  | .responseText path => [path ++ " is not valid JSON", "<syntax>"]
  | .aliasesText => ["--aliases must be a JSON object of strings", "<syntax>"]
  | .typeWithoutSchema => ["--type needs --schema"]
  | .notAnObjectType name => [quotedName name ++ " is not an object type of this schema"]
  | .failed cause => cause.chain

/-- The line that reports a failure. -/
def report (failure : Failure) : String :=
  "✗ " ++ ": ".intercalate failure.chain

end Failure

end Command

end GraphBridge
