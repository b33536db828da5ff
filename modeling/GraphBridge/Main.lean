import GraphBridge.Command.Run

/-!
# The program

Reads the files that the command line names, runs it and writes what it leaves behind.
-/

namespace GraphBridge.Command

/-- The fault behind an error of the system. -/
def fileFault : IO.Error → FileFault
  | .noFileOrDirectory .. => .missing
  | .inappropriateType _ 21 _ => .isFolder
  | .inappropriateType .. => .notAFolder
  | .invalidArgument _ 36 _ => .nameTooLong
  | .userError _ => .notText
  | e => .other (toString e)

/-- The text of a file, or why it could not be read. -/
def readPath (path : String) : IO (Except FileFault String) := do
  try
    return .ok (← IO.FS.readFile path)
  catch e =>
    return .error (fileFault e)

/-- The files at the given paths. -/
def readPaths (paths : List String) : IO ReadFile := do
  let files ← paths.mapM fun path => do return (path, ← readPath path)
  return fun path => (files.lookup path).getD (.error .missing)

/-- Runs a command line and gives its exit code; one that is refused is reported in one line. -/
def runProgram (arguments : List String) : IO UInt32 := do
  let request? := Request.ofArguments? arguments
  let read ← readPaths ((request?.map Request.paths).getD [])
  let outcome := run read arguments
  IO.print outcome.output
  if let some line := outcome.error? then
    IO.eprintln line
  if request?.isNone then
    IO.eprintln "error: the command line is not understood"
  return UInt32.ofNat outcome.code

end GraphBridge.Command

/-- The entry of the program. -/
def main (arguments : List String) : IO UInt32 :=
  GraphBridge.Command.runProgram arguments
