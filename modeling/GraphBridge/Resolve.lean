import GraphBridge.Compile.Compiler
import GraphBridge.Response.Reshape

/-!
# Resolving operations

An operation is compiled, executed by a collaborator, and its answer shaped. The collaborator is a
function from compiled statements to answers or the message of a failure. Every failure can be
turned into a payload, so that there is always a well-formed answer.
-/

namespace GraphBridge

open Compile

/-- What runs a compiled statement: an answer, or the message of a failure. -/
abbrev Executor := Compiled → Except String Json

/-- The first column of the first row of an answer, or null if there is none. -/
def firstColumn (response : Json) : Except ReshapeError Json :=
  match (response.member? "results").bind Json.array? with
  | none => .error (.unexpectedEnvelope .noResults)
  | some rows =>
      let column := (rows.head?.bind Json.object?).bind fun members => members.head?.map Prod.snd
      .ok (column.getD .null)

/-- The answer to a compiled statement in the shape of the query. -/
def shapeAnswer (policy : MalformedPolicy) (compiled : Compiled) (response : Json) :
    Except Error Json :=
  match compiled.language with
  | .openCypher => (firstColumn response).mapError Error.reshape
  | .gremlin => Response.reshape policy response (compiled.aliases?.getD [])

/-- Resolves an operation: compiles, executes and shapes it. -/
def tryResolve (c : Compiler) (execute : Executor) (source : String) (values : Table Json) :
    Except Error Json := do
  let compiled ← c.compile source values none
  let response ← (execute compiled).mapError Error.execution
  shapeAnswer c.config.reshapePolicy compiled response

/-- The payload that stands for a failure. -/
def errorPayload (e : Error) : Json :=
  .object [("error", .array [.object [("message", .string e.message)]])]

/-- Resolves an operation to an answer or the payload of its failure. -/
def resolve (c : Compiler) (execute : Executor) (source : String) (values : Table Json) : Json :=
  match tryResolve c execute source values with
  | .ok value => value
  | .error e => errorPayload e

end GraphBridge
