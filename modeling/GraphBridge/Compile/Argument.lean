import GraphBridge.Schema.Index
import GraphBridge.Statement.Text

/-!
# Arguments as filters

The arguments of a field become property conditions and identity conditions on the variable of its
node. An input object under `filter` is taken apart; `options` and `limit` say nothing about the
node, and null says nothing at all.
-/

namespace GraphBridge.Compile

open Schema Statement

/-- What one argument says about the node: an input object under `filter` says what its members
say. -/
def suppliedByArgument (index : Index) (declared : List ArgumentDescriptor) (name : String)
    (value : Json) : Except SchemaError (List Supplied) :=
  if value.isNull || name == "options" || name == "limit" then .ok []
  else
    let declared? := ArgumentDescriptor.find? declared name
    match value with
    | .object members =>
        if name == "filter" then
          match declared? with
          | some a => do
              let inputs ← index.inputArguments a.graphType
              return Supplied.ofInput inputs members
          | none => .ok (Supplied.ofInput [] members)
        else .ok [⟨name, declared?, value⟩]
    | _ => .ok [⟨name, declared?, value⟩]

/-- What the arguments say about the node. -/
def suppliedByArguments (index : Index) (declared : List ArgumentDescriptor) :
    List (String × Json) → Except SchemaError (List Supplied)
  | [] => .ok []
  | (name, value) :: rest => do
      let first ← suppliedByArgument index declared name value
      let more ← suppliedByArguments index declared rest
      return first ++ more

/-- Whether a supplied value is an identity: it is marked as one, or has the name of the identity of
the type. -/
def isIdentity (identity? : Option String) (s : Supplied) : Bool :=
  s.isId || identity? == some s.name

/-- Binds supplied values and gives the conditions they make on a node. -/
def filterFor (b : Builder) (path : String) (identity? : Option String)
    (supplied : List Supplied) : Filter × Builder :=
  let (bound, b) := b.referAll path supplied
  let ids := bound.filter fun r => isIdentity identity? r.supplied
  let others := bound.filter fun r => !isIdentity identity? r.supplied
  (⟨others, ids⟩, b)

/-- The limit among arguments: `limit` inside `options`, else `limit` itself. -/
def limitOf? (arguments : Table Json) : Option Nat :=
  let inOptions := (arguments.get? "options").bind (·.member? "limit")
  (inOptions <|> arguments.get? "limit").bind Json.natural?

end GraphBridge.Compile
