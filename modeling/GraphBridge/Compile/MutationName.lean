import GraphBridge.Text.Word

/-!
# Names of mutations

The name of a root mutation field says what it writes: a verb, `Node` or `Edge`, and the name of the
node or edge type. For edges the type name ends where the name goes on with `From`, and in a
connecting mutation it starts after the first `Edge` that leaves something behind it.
-/

namespace GraphBridge.Compile

/-- What a mutation does. -/
inductive MutationShape where
  | createNode
  | updateNode
  | deleteNode
  | connectEdge
  | updateEdge
  | deleteEdge
  deriving DecidableEq, Repr

/-- A mutation name taken apart. -/
structure MutationName where
  shape : MutationShape
  /-- The node or edge type that is written. -/
  typeName : String
  deriving DecidableEq, Repr

namespace MutationName

/-- The characters after a leading word, if the name starts with it and goes on with at least one
character, all of them word characters. -/
def wordsAfter? (verb : String) (name : List Char) : Option (List Char) :=
  match verb.toList.isPrefixOf? name with
  | some (c :: rest) => if (c :: rest).all Text.isWord then some (c :: rest) else none
  | _ => none

/-- The characters before and after the first occurrence of a marker. -/
def cut? (marker : List Char) : List Char → Option (List Char × List Char)
  | [] => if marker.isEmpty then some ([], []) else none
  | c :: rest =>
      match marker.isPrefixOf? (c :: rest) with
      | some after => some ([], after)
      | none => (cut? marker rest).map fun (before, after) => (c :: before, after)

/-- The type of a connecting mutation: what follows the first `Edge`, if anything does. -/
def connectedType? (words : List Char) : Option (List Char) :=
  match cut? "Edge".toList words with
  | some (_, c :: rest) => some (c :: rest)
  | _ => none

/-- The type of an edge mutation: the shortest non-empty part in front of `From`, or all. -/
def edgeType : List Char → List Char
  | [] => []
  | c :: rest =>
      match cut? "From".toList rest with
      | some (before, _) => c :: before
      | none => c :: rest

/-- A name of the given shape whose type is cut out of the words after its verb. -/
def shaped? (shape : MutationShape) (verb : String)
    (typeOf : List Char → Option (List Char)) (name : List Char) : Option MutationName := do
  let words ← wordsAfter? verb name
  let typeName ← typeOf words
  return ⟨shape, String.ofList typeName⟩

/-- The mutation that a field name stands for. -/
def classify (name : String) : Option MutationName :=
  let chars := name.toList
  shaped? .createNode "createNode" some chars
    <|> shaped? .updateNode "updateNode" some chars
    <|> shaped? .deleteNode "deleteNode" some chars
    <|> shaped? .connectEdge "connectNode" connectedType? chars
    <|> shaped? .updateEdge "updateEdge" (some ∘ edgeType) chars
    <|> shaped? .deleteEdge "deleteEdge" (some ∘ edgeType) chars

end MutationName

end GraphBridge.Compile
