import GraphBridge.Text.Ascii

/-!
# Words of the graph domain

The statement languages a compiled statement may be written in, the two kinds of operation, and the
direction in which a relationship is walked.
-/

namespace GraphBridge

/-- The language of a compiled statement. -/
inductive QueryLanguage where
  /-- Declarative statements of `MATCH`, `WITH` and `RETURN`. -/
  | openCypher
  /-- Traversal scripts, passed through as they are. -/
  | gremlin
  deriving DecidableEq, Repr

namespace QueryLanguage

/-- The name of the language. -/
def name : QueryLanguage → String
  | .openCypher => "opencypher"
  | .gremlin => "gremlin"

/-- The path that statements of the language are posted to. -/
def endpoint (language : QueryLanguage) : String :=
  "/" ++ language.name

/-- The language with exactly the given name. -/
def ofName? (text : String) : Option QueryLanguage :=
  [openCypher, gremlin].find? (·.name == text)

end QueryLanguage

/-- The kind of an operation, and of the root type its field is declared on. -/
inductive OperationKind where
  | query
  | mutation
  deriving DecidableEq, Repr

namespace OperationKind

/-- The name of the root type of the kind. -/
def rootTypeName : OperationKind → String
  | .query => "Query"
  | .mutation => "Mutation"

/-- The kind with exactly the given root type name. -/
def ofName? (text : String) : Option OperationKind :=
  [query, mutation].find? (·.rootTypeName == text)

end OperationKind

/-- The direction of a relationship as seen from the parent node. -/
inductive Direction where
  /-- The edge points into the parent. -/
  | incoming
  /-- The edge points away from the parent. -/
  | outgoing
  deriving DecidableEq, Repr

namespace Direction

/-- The word for a direction in a schema annotation. -/
def word : Direction → String
  | .incoming => "IN"
  | .outgoing => "OUT"

/-- The name of a direction in a descriptor. -/
def name : Direction → String
  | .incoming => "In"
  | .outgoing => "Out"

/-- The direction a word stands for, whatever the case of its letters; the word in upper case if it
stands for none. -/
def ofWord (text : String) : Except String Direction :=
  let upper := Text.upperAscii text
  match [incoming, outgoing].find? (·.word == upper) with
  | some direction => .ok direction
  | none => .error upper

end Direction

end GraphBridge
