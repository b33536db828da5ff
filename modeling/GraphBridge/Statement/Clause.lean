import GraphBridge.Query.Fragment
import GraphBridge.Query.Literal
import GraphBridge.Schema.Descriptor

/-!
# Clauses and expressions

The parts that a statement is put together from: references to parameters, patterns, query text
taken over from override fragments, the expressions of an answer, and the clauses themselves. Each
has a text; nothing is turned into text before the statement is complete.
-/

namespace GraphBridge.Statement

open Query Schema

/-- Text in braces. -/
def inBraces (content : String) : String :=
  "\x7b" ++ content ++ "\x7d"

/-! ## References -/

/-- A value supplied for an argument or an input field, with the declaration of it if there is
one. -/
structure Supplied where
  name : String
  declared? : Option ArgumentDescriptor
  value : Json
  deriving Repr

namespace Supplied

/-- The stored property that the value is for. -/
def property (s : Supplied) : String :=
  match s.declared? with
  | some a => a.property
  | none => s.name

/-- Whether the declaration marks the value as an identity. -/
def isId (s : Supplied) : Bool :=
  s.declared?.any (·.isId)

/-- The members of an input object that are not null, with their declarations. -/
def ofInput (declared : List ArgumentDescriptor) (members : Table Json) : List Supplied :=
  (members.filter fun (_, value) => !value.isNull).map fun (name, value) =>
    ⟨name, ArgumentDescriptor.find? declared name, value⟩

end Supplied

/-- A parameter as it is written for a supplied value. -/
structure Reference where
  supplied : Supplied
  parameter : String
  deriving Repr

namespace Reference

/-- The parameter with its dollar sign. -/
def text (r : Reference) : String :=
  "$" ++ r.parameter

/-- The reference as the value of its property. -/
def entryText (r : Reference) : String :=
  r.supplied.property ++ ": " ++ r.text

/-- A property map, or nothing if there are no properties. -/
def propertyMap (properties : List Reference) : String :=
  if properties.isEmpty then "" else inBraces (", ".intercalate (properties.map entryText))

/-- The condition that the identity of a variable equals the value. -/
def identityText (name : String) (r : Reference) : String :=
  "ID(" ++ name ++ ") = " ++ r.text

/-- The assignment of the value to its property of a variable. -/
def assignmentText (name : String) (r : Reference) : String :=
  name ++ ".`" ++ r.supplied.property ++ "` = " ++ r.text

end Reference

/-! ## Patterns -/

/-- The conditions on a node. -/
structure Filter where
  /-- The values that stored properties have to equal. -/
  properties : List Reference
  /-- The values that the identity has to equal. -/
  identities : List Reference
  deriving Repr

namespace Filter

/-- The property conditions inside the pattern of the node. -/
def propertyText (f : Filter) : String :=
  Reference.propertyMap f.properties

/-- The identity conditions behind the pattern of the node. -/
def identityText (f : Filter) (name : String) : String :=
  if f.identities.isEmpty then ""
  else " WHERE " ++ " AND ".intercalate (f.identities.map (Reference.identityText name))

/-- All references of the filter. -/
def references (f : Filter) : List Reference :=
  f.properties ++ f.identities

end Filter

/-- The pattern of a node: its variable, its label and the conditions on it. -/
structure NodePattern where
  name : String
  label : String
  filter : Filter
  deriving Repr

namespace NodePattern

/-- The pattern in round brackets. -/
def text (n : NodePattern) : String :=
  "(" ++ n.name ++ ":`" ++ n.label ++ "`" ++ n.filter.propertyText ++ ")"

/-- The identity conditions behind the pattern. -/
def identityText (n : NodePattern) : String :=
  n.filter.identityText n.name

end NodePattern

/-- The pattern of an edge: its variable, its type and the way it points. -/
structure EdgePattern where
  name : String
  edgeType : String
  direction : Direction
  deriving DecidableEq, Repr

namespace EdgePattern

/-- The pattern in square brackets with its arrow. -/
def text (e : EdgePattern) : String :=
  let inner := "[" ++ e.name ++ ":" ++ e.edgeType ++ "]"
  match e.direction with
  | .outgoing => "-" ++ inner ++ "->"
  | .incoming => "<-" ++ inner ++ "-"

end EdgePattern

/-- What identifies a written edge. -/
inductive EdgeKey where
  /-- Its two ends. -/
  | ends (source target : Reference)
  /-- Its own identity. -/
  | own (id : Reference)
  deriving Repr

namespace EdgeKey

/-- The condition on the edge of a variable. -/
def text (edge : String) : EdgeKey → String
  | .ends source target =>
      source.identityText (edge ++ "_from") ++ " AND " ++ target.identityText (edge ++ "_to")
  | .own id => id.identityText edge

/-- The references of the condition. -/
def references : EdgeKey → List Reference
  | .ends source target => [source, target]
  | .own id => [id]

end EdgeKey

/-! ## Query text taken over -/

/-- Query text of an override fragment with new names for some of its variables. -/
structure Inlined where
  fragment : Fragment
  names : Table String
  deriving DecidableEq, Repr

namespace Inlined

/-- The fragment under the new names. -/
def renamed (i : Inlined) : Fragment :=
  i.fragment.renameVariables i.names.get?

/-- The text under the new names. -/
def text (i : Inlined) : String :=
  i.renamed.text

/-- The new names that occur in the text. -/
def newNames (i : Inlined) : List String :=
  i.fragment.variableNames.filterMap i.names.get?

end Inlined

/-! ## Expressions -/

/-- The value of an entry of the answer. -/
inductive Expression where
  /-- The name of a type as a string. -/
  | typeName (name : String)
  /-- The identity of a variable. -/
  | identity (name : String)
  /-- A stored property of a variable. -/
  | property (name stored : String)
  /-- A variable itself. -/
  | named (name : String)
  /-- The returned expression of an override fragment. -/
  | inlined (value : Inlined)
  /-- The answer of a deletion. -/
  | truth
  deriving DecidableEq, Repr

namespace Expression

/-- The expression as text. -/
def text : Expression → String
  | .typeName name => stringLiteral name
  | .identity name => "ID(" ++ name ++ ")"
  | .property name stored => name ++ ".`" ++ stored ++ "`"
  | .named name => name
  | .inlined value => value.text
  | .truth => "true"

/-- The variables of the statement that the expression reads. Of an override fragment these are the
ones that were given names; what it leaves free is not the statement's. -/
def reads : Expression → List String
  | .typeName _ | .truth => []
  | .identity name | .property name _ | .named name => [name]
  | .inlined value => value.newNames

end Expression

/-! ## Clauses -/

/-- A line of a statement in front of its projections. -/
inductive Clause where
  /-- Finds the nodes of a root field. -/
  | find (node : NodePattern)
  /-- Keeps a number of rows of a variable. -/
  | limit (name : String) (rows : Nat)
  /-- Finds the nodes at the other end of edges, if there are any. -/
  | reach (parent : String) (edge : EdgePattern) (node : NodePattern)
  /-- The body of an override fragment, perhaps made optional. -/
  | inlined (isOptional : Bool) (body : Inlined)
  /-- Aggregates under a new variable and keeps those in scope. -/
  | aggregate (scope : List String) (value : Inlined) (name : String)
  /-- Computes the value of an override in a subquery of one variable. -/
  | subquery (path : String) (body value : Inlined) (name : String)
  /-- Creates a node. -/
  | createNode (name label : String) (properties : List Reference)
  /-- Finds a node by its identity. -/
  | findNode (name : String) (id : Reference)
  /-- Sets properties of a node or an edge. -/
  | set (name : String) (properties : List Reference)
  /-- Finds the two nodes that an edge is to connect. -/
  | findEnds (edge : String) (source target : Reference)
  /-- Creates an edge between them. -/
  | createEdge (name label : String) (properties : List Reference)
  /-- Finds an edge. -/
  | findEdge (name label : String) (key : EdgeKey)
  /-- Deletes a node with its edges. -/
  | deleteNode (name : String)
  /-- Deletes an edge. -/
  | deleteEdge (name : String)
  /-- Keeps one variable. -/
  | keep (name : String)
  deriving Repr

namespace Clause

/-- The clause as text. -/
def text : Clause → String
  | .find node => "MATCH " ++ node.text ++ node.identityText
  | .limit name rows => "WITH " ++ name ++ " LIMIT " ++ toString rows
  | .reach parent edge node =>
      "OPTIONAL MATCH (" ++ parent ++ ")" ++ edge.text ++ node.text ++ node.identityText
  | .inlined isOptional body => if isOptional then "OPTIONAL " ++ body.text else body.text
  | .aggregate scope value name =>
      "WITH " ++ ", ".intercalate scope ++ ", " ++ value.text ++ " AS " ++ name
  | .subquery path body value name =>
      let inner := if body.renamed.isEmpty then "" else body.text ++ " "
      "CALL \x7b WITH " ++ path ++ " " ++ inner ++ "RETURN " ++ value.text ++ " AS " ++ name
        ++ " \x7d"
  | .createNode name label properties =>
      let spaced := if properties.isEmpty then "" else " " ++ Reference.propertyMap properties
      "CREATE (" ++ name ++ ":`" ++ label ++ "`" ++ spaced ++ ")"
  | .findNode name id => "MATCH (" ++ name ++ ") WHERE " ++ id.identityText name
  | .set name properties =>
      "SET " ++ ", ".intercalate (properties.map (Reference.assignmentText name))
  | .findEnds edge source target =>
      "MATCH (" ++ edge ++ "_from), (" ++ edge ++ "_to) WHERE "
        ++ (EdgeKey.ends source target).text edge
  | .createEdge name label properties =>
      "CREATE (" ++ name ++ "_from)-[" ++ name ++ ":`" ++ label ++ "`"
        ++ Reference.propertyMap properties ++ "]->(" ++ name ++ "_to)"
  | .findEdge name label key =>
      "MATCH (" ++ name ++ "_from)-[" ++ name ++ ":`" ++ label ++ "`]->(" ++ name
        ++ "_to) WHERE " ++ key.text name
  | .deleteNode name => "DETACH DELETE " ++ name
  | .deleteEdge name => "DELETE " ++ name
  | .keep name => "WITH " ++ name

/-- The references that the clause writes. -/
def references : Clause → List Reference
  | .find node | .reach _ _ node => node.filter.references
  | .createNode _ _ properties | .createEdge _ _ properties | .set _ properties => properties
  | .findNode _ id => [id]
  | .findEnds _ source target => [source, target]
  | .findEdge _ _ key => key.references
  | .limit .. | .inlined .. | .aggregate .. | .subquery .. | .deleteNode .. | .deleteEdge ..
  | .keep .. => []

end Clause

end GraphBridge.Statement
