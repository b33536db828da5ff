import GraphBridge.Statement.Clause

/-!
# Building a statement

A statement grows in three parts that are joined only at the end: clauses in the order in which they
are added, projection frames in the order in which they are opened, and a table of parameters. A
frame collects the entries of one object of the answer; threads record which variables have to stay
visible between the frame that produces them and the frame that reads them.
-/

namespace GraphBridge.Statement

/-- How the content of a frame becomes a value. -/
inductive Closing where
  /-- The outermost frame: collected if it is an array, sliced if it has a limit, or cut to one
  row. -/
  | root (isArray : Bool) (limit? : Option Nat) (oneRow : Bool)
  /-- A collected list, perhaps sliced. -/
  | array (limit? : Option Nat)
  /-- A single object. -/
  | object
  deriving DecidableEq, Repr

/-- The projection of one object of the answer. -/
structure Frame where
  /-- The variable its rows are bound to, and then its value. -/
  carryOver : String
  /-- Response keys with the expressions that give their values. -/
  entries : List (String × Expression)
  closing : Closing
  deriving DecidableEq, Repr

/-- A variable that stays visible from where it is produced to the frame that reads it. -/
structure Thread where
  name : String
  /-- The frame that reads it. -/
  consumer : Nat
  /-- The frame that produces it, or none if a clause does. -/
  producer? : Option Nat
  deriving DecidableEq, Repr

/-- A statement under construction. -/
structure Builder where
  clauses : List Clause := []
  frames : List Frame := []
  threads : List Thread := []
  /-- The variables that clauses have bound so far. -/
  scope : List String := []
  parameters : Table Json := []
  deriving Repr

namespace Builder

/-- Adds a clause. -/
def addClause (b : Builder) (clause : Clause) : Builder :=
  { b with clauses := b.clauses ++ [clause] }

/-- Puts a clause at a place among the clauses. -/
def insertClause (b : Builder) (place : Nat) (clause : Clause) : Builder :=
  { b with clauses := b.clauses.take place ++ clause :: b.clauses.drop place }

/-- Records a variable as bound. -/
def bindScope (b : Builder) (name : String) : Builder :=
  if b.scope.contains name then b else { b with scope := b.scope ++ [name] }

/-- Opens a frame; its place is the number of frames before. -/
def openFrame (b : Builder) (carryOver : String) (closing : Closing) : Builder :=
  let opened : Builder := { b with frames := b.frames ++ [⟨carryOver, [], closing⟩] }
  opened.bindScope carryOver

/-- Adds an entry to a frame. -/
def project (b : Builder) (frame : Nat) (key : String) (expression : Expression) : Builder :=
  let add := fun (f : Frame) => { f with entries := f.entries ++ [(key, expression)] }
  { b with frames := b.frames.modify frame add }

/-- Keeps a variable visible between its producer and its consumer. -/
def thread (b : Builder) (name : String) (consumer : Nat) (producer? : Option Nat) : Builder :=
  { b with threads := b.threads ++ [⟨name, consumer, producer?⟩] }

/-- The candidates for the name of a parameter: the name itself, then with suffixes from two on. -/
def candidate (name : String) (attempt : Nat) : String :=
  if attempt = 0 then name else name ++ "_" ++ toString (attempt + 1)

/-- Whether a parameter name is free or already has the given value. -/
def accepts (b : Builder) (name : String) (value : Json) : Bool :=
  match b.parameters.get? name with
  | some bound => bound.same value
  | none => true

/-- The first candidate that is free or already has the value. Among one more candidates than there
are parameters one is free. -/
def parameterName (b : Builder) (name : String) (value : Json) : String :=
  let attempts := List.range (b.parameters.length + 1)
  let found := attempts.find? fun attempt => b.accepts (candidate name attempt) value
  candidate name (found.getD b.parameters.length)

/-- Binds a value to a parameter and gives the name it is bound under. A value that is bound already
is not bound again. -/
def bindParameter (b : Builder) (name : String) (value : Json) : String × Builder :=
  let chosen := b.parameterName name value
  match b.parameters.get? chosen with
  | some _ => (chosen, b)
  | none => (chosen, { b with parameters := b.parameters ++ [(chosen, value)] })

/-- Binds a supplied value and gives the reference to it. -/
def refer (b : Builder) (name : String) (s : Supplied) : Reference × Builder :=
  let (parameter, b) := b.bindParameter name s.value
  (⟨s, parameter⟩, b)

/-- Binds each value to a parameter named after a variable, and gives the references. -/
def referAll (b : Builder) (path : String) : List Supplied → List Reference × Builder
  | [] => ([], b)
  | s :: rest =>
      let (reference, b) := b.refer (path ++ "_" ++ s.name) s
      let (more, b) := b.referAll path rest
      (reference :: more, b)

end Builder

end GraphBridge.Statement
