import GraphBridge.Statement.Builder

/-!
# The text of a statement

Clauses come first, then one `WITH` line for each frame but the outermost, the last frame first, and
the `RETURN` of the outermost frame. Frames are written in reverse because the projection of a frame
reads the variables that the frames inside it bind.
-/

namespace GraphBridge.Statement

namespace Frame

/-- An entry as text. -/
def entryText (entry : String × Expression) : String :=
  entry.1 ++ ": " ++ entry.2.text

/-- The entries of a frame as a map. -/
def body (f : Frame) : String :=
  inBraces (", ".intercalate (f.entries.map entryText))

/-- A collected body, perhaps sliced. -/
def collected (f : Frame) : Option Nat → String
  | some limit => "collect(" ++ f.body ++ ")[.." ++ toString limit ++ "]"
  | none => "collect(" ++ f.body ++ ")"

/-- The value of an inner frame under its variable. -/
def closed (f : Frame) : String :=
  let value := match f.closing with
    | .array limit? => f.collected limit?
    | .object | .root .. => f.body
  value ++ " AS " ++ f.carryOver

/-- The value of the outermost frame, with the row limit if there is one. -/
def returned (f : Frame) : String :=
  match f.closing with
  | .root true limit? _ => f.collected limit?
  | .root false _ true => f.body ++ " LIMIT 1"
  | _ => f.body

end Frame

namespace Builder

/-- Whether a thread passes through the `WITH` line of a frame. -/
def passes (place : Nat) (t : Thread) : Bool :=
  t.consumer < place && t.producer?.all fun producer => place < producer

/-- The variables that the `WITH` line of a frame keeps: those of the frames before it, and those
threaded through it. -/
def kept (b : Builder) (place : Nat) : List String :=
  ((b.frames.take place).map (·.carryOver)
    ++ (b.threads.filter (passes place)).map (·.name)).eraseDups

/-- The `WITH` line of a frame. -/
def withLine (b : Builder) (place : Nat) (f : Frame) : String :=
  "WITH " ++ ", ".intercalate (b.kept place) ++ ", " ++ f.closed

/-- The `WITH` lines, the last frame first. -/
def withLines (b : Builder) : List String :=
  ((b.frames.zipIdx.drop 1).map fun (f, place) => b.withLine place f).reverse

/-- The line that returns the outermost frame. -/
def returnLines (b : Builder) : List String :=
  (b.frames.head?.map fun f => "RETURN " ++ f.returned).toList

/-- The lines of the statement. -/
def lines (b : Builder) : List String :=
  b.clauses.map Clause.text ++ b.withLines ++ b.returnLines

/-- The statement. -/
def text (b : Builder) : String :=
  "\n".intercalate b.lines

/-- The clauses, with an expression returned in place of the frames. -/
def textReturning (b : Builder) (expression : Expression) : String :=
  "\n".intercalate (b.clauses.map Clause.text ++ ["RETURN " ++ expression.text])

end Builder

end GraphBridge.Statement
