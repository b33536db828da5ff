import GraphBridge.Error
import GraphBridge.Text.Ascii

/-!
# Configuration

How override fragments are inlined, how deep selections may nest, and what happens to list elements
of a response that are not maps.
-/

namespace GraphBridge

/-- What becomes of a list element that cannot be shaped. -/
inductive MalformedPolicy where
  /-- It is dropped. -/
  | skip
  /-- It fails the whole reshaping. -/
  | fail
  deriving DecidableEq, Repr

namespace MalformedPolicy

/-- The name of a policy. -/
def name : MalformedPolicy → String
  | .skip => "skip"
  | .fail => "fail"

/-- The policy of a name, whatever the case of its letters. -/
def ofName (text : String) : Except ConfigError MalformedPolicy :=
  let lower := Text.lowerAscii text
  match [skip, fail].find? (·.name == lower) with
  | some policy => .ok policy
  | none => .error (.unknownPolicy text)

end MalformedPolicy

/-- The settings of a compiler. -/
structure Config where
  /-- Scalar override fragments become subqueries instead of being inlined as clauses. -/
  subqueryCalls : Bool := false
  /-- What becomes of malformed list elements. -/
  reshapePolicy : MalformedPolicy := .skip
  /-- A leading `MATCH` of a nested override fragment becomes `OPTIONAL MATCH`. -/
  optionalOverrideMatches : Bool := true
  /-- The deepest nesting of selections. -/
  maxDepth : Nat := 32
  deriving DecidableEq, Repr

namespace Config

/-- A configuration is usable if it allows some depth. -/
def validate (config : Config) : Except ConfigError Unit :=
  if config.maxDepth = 0 then .error .zeroMaxDepth else .ok ()

end Config

end GraphBridge
