import GraphBridge.Config
import GraphBridge.Response.Typed

/-!
# Reshaping responses

The envelope of a response is a list whose elements decide the shape of the answer: one map becomes
an object, several maps or one inner list become an array of objects, and anything else is passed
on as it is. Stored keys are renamed through an alias map, whose `id` entry names the identity
field; the key `label` becomes `type`.
-/

namespace GraphBridge.Response

/-- The name under which a stored key appears in the answer. -/
def fieldName (aliases : Table String) (stored : String) : String :=
  if stored == "label" then "type" else (aliases.get? stored).getD stored

/-- The members of a map in the answer; a key that is no scalar is refused. -/
def shapeMembers (aliases : Table String) :
    List (Typed × Typed) → Except ReshapeError (List (String × Json))
  | [] => .ok []
  | (key, value) :: rest =>
      match key.key? with
      | none => .error (.invalidKey key.toJson.compact)
      | some stored => do
          let more ← shapeMembers aliases rest
          return (fieldName aliases stored, value.toJson) :: more

/-- A map as an object of the answer. -/
def shapeObject (aliases : Table String) (entries : List (Typed × Typed)) :
    Except ReshapeError Json :=
  (shapeMembers aliases entries).map fun members => .object (Table.ofList members)

/-- The element at a place of a list as an object of the answer. -/
def shapeElement (aliases : Table String) (index : Nat) : Typed → Except ReshapeError Json
  | .map entries =>
      (shapeObject aliases entries).mapError fun
        | .invalidKey key => .malformedElement index (.keyNotAString key)
        | e => e
  | other => .error (.malformedElement index (.notAMap other.toJson.compact))

/-- The elements from a place on as objects of the answer; a malformed one is dropped or fails the
whole, as the policy says. -/
def shapeElements (policy : MalformedPolicy) (aliases : Table String) (index : Nat) :
    List Typed → Except ReshapeError (List Json)
  | [] => .ok []
  | element :: rest =>
      match shapeElement aliases index element, policy with
      | .ok object, _ => do
          let more ← shapeElements policy aliases (index + 1) rest
          return object :: more
      | .error _, .skip => shapeElements policy aliases (index + 1) rest
      | .error e, .fail => .error e

/-- The word for what stands in place of a list. -/
def kindOf (envelope : Json) : String :=
  match (envelope.member? "@type").bind Json.string? with
  | some tag => if tag == "g:Map" then "g:Map" else "a typed scalar"
  | none => if envelope.isObject then "an object" else "a scalar"

/-- The envelope inside a full response body, or the response itself. -/
def envelopeOf (response : Json) : Json :=
  ((response.member? "result").bind (·.member? "data")).getD response

/-- The answer for the elements of an envelope. -/
def shapeEnvelope (policy : MalformedPolicy) (aliases : Table String) :
    List Typed → Except ReshapeError Json
  | [] => .ok .null
  | [.map entries] => shapeObject aliases entries
  | .map entries :: rest =>
      (shapeElements policy aliases 0 (.map entries :: rest)).map Json.array
  | [.list items] => (shapeElements policy aliases 0 items).map Json.array
  | .list _ :: rest => .error (.unexpectedEnvelope (.severalElements (rest.length + 1)))
  | [other] => .ok other.toJson
  | elements => .ok (.array (elements.map Typed.toJson))

/-- A response as JSON in the shape of the query. -/
def reshape (policy : MalformedPolicy) (response : Json) (aliases : Table String) :
    Except Error Json :=
  let envelope := envelopeOf response
  match Typed.decode envelope with
  | .error e => .error (.parse e)
  | .ok (.list elements) => (shapeEnvelope policy aliases elements).mapError Error.reshape
  | .ok _ => .error (.reshape (.unexpectedEnvelope (.notAList (kindOf envelope))))

end GraphBridge.Response
