import GraphBridge.Error
import GraphBridge.Json.Printer

/-!
# Typed response values

Graph servers answer with typed JSON: a value that JSON cannot tell apart is an object with a
`@type` tag and a `@value` payload, and a map is a list of alternating keys and values, because its
keys may be typed themselves. Decoding resolves the tags.
-/

namespace GraphBridge.Response

/-- A decoded value. -/
inductive Typed where
  /-- A JSON scalar; typed numbers, dates and ids are unwrapped to it. -/
  | scalar (value : Json)
  /-- An enumeration token such as `id` or `label`. -/
  | token (name : String)
  /-- A list or set. -/
  | list (items : List Typed)
  /-- A map, vertex, edge or plain object, as ordered pairs. -/
  | map (entries : List (Typed × Typed))
  deriving Repr

namespace Typed

/-- The text under which a value serves as a key, if it can. -/
def key? : Typed → Option String
  | .token name => some name
  | .scalar (.string value) => some value
  | .scalar (.number value) => some value.text
  | .scalar (.bool value) => some (Json.boolText value)
  | _ => none

mutual

/-- The value as untyped JSON. A map key that is no scalar becomes its JSON text. -/
def toJson : Typed → Json
  | .scalar value => value
  | .token name => .string name
  | .list items => .array (itemsToJson items)
  | .map entries => .object (Table.ofList (entriesToJson entries))

/-- Each item as untyped JSON. -/
def itemsToJson : List Typed → List Json
  | [] => []
  | item :: rest => toJson item :: itemsToJson rest

/-- Each entry as a member. -/
def entriesToJson : List (Typed × Typed) → List (String × Json)
  | [] => []
  | (key, value) :: rest =>
      ((key? key).getD (toJson key).compact, toJson value) :: entriesToJson rest

end

/-- What a tag says about the form of its payload. -/
inductive Form where
  /-- A value that stands for itself. -/
  | plain
  | list
  | map
  | token
  /-- A vertex or an edge. -/
  | element
  /-- A property, whose value is a member of its own. -/
  | property
  deriving DecidableEq, Repr

/-- The form that a tag announces. -/
def Form.ofTag (tag : String) : Form :=
  if tag == "g:List" || tag == "g:Set" then .list
  else if tag == "g:Map" then .map
  else if tag == "g:T" || tag == "g:Direction" then .token
  else if tag == "g:Vertex" || tag == "g:Edge" then .element
  else if tag == "g:VertexProperty" || tag == "g:Property" then .property
  else .plain

/-- The tag of an object that has both a tag and a payload. -/
def tag? (members : List (String × Json)) : Option String :=
  match (Table.get? members "@type").bind Json.string?, Table.get? members "@value" with
  | some tag, some _ => some tag
  | _, _ => none

/-- A property that holds a list of one value stands for that value. -/
def unwrapSingle : Typed → Typed
  | .list [value] => value
  | value => value

/-- The entry of an element's own member, if it has the member. -/
def ownEntry (name : String) (decoded : Option (Except ParseError Typed)) :
    Except ParseError (List (Typed × Typed)) :=
  match decoded with
  | none => .ok []
  | some (.ok value) => .ok [(.token name, value)]
  | some (.error e) => .error e

mutual

/-- Decodes the payload of a tag of the given form. -/
def decodeAs (tag : String) (form : Form) : Json → Except ParseError Typed
  | .array items =>
      match form with
      | .plain | .list => (decodeItems items).map Typed.list
      | .map =>
          if items.length % 2 = 0 then (decodeEntries items).map Typed.map
          else .error (.payload tag .oddEntries)
      | .token => .error (.payload tag .notAString)
      | .element => .error (.payload tag .notAnObject)
      | .property => .error (.payload tag .noValue)
  | .object members =>
      match form with
      | .plain =>
          match tag? members with
          | some inner =>
              (decodeMember inner (Form.ofTag inner) "@value" members).getD (.ok (.map []))
          | none => (decodeMembers members).map Typed.map
      | .list | .map => .error (.payload tag .notAnArray)
      | .token => .error (.payload tag .notAString)
      | .element => do
          let id ← ownEntry "id" (decodeMember "" .plain "id" members)
          let label ← ownEntry "label" (decodeMember "" .plain "label" members)
          let properties ← decodeProperties members
          return .map (id ++ label ++ properties)
      | .property =>
          (decodeMember "" .plain "value" members).getD (.error (.payload tag .noValue))
  | .string value =>
      match form with
      | .plain => .ok (.scalar (.string value))
      | .token => .ok (.token value)
      | .list | .map => .error (.payload tag .notAnArray)
      | .element => .error (.payload tag .notAnObject)
      | .property => .error (.payload tag .noValue)
  | value =>
      match form with
      | .plain => .ok (.scalar value)
      | .token => .error (.payload tag .notAString)
      | .list | .map => .error (.payload tag .notAnArray)
      | .element => .error (.payload tag .notAnObject)
      | .property => .error (.payload tag .noValue)

/-- Decodes each item. -/
def decodeItems : List Json → Except ParseError (List Typed)
  | [] => .ok []
  | item :: rest => do
      let item ← decodeAs "" .plain item
      let rest ← decodeItems rest
      return item :: rest

/-- Decodes alternating keys and values. -/
def decodeEntries : List Json → Except ParseError (List (Typed × Typed))
  | key :: value :: rest => do
      let key ← decodeAs "" .plain key
      let value ← decodeAs "" .plain value
      let rest ← decodeEntries rest
      return (key, value) :: rest
  | _ => .ok []

/-- Decodes the members of a plain object. -/
def decodeMembers : List (String × Json) → Except ParseError (List (Typed × Typed))
  | [] => .ok []
  | (name, value) :: rest => do
      let value ← decodeAs "" .plain value
      let rest ← decodeMembers rest
      return (.scalar (.string name), value) :: rest

/-- Decodes the member of a name, if there is one, as a payload of the given tag. -/
def decodeMember (tag : String) (form : Form) (name : String) :
    List (String × Json) → Option (Except ParseError Typed)
  | [] => none
  | (other, value) :: rest =>
      if other == name then some (decodeAs tag form value) else decodeMember tag form name rest

/-- Decodes the property table of an element, if its `properties` are an object. -/
def decodeProperties : List (String × Json) → Except ParseError (List (Typed × Typed))
  | [] => .ok []
  | (name, .object members) :: rest =>
      if name == "properties" then decodePropertyTable members else decodeProperties rest
  | (name, _) :: rest => if name == "properties" then .ok [] else decodeProperties rest

/-- Decodes each property; a list of one value is unwrapped. -/
def decodePropertyTable : List (String × Json) → Except ParseError (List (Typed × Typed))
  | [] => .ok []
  | (name, value) :: rest => do
      let value ← decodeAs "" .plain value
      let rest ← decodePropertyTable rest
      return (.scalar (.string name), unwrapSingle value) :: rest

end

/-- Decodes typed JSON. -/
def decode (value : Json) : Except ParseError Typed :=
  decodeAs "" .plain value

end Typed

end GraphBridge.Response
