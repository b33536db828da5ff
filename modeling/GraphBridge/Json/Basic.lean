import GraphBridge.Json.Number
import GraphBridge.Table

/-!
# JSON values

Values with ordered members. Equality of values disregards the order of members; everything that is
written keeps it.
-/

namespace GraphBridge

/-- A JSON value. The members of an object are a table. -/
inductive Json where
  | null
  | bool (value : Bool)
  | number (value : Json.Number)
  | string (value : String)
  | array (items : List Json)
  | object (members : List (String × Json))
  deriving Repr

namespace Json

instance : Inhabited Json := ⟨.null⟩

/-- Whether a value is null. -/
def isNull : Json → Bool
  | .null => true
  | _ => false

/-- Whether a value is an object. -/
def isObject : Json → Bool
  | .object _ => true
  | _ => false

/-- The text of a string value. -/
def string? : Json → Option String
  | .string value => some value
  | _ => none

/-- The truth value of a boolean. -/
def bool? : Json → Option Bool
  | .bool value => some value
  | _ => none

/-- The natural number a value is. -/
def natural? : Json → Option Nat
  | .number (.natural value) => some value
  | _ => none

/-- The items of an array. -/
def array? : Json → Option (List Json)
  | .array items => some items
  | _ => none

/-- The members of an object. -/
def object? : Json → Option (Table Json)
  | .object members => some members
  | _ => none

/-- The member of an object under a name. -/
def member? (value : Json) (name : String) : Option Json :=
  value.object?.bind (Table.get? · name)

mutual

/-- Equality of values, whatever the order of members. -/
def same : Json → Json → Bool
  | .null, .null => true
  | .bool a, .bool b => a == b
  | .number a, .number b => a.same b
  | .string a, .string b => a == b
  | .array a, .array b => sameItems a b
  | .object a, .object b => a.length == b.length && sameMembers a b
  | _, _ => false

/-- Equality of items, place by place. -/
def sameItems : List Json → List Json → Bool
  | [], [] => true
  | a :: as, b :: bs => same a b && sameItems as bs
  | _, _ => false

/-- Whether every member of the first object has an equal one under its name in the second. -/
def sameMembers : List (String × Json) → List (String × Json) → Bool
  | [], _ => true
  | (name, a) :: rest, other =>
      (match Table.get? other name with
        | some b => same a b
        | none => false) && sameMembers rest other

end

mutual

/-- Whether every number in a value is in range. -/
def isFinite : Json → Bool
  | .number value => value.isFinite
  | .array items => areFinite items
  | .object members => haveFinite members
  | _ => true

/-- Whether every number in the items is in range. -/
def areFinite : List Json → Bool
  | [] => true
  | item :: rest => isFinite item && areFinite rest

/-- Whether every number in the members is in range. -/
def haveFinite : List (String × Json) → Bool
  | [] => true
  | (_, value) :: rest => isFinite value && haveFinite rest

end

mutual

/-- The value with each object made a table: a repeated name keeps its first place and takes its
last value. -/
def tidy : Json → Json
  | .array items => .array (tidyItems items)
  | .object members => .object (Table.ofList (tidyMembers members))
  | value => value

/-- The items made tidy. -/
def tidyItems : List Json → List Json
  | [] => []
  | item :: rest => tidy item :: tidyItems rest

/-- The values of the members made tidy. -/
def tidyMembers : List (String × Json) → List (String × Json)
  | [] => []
  | (name, value) :: rest => (name, tidy value) :: tidyMembers rest

end

end Json

end GraphBridge
