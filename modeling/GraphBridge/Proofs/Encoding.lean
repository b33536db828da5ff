import GraphBridge.Proofs.Reshaping

/-!
# Typed and untyped values as JSON

A typed value has a canonical encoding: scalars stand for themselves, and tokens, lists and maps are
tagged, a map as alternating keys and values that are encoded themselves. Decoding takes the
encoding back to the value. On JSON in which nothing looks like a tagged value, decoding and going
back to untyped JSON change nothing.
-/

namespace GraphBridge

namespace Json

/-- Whether a value is an object with a tag, which is a string, and a payload. -/
def IsTagged (value : Json) (tag : String) (payload : Json) : Prop :=
  value.member? "@type" = some (.string tag) ∧ value.member? "@value" = some payload

mutual

/-- Whether no object in a value has both a tag and a payload. -/
def IsUntagged : Json → Prop
  | .array items => AreUntagged items
  | .object members =>
      (¬ ∃ tag payload, IsTagged (.object members) tag payload) ∧ HaveUntagged members
  | _ => True

/-- Whether no object in the items has both a tag and a payload. -/
def AreUntagged : List Json → Prop
  | [] => True
  | item :: rest => IsUntagged item ∧ AreUntagged rest

/-- Whether no object in the members has both a tag and a payload. -/
def HaveUntagged : List (String × Json) → Prop
  | [] => True
  | (_, value) :: rest => IsUntagged value ∧ HaveUntagged rest

end

end Json

namespace Response.Typed

/-! ## Decoding an object -/

/-- A member is decoded as what is found under its name. -/
theorem decodeMember_eq (tag : String) (form : Form) (name : String)
    (members : List (String × Json)) :
    decodeMember tag form name members = (Table.get? members name).map (decodeAs tag form) := by
  induction members with
  | nil => rfl
  | cons member rest ih =>
      obtain ⟨other, value⟩ := member
      rw [decodeMember, Table.get?, ih]
      split <;> rfl

/-- The payload of a tagged value is decoded in the form that the tag announces. -/
theorem decode_of_isTagged {value payload : Json} {tag : String}
    (typed : value.IsTagged tag payload) :
    decodeAs "" .plain value = decodeAs tag (.ofTag tag) payload := by
  cases value with
  | object members =>
      have own : Table.get? members "@type" = some (.string tag) := typed.1
      have held : Table.get? members "@value" = some payload := typed.2
      have found : tag? members = some tag := by
        unfold tag?
        rw [own, held]
        rfl
      rw [decodeAs, found]
      dsimp only
      rw [decodeMember_eq, held]
      rfl
  | null | bool | number | string | array => cases typed.1

/-- An object without a tag or without a payload is decoded member by member. -/
theorem decode_object {members : List (String × Json)}
    (untagged : ¬ ∃ tag payload, Json.IsTagged (.object members) tag payload) :
    decodeAs "" .plain (.object members) = (decodeMembers members).map Typed.map := by
  have none : tag? members = none := by
    unfold tag?
    split
    · next tag payload typed held =>
        obtain ⟨value, found, string⟩ := Option.bind_eq_some_iff.1 typed
        refine absurd ⟨tag, payload, ?_, held⟩ untagged
        cases value <;> cases string
        exact found
    · rfl
  rw [decodeAs, none]

/-! ## Encoding -/

/-- An object with a tag and a payload. -/
def tagged (tag : String) (payload : Json) : Json :=
  .object [("@type", .string tag), ("@value", payload)]

mutual

/-- The canonical encoding of a value. -/
def encode : Typed → Json
  | .scalar value => value
  | .token name => tagged "g:T" (.string name)
  | .list items => tagged "g:List" (.array (encodeItems items))
  | .map entries => tagged "g:Map" (.array (encodeEntries entries))

/-- The encoding of each item. -/
def encodeItems : List Typed → List Json
  | [] => []
  | item :: rest => encode item :: encodeItems rest

/-- The encodings of keys and values in turn. -/
def encodeEntries : List (Typed × Typed) → List Json
  | [] => []
  | (key, value) :: rest => encode key :: encode value :: encodeEntries rest

end

mutual

/-- Whether every scalar in a value holds no other value. -/
def HasScalars : Typed → Prop
  | .scalar value => IsScalar value
  | .token _ => True
  | .list items => HaveScalars items
  | .map entries => HaveScalarEntries entries

/-- Whether every scalar in the items holds no other value. -/
def HaveScalars : List Typed → Prop
  | [] => True
  | item :: rest => HasScalars item ∧ HaveScalars rest

/-- Whether every scalar in the keys and values holds no other value. -/
def HaveScalarEntries : List (Typed × Typed) → Prop
  | [] => True
  | (key, value) :: rest => HasScalars key ∧ HasScalars value ∧ HaveScalarEntries rest

end

/-- Keys and values in turn are an even number. -/
theorem length_encodeEntries (entries : List (Typed × Typed)) :
    (encodeEntries entries).length = 2 * entries.length := by
  induction entries with
  | nil => rfl
  | cons entry rest ih =>
      obtain ⟨key, value⟩ := entry
      rw [encodeEntries, List.length_cons, List.length_cons, List.length_cons, ih]
      omega

theorem isTagged_tagged (tag : String) (payload : Json) :
    (tagged tag payload).IsTagged tag payload :=
  ⟨rfl, rfl⟩

mutual

/-- Decoding takes the encoding of a value back to the value. -/
theorem decode_encode (t : Typed) (scalars : t.HasScalars) :
    decodeAs "" .plain t.encode = .ok t := by
  match t with
  | .scalar value => exact decode_isScalar scalars
  | .token name => rfl
  | .list items =>
      rw [encode, decode_of_isTagged (isTagged_tagged _ _)]
      change decodeAs "g:List" .list (.array (encodeItems items)) = _
      rw [decodeAs, decodeItems_encodeItems items scalars]
      rfl
  | .map entries =>
      have even : (encodeEntries entries).length % 2 = 0 := by
        rw [length_encodeEntries]
        omega
      rw [encode, decode_of_isTagged (isTagged_tagged _ _)]
      change decodeAs "g:Map" .map (.array (encodeEntries entries)) = _
      rw [decodeAs, if_pos even, decodeEntries_encodeEntries entries scalars]
      rfl

theorem decodeItems_encodeItems (items : List Typed) (scalars : HaveScalars items) :
    decodeItems (encodeItems items) = .ok items := by
  match items with
  | [] => rfl
  | item :: rest =>
      rw [encodeItems, decodeItems, decode_encode item scalars.1,
        decodeItems_encodeItems rest scalars.2]
      rfl

theorem decodeEntries_encodeEntries (entries : List (Typed × Typed))
    (scalars : HaveScalarEntries entries) :
    decodeEntries (encodeEntries entries) = .ok entries := by
  match entries with
  | [] => rfl
  | (key, value) :: rest =>
      obtain ⟨own, held, others⟩ := scalars
      rw [encodeEntries, decodeEntries, decode_encode key own, decode_encode value held,
        decodeEntries_encodeEntries rest others]
      rfl

end

/-! ## Untyped JSON -/

mutual

/-- Untagged JSON is decoded, and what is decoded is the same JSON. -/
theorem decode_untagged (value : Json) (untagged : value.IsUntagged) :
    ∃ t, decodeAs "" .plain value = .ok t ∧ t.toJson = value.tidy := by
  match value with
  | .null | .bool _ | .number _ | .string _ => exact ⟨_, rfl, rfl⟩
  | .array items =>
      obtain ⟨ts, decoded, same⟩ := decodeItems_untagged items untagged
      refine ⟨.list ts, ?_, ?_⟩
      · rw [decodeAs, decoded]
        rfl
      · rw [toJson, same, Json.tidy]
  | .object members =>
      obtain ⟨entries, decoded, same⟩ := decodeMembers_untagged members untagged.2
      refine ⟨.map entries, ?_, ?_⟩
      · rw [decode_object untagged.1, decoded]
        rfl
      · rw [toJson, same, Json.tidy]

theorem decodeItems_untagged (items : List Json) (untagged : Json.AreUntagged items) :
    ∃ ts, decodeItems items = .ok ts ∧ itemsToJson ts = Json.tidyItems items := by
  match items with
  | [] => exact ⟨[], rfl, rfl⟩
  | item :: rest =>
      obtain ⟨t, first, own⟩ := decode_untagged item untagged.1
      obtain ⟨ts, decoded, same⟩ := decodeItems_untagged rest untagged.2
      refine ⟨t :: ts, ?_, ?_⟩
      · rw [decodeItems, first, decoded]
        rfl
      · rw [itemsToJson, own, same, Json.tidyItems]

theorem decodeMembers_untagged (members : List (String × Json))
    (untagged : Json.HaveUntagged members) :
    ∃ entries, decodeMembers members = .ok entries
      ∧ entriesToJson entries = Json.tidyMembers members := by
  match members with
  | [] => exact ⟨[], rfl, rfl⟩
  | (name, value) :: rest =>
      obtain ⟨t, first, own⟩ := decode_untagged value untagged.1
      obtain ⟨entries, decoded, same⟩ := decodeMembers_untagged rest untagged.2
      refine ⟨(.scalar (.string name), t) :: entries, ?_, ?_⟩
      · rw [decodeMembers, first, decoded]
        rfl
      · rw [entriesToJson, own, same, Json.tidyMembers]
        rfl

end

/-- Decoding is a left inverse of the canonical encoding, and conservative on untyped JSON: a value
whose scalars hold no other value is decoded from its encoding, and JSON in which no object has both
a tag and a payload is decoded to a value that is the same JSON, with the members in their order. -/
theorem decode_inverse :
    (∀ t : Typed, t.HasScalars → decode t.encode = .ok t)
      ∧ ∀ value : Json, value.tidy = value → value.IsUntagged →
          ∃ t, decode value = .ok t ∧ t.toJson = value := by
  refine ⟨decode_encode, fun value tidy untagged => ?_⟩
  obtain ⟨t, decoded, same⟩ := decode_untagged value untagged
  exact ⟨t, decoded, same.trans tidy⟩

/-- A map with a key that is a map itself. -/
def nestedValue : Typed :=
  .map [(.map [(.token "id", .scalar .null)], .list [.scalar (.string "a"), .token "label"]),
    (.list [], .map [])]

/-- An object with a tag and a payload in two objects. -/
def untaggedValue : Json :=
  .object [("@type", .string "g:List"), ("b", .object [("@value", .array [.null])]),
    ("a", .object [("@type", .null), ("@value", .bool true)])]

theorem decode_inverse_nested :
    nestedValue.HasScalars ∧ decode nestedValue.encode = .ok nestedValue
      ∧ untaggedValue.tidy = untaggedValue ∧ untaggedValue.IsUntagged
      ∧ ∃ t, decode untaggedValue = .ok t ∧ t.toJson = untaggedValue := by
  have scalars : nestedValue.HasScalars := by
    simp [nestedValue, HasScalars, HaveScalars, HaveScalarEntries, IsScalar]
  have tidy : untaggedValue.tidy = untaggedValue := rfl
  have untagged : untaggedValue.IsUntagged := by
    simp [untaggedValue, Json.IsUntagged, Json.AreUntagged, Json.HaveUntagged, Json.IsTagged,
      Json.member?, Json.object?, Table.get?]
  exact ⟨scalars, decode_inverse.1 _ scalars, tidy, untagged, decode_inverse.2 _ tidy untagged⟩

end Response.Typed

end GraphBridge
