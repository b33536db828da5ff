import GraphBridge.Proofs.Encoding

/-!
# The properties of vertices and edges

A vertex or an edge is decoded to a map: its identity and its label under tokens, and each property
of its table under its name. A vertex may have several values for a property and sends them as a
list, so a list of one value stands for that value. An edge has one value for a property, which is
decoded in the same way. So a property of an edge keeps its value if and only if that is no list of
one value.
-/

namespace GraphBridge.Response.Typed

open Compile

/-! ## The property table -/

/-- No name is decoded that is not in the table. -/
theorem mem_keys_of_decodePropertyTable {members : Table Json} {entries : List (Typed × Typed)}
    (decoded : decodePropertyTable members = .ok entries) {key value : Typed}
    (mem : (key, value) ∈ entries) : ∃ name ∈ members.keys, key = .scalar (.string name) := by
  induction members generalizing entries with
  | nil =>
      cases decoded
      cases mem
  | cons member rest ih =>
      obtain ⟨name, sent⟩ := member
      rw [decodePropertyTable] at decoded
      obtain ⟨own, -, decoded⟩ := bind_eq_ok decoded
      obtain ⟨more, others, made⟩ := bind_eq_ok decoded
      cases made
      rcases List.mem_cons.1 mem with first | later
      · exact ⟨name, List.mem_cons_self, congrArg Prod.fst first⟩
      · obtain ⟨other, known, same⟩ := ih others later
        exact ⟨other, List.mem_cons_of_mem _ known, same⟩

/-- A table with distinct names gives each name the value of its property, unwrapped. -/
theorem mem_decodePropertyTable_iff {members : Table Json} (distinct : members.keys.Nodup)
    {entries : List (Typed × Typed)} (decoded : decodePropertyTable members = .ok entries)
    {name : String} {sent : Json} (given : members.get? name = some sent) :
    ∃ value, decodeAs "" .plain sent = .ok value
      ∧ ∀ found, (.scalar (.string name), found) ∈ entries ↔ found = value.unwrapSingle := by
  induction members generalizing entries with
  | nil => cases given
  | cons member rest ih =>
      obtain ⟨first, own⟩ := member
      rw [Table.keys, List.map_cons, List.nodup_cons] at distinct
      rw [decodePropertyTable] at decoded
      obtain ⟨value, read, decoded⟩ := bind_eq_ok decoded
      obtain ⟨more, others, made⟩ := bind_eq_ok decoded
      cases made
      by_cases same : first = name
      · subst same
        rw [Table.get?, beq_self_eq_true, if_pos rfl] at given
        cases given
        refine ⟨value, read, fun found => ⟨fun mem => ?_, fun equal => ?_⟩⟩
        · rcases List.mem_cons.1 mem with entry | later
          · exact congrArg Prod.snd entry
          · -- the rest of the table does not have the name
            obtain ⟨other, known, equal⟩ := mem_keys_of_decodePropertyTable others later
            cases equal
            exact absurd known distinct.1
        · rw [equal]
          exact List.mem_cons_self
      · rw [Table.get?, if_neg (by simpa using same)] at given
        obtain ⟨held, found, entry⟩ := ih distinct.2 others given
        refine ⟨held, found, fun found => ?_⟩
        rw [← entry found, List.mem_cons, or_iff_right]
        intro equal
        cases equal
        exact same rfl

/-! ## Elements and properties -/

/-- The property table of an element is its `properties`, if they are an object. -/
theorem decodeProperties_eq (members : Table Json) :
    decodeProperties members
      = match members.get? "properties" with
        | some (.object table) => decodePropertyTable table
        | _ => .ok [] := by
  induction members with
  | nil => rfl
  | cons member rest ih =>
      obtain ⟨name, value⟩ := member
      by_cases named : name = "properties"
      · subst named
        cases value <;> rfl
      · cases value <;> simp [decodeProperties, Table.get?, named, ih]

/-- The own members of an element stand under tokens. -/
theorem token_of_ownEntry {name : String} {decoded : Option (Except ParseError Typed)}
    {entries : List (Typed × Typed)} (own : ownEntry name decoded = .ok entries) :
    ∀ entry ∈ entries, entry.1 = .token name := by
  unfold ownEntry at own
  split at own
  · cases own
    exact List.forall_mem_nil _
  · cases own
    exact List.forall_mem_singleton.2 rfl
  · cases own

/-- The properties of an element stand in its map as they are decoded in its table. -/
theorem decode_element {tag : String} {element : Json} {table : Table Json} {t : Typed}
    (stored : element.member? "properties" = some (.object table))
    (decoded : decodeAs tag .element element = .ok t) :
    ∃ entries properties, t = .map entries ∧ decodePropertyTable table = .ok properties
      ∧ ∀ (name : String) (value : Typed),
          (.scalar (.string name), value) ∈ entries
            ↔ (.scalar (.string name), value) ∈ properties := by
  cases element with
  | object members =>
      have found : Table.get? members "properties" = some (.object table) := stored
      rw [decodeAs] at decoded
      obtain ⟨id, ownId, decoded⟩ := bind_eq_ok decoded
      obtain ⟨label, ownLabel, decoded⟩ := bind_eq_ok decoded
      obtain ⟨properties, held, made⟩ := bind_eq_ok decoded
      cases made
      rw [decodeProperties_eq, found] at held
      refine ⟨_, properties, rfl, held, fun name value => ?_⟩
      have apart {own : String} {entries : List (Typed × Typed)}
          (tokens : ∀ entry ∈ entries, entry.1 = .token own) :
          (.scalar (.string name), value) ∉ entries := fun mem => by cases tokens _ mem
      rw [List.mem_append, List.mem_append, or_iff_right]
      rintro (mem | mem)
      · exact apart (token_of_ownEntry ownId) mem
      · exact apart (token_of_ownEntry ownLabel) mem
  | null | bool | number | string | array => cases stored

/-- A property is decoded as its value. -/
theorem decode_property {property payload value : Json} {tag : String}
    (own : property.IsTagged tag payload) (form : Form.ofTag tag = .property)
    (held : payload.member? "value" = some value) :
    decodeAs "" .plain property = decodeAs "" .plain value := by
  rw [decode_of_isTagged own, form]
  cases payload with
  | object members =>
      have found : Table.get? members "value" = some value := held
      rw [decodeAs, decodeMember_eq, found]
      rfl
  | null | bool | number | string | array => cases held

/-- Only a list of one value is unwrapped. -/
theorem unwrapSingle_eq_iff (value : Typed) :
    value = value.unwrapSingle ↔ ∀ item, value ≠ .list [item] := by
  constructor
  · rintro kept item rfl
    -- no value is a list of itself
    have size := congrArg sizeOf kept
    simp only [unwrapSingle, list.sizeOf_spec, List.cons.sizeOf_spec, List.nil.sizeOf_spec] at size
    omega
  · intro other
    unfold unwrapSingle
    split
    · next item => exact absurd rfl (other item)
    · rfl

/-- What a property of an edge is decoded to. If an edge is decoded, then so is the value of each of
its properties, and the name of the property is paired with that value and nothing else, except that
a list of one value is replaced by the value in it: the property keeps its value if and only if that
is no list of one value. -/
theorem decode_edge_property {edge element property payload value : Json} {table : Table Json}
    {name : String} {t : Typed} (isEdge : edge.IsTagged "g:Edge" element)
    (decoded : decode edge = .ok t)
    (stored : element.member? "properties" = some (.object table))
    (distinct : table.keys.Nodup) (given : table.get? name = some property)
    (own : property.IsTagged "g:Property" payload) (held : payload.member? "value" = some value) :
    ∃ entries v, t = .map entries ∧ decode value = .ok v
      ∧ (∀ found, (.scalar (.string name), found) ∈ entries ↔ found = v.unwrapSingle)
      ∧ ((.scalar (.string name), v) ∈ entries ↔ ∀ item, v ≠ .list [item]) := by
  unfold decode at decoded
  rw [decode_of_isTagged isEdge] at decoded
  obtain ⟨entries, properties, made, read, same⟩ := decode_element stored decoded
  obtain ⟨v, single, paired⟩ := mem_decodePropertyTable_iff distinct read given
  rw [decode_property own rfl held] at single
  refine ⟨entries, v, made, single, fun found => ?_, ?_⟩
  · rw [same, paired]
  · rw [same, paired, unwrapSingle_eq_iff]

/-- What a property of an edge is sent as, below its tag. -/
def sentProperty (name : String) (value : Json) : Json :=
  .object [("key", .string name), ("value", value)]

/-- What an edge with one property is sent as, below its tag. -/
def sentEdge (name : String) (value : Json) : Json :=
  .object [("id", .string "7"), ("label", .string "knows"),
    ("properties", .object [(name, tagged "g:Property" (sentProperty name value))])]

/-- Two years in a list. -/
def twoYears : Json :=
  .array [.string "2019", .string "2020"]

theorem decode_edge_property_years :
    (tagged "g:Edge" (sentEdge "years" twoYears)).IsTagged "g:Edge" (sentEdge "years" twoYears)
      ∧ (tagged "g:Property" (sentProperty "years" twoYears)).IsTagged "g:Property"
          (sentProperty "years" twoYears)
      ∧ ∃ entries v, decode (tagged "g:Edge" (sentEdge "years" twoYears)) = .ok (.map entries)
          ∧ decode twoYears = .ok v ∧ (.scalar (.string "years"), v) ∈ entries := by
  have edge := isTagged_tagged "g:Edge" (sentEdge "years" twoYears)
  have property := isTagged_tagged "g:Property" (sentProperty "years" twoYears)
  have decoded : decode (tagged "g:Edge" (sentEdge "years" twoYears))
      = .ok (.map [(.token "id", .scalar (.string "7")), (.token "label", .scalar (.string "knows")),
        (.scalar (.string "years"),
          .list [.scalar (.string "2019"), .scalar (.string "2020")])]) := rfl
  have read : decode twoYears
      = .ok (.list [.scalar (.string "2019"), .scalar (.string "2020")]) := rfl
  have stored : (sentEdge "years" twoYears).member? "properties"
      = some (.object [("years", tagged "g:Property" (sentProperty "years" twoYears))]) := rfl
  have given : Table.get? [("years", tagged "g:Property" (sentProperty "years" twoYears))] "years"
      = some (tagged "g:Property" (sentProperty "years" twoYears)) := rfl
  have held : (sentProperty "years" twoYears).member? "value" = some twoYears := rfl
  obtain ⟨entries, v, made, single, -, kept⟩ :=
    decode_edge_property edge decoded stored (List.nodup_singleton _) given property held
  refine ⟨edge, property, entries, v, decoded.trans (congrArg _ made), single,
    kept.2 fun item equal => ?_⟩
  rw [read] at single
  cases single
  cases equal

/-- The only year of an edge is decoded as if it were no list. -/
theorem single_year_unwrapped :
    ∃ entries v,
      decode (tagged "g:Edge" (sentEdge "years" (.array [.string "2019"]))) = .ok (.map entries)
        ∧ decode (.array [.string "2019"]) = .ok v
        ∧ (.scalar (.string "years"), v) ∉ entries
        ∧ (.scalar (.string "years"), .scalar (.string "2019")) ∈ entries := by
  refine ⟨[(.token "id", .scalar (.string "7")), (.token "label", .scalar (.string "knows")),
    (.scalar (.string "years"), .scalar (.string "2019"))], .list [.scalar (.string "2019")],
    rfl, rfl, ?_, ?_⟩
  · simp
  · simp

end GraphBridge.Response.Typed
