import GraphBridge.Proofs.Plain
import GraphBridge.Proofs.Reading
import GraphBridge.Response.Reshape
import Mathlib.Data.List.Induction
import Mathlib.Data.List.Nodup
import Mathlib.Data.List.Perm.Basic

/-!
# Reshaping what is stored

A node comes back from the graph as its identity, its label and the properties it stores, in any
order. Its answer holds them under other names: the label under `type`, the identity under the name
of the identity field, and each property under the name of its field. All of these are members of
one object, and all keys of the graph go through one table of aliases, so the fields of a type get
their own values back exactly if these names are distinct and no property is stored under a key that
the graph uses itself.
-/

namespace GraphBridge.Schema

/-! ## The fields of a type by what they read -/

/-- The key under which a plain field is stored. -/
def FieldDefinition.stored (f : FieldDefinition) : String :=
  (storedName? f.directives).getD f.name

namespace TypeDefinition

variable {t : TypeDefinition}

/-- How a field of a type maps onto the graph. -/
def mapping (t : TypeDefinition) (f : FieldDefinition) : Except SchemaError FieldMapping :=
  mappingOf (t.name ++ "." ++ f.name) f

/-- The fields of a type that map onto the graph in one way. -/
def mapped (t : TypeDefinition) (m : FieldMapping) : List FieldDefinition :=
  t.fields.filter fun f => (t.mapping f).toOption == some m

/-- The name that the identity has in an answer: that of the identity field, if there is one. -/
def identityName (t : TypeDefinition) : String :=
  ((t.mapped .identity).head?.map (·.name)).getD "id"

/-- What a field of a type enters into the alias map. -/
def aliasesOf (t : TypeDefinition) (f : FieldDefinition) : List (String × String) :=
  match t.mapping f with
  | .ok .identity => [("id", f.name)]
  | .ok .plain => [(f.stored, f.name)]
  | _ => []

theorem mem_mapped {m : FieldMapping} {f : FieldDefinition} :
    f ∈ t.mapped m ↔ f ∈ t.fields ∧ t.mapping f = .ok m := by
  unfold mapped
  rw [List.mem_filter, beq_iff_eq]
  refine and_congr_right fun _ => ?_
  cases t.mapping f with
  | error e => simp [Except.toOption]
  | ok found => simp [Except.toOption]

theorem mem_aliases {entry : String × String} :
    entry ∈ t.fields.flatMap t.aliasesOf ↔ (∃ f ∈ t.mapped .identity, entry = ("id", f.name))
      ∨ ∃ f ∈ t.mapped .plain, entry = (f.stored, f.name) := by
  unfold aliasesOf
  simp only [List.mem_flatMap, mem_mapped]
  constructor
  · rintro ⟨f, mem, entered⟩
    split at entered
    · next found => exact .inl ⟨f, ⟨mem, found⟩, List.mem_singleton.1 entered⟩
    · next found => exact .inr ⟨f, ⟨mem, found⟩, List.mem_singleton.1 entered⟩
    · cases entered
  · rintro (⟨f, ⟨mem, found⟩, rfl⟩ | ⟨f, ⟨mem, found⟩, rfl⟩)
    · refine ⟨f, mem, ?_⟩
      rw [found]
      exact List.mem_singleton_self _
    · refine ⟨f, mem, ?_⟩
      rw [found]
      exact List.mem_singleton_self _

theorem hasDirective_of_identity {f : FieldDefinition} (found : t.mapping f = .ok .identity) :
    f.hasDirective "id" = true := by
  unfold mapping mappingOf at found
  split at found
  · next d _ =>
      unfold fragmentOf at found
      split at found <;> cases found
  · split at found
    · next d _ =>
        unfold relationshipOf at found
        split at found
        · cases found
        · split at found
          · cases found
          · split at found <;> cases found
    · split at found
      · assumption
      · cases found

end TypeDefinition

namespace Index

variable {index : Index} {t : TypeDefinition}

theorem exists_describe {f : FieldDefinition} {m : FieldMapping} (found : t.mapping f = .ok m) :
    ∃ d, index.describe t f = .ok d ∧ aliasEntry d = t.aliasesOf f := by
  unfold describe
  rw [← TypeDefinition.mapping, found]
  refine ⟨_, rfl, ?_⟩
  rw [aliasEntry, TypeDefinition.aliasesOf, found]
  cases m <;> rfl

/-- A type whose directives can be read has an alias map. -/
theorem aliasMap_eq {typeName : String} (known : index.type? typeName = some t)
    (readable : ∀ f ∈ t.fields, ∃ m, t.mapping f = .ok m) :
    index.aliasMap typeName = .ok (Table.ofList (t.fields.flatMap t.aliasesOf)) := by
  have described (fields : List FieldDefinition)
      (readable : ∀ f ∈ fields, ∃ m, t.mapping f = .ok m) :
      ∃ descriptors, fields.mapM (index.describe t) = .ok descriptors
        ∧ descriptors.flatMap aliasEntry = fields.flatMap t.aliasesOf := by
    induction fields with
    | nil => exact ⟨[], rfl, rfl⟩
    | cons f rest ih =>
        obtain ⟨⟨m, found⟩, others⟩ := List.forall_mem_cons.1 readable
        obtain ⟨d, looked, own⟩ := exists_describe found
        obtain ⟨descriptors, later, entered⟩ := ih others
        refine ⟨d :: descriptors, ?_, ?_⟩
        · rw [List.mapM_cons, looked, later]
          rfl
        · rw [List.flatMap_cons, List.flatMap_cons, own, entered]
  obtain ⟨descriptors, looked, entered⟩ := described t.fields readable
  unfold aliasMap requireType
  rw [known]
  change (t.fields.mapM (index.describe t) >>= _) = _
  rw [looked, ← entered]
  rfl

/-- In an index no type has two fields that read the identity. -/
theorem identity_cases {document : Document} (accepted : ofDocument document = .ok index)
    (mem : t ∈ index.document.types) :
    t.mapped .identity = [] ∨ ∃ f, t.mapped .identity = [f] := by
  have unique : repeatedId? t = none := by
    unfold ofDocument at accepted
    dsimp only at accepted
    split at accepted
    · cases accepted
    · next none_repeated =>
        cases accepted
        have missing := List.findSome?_eq_none_iff.1 none_repeated t mem
        exact Option.map_eq_none_iff.1 missing
  have marked : (t.fields.filter (·.hasDirective "id")).length ≤ 1 := by
    unfold repeatedId? at unique
    split at unique
    · cases unique
    · next fewer =>
        cases fields : t.fields.filter (·.hasDirective "id") with
        | nil => exact Nat.zero_le 1
        | cons first rest =>
            cases rest with
            | nil => exact Nat.le_refl 1
            | cons second rest => exact absurd fields (fewer first second rest)
  have reads : (t.mapped .identity).Sublist (t.fields.filter (·.hasDirective "id")) := by
    refine List.monotone_filter_right _ fun f found => ?_
    have reads : t.mapping f = .ok .identity := by
      cases looked : t.mapping f with
      | error e => simp [looked, Except.toOption] at found
      | ok m => simpa [looked, Except.toOption] using found
    exact TypeDefinition.hasDirective_of_identity reads
  match fields : t.mapped .identity with
  | [] => exact .inl rfl
  | [f] => exact .inr ⟨f, rfl⟩
  | first :: second :: rest =>
      have length := reads.length_le
      rw [fields, List.length_cons, List.length_cons] at length
      omega

end Index

end GraphBridge.Schema

namespace GraphBridge.Response

open Schema

/-! ## What the graph answers for a node -/

/-- A value that holds no other value. -/
def IsScalar : Json → Prop
  | .array _ | .object _ => False
  | _ => True

/-- A place in which a node keeps a value. -/
inductive Slot where
  | identity
  | label
  | property (stored : String)
  deriving DecidableEq, Repr

namespace Slot

/-- The key of a place, as far as it decides the name in the answer. -/
def key : Slot → String
  | .identity => "id"
  | .label => "label"
  | .property stored => stored

/-- The key of a place as it is sent: tokens of the graph are typed. -/
def sent : Slot → Json
  | .property stored => .string stored
  | token => .object [("@type", .string "g:T"), ("@value", .string token.key)]

/-- The key of a place as it is read. -/
def read : Slot → Typed
  | .property stored => .scalar (.string stored)
  | token => .token token.key

theorem decode_sent (s : Slot) : Typed.decodeAs "" .plain s.sent = .ok s.read := by
  cases s <;> rfl

theorem key?_read (s : Slot) : s.read.key? = some s.key := by
  cases s <;> rfl

end Slot

/-- The answer of the graph for one node: a list of one map, with the places in some order. -/
def nodeResponse (value : Slot → Json) (order : List Slot) : Json :=
  .object [("@type", .string "g:List"), ("@value", .array [
    .object [("@type", .string "g:Map"),
      ("@value", .array (order.flatMap fun s => [s.sent, value s]))]])]

section Node

variable {value : Slot → Json} {order : List Slot}

theorem decode_isScalar {v : Json} (scalar : IsScalar v) :
    Typed.decodeAs "" .plain v = .ok (.scalar v) := by
  cases v with
  | array items => cases scalar
  | object members => cases scalar
  | _ => rfl

theorem decodeEntries_slots (scalars : ∀ s ∈ order, IsScalar (value s)) :
    Typed.decodeEntries (order.flatMap fun s => [s.sent, value s])
      = .ok (order.map fun s => (s.read, .scalar (value s))) := by
  induction order with
  | nil => rfl
  | cons s rest ih =>
      obtain ⟨own, others⟩ := List.forall_mem_cons.1 scalars
      rw [List.flatMap_cons, List.map_cons, List.cons_append, List.cons_append, List.nil_append,
        Typed.decodeEntries, s.decode_sent, decode_isScalar own, ih others]
      rfl

theorem decode_nodeResponse (scalars : ∀ s ∈ order, IsScalar (value s)) :
    Typed.decode (nodeResponse value order)
      = .ok (.list [.map (order.map fun s => (s.read, .scalar (value s)))]) := by
  have even : (order.flatMap fun s => [s.sent, value s]).length % 2 = 0 := by
    rw [List.length_flatMap]
    simp
  have map : Typed.decodeAs "" .plain (.object [("@type", .string "g:Map"),
        ("@value", .array (order.flatMap fun s => [s.sent, value s]))])
      = .ok (.map (order.map fun s => (s.read, .scalar (value s)))) := by
    change Typed.decodeAs "g:Map" .map (.array _) = _
    rw [Typed.decodeAs]
    rw [if_pos even, decodeEntries_slots scalars]
    rfl
  change (Typed.decodeItems [_]).map Typed.list = _
  rw [Typed.decodeItems, map]
  rfl

theorem shapeMembers_slots (aliases : Table String) :
    shapeMembers aliases (order.map fun s => (s.read, .scalar (value s)))
      = .ok (order.map fun s => (fieldName aliases s.key, value s)) := by
  induction order with
  | nil => rfl
  | cons s rest ih =>
      rw [List.map_cons, shapeMembers, s.key?_read, ih]
      rfl

/-- The answer for a node: the values in their order under the names that the aliases give. -/
theorem reshape_nodeResponse (policy : MalformedPolicy) (aliases : Table String)
    (scalars : ∀ s ∈ order, IsScalar (value s)) :
    reshape policy (nodeResponse value order) aliases
      = .ok (.object (Table.ofList (order.map fun s => (fieldName aliases s.key, value s)))) := by
  have envelope : envelopeOf (nodeResponse value order) = nodeResponse value order := rfl
  unfold reshape
  rw [envelope]
  dsimp only
  rw [decode_nodeResponse scalars]
  dsimp only
  rw [shapeEnvelope, shapeObject, shapeMembers_slots]
  rfl

end Node

/-! ## What the answer holds -/

/-- Reading back the value of a place under a name, whatever the values are and in whatever order
they come, takes that the place has this name and no other place has it. -/
theorem readsBack_iff {slots : List Slot} (called : Slot → String) {s : Slot} (mem : s ∈ slots)
    (own : s ≠ .label) (name label : String) :
    (∀ (value : Slot → Json) (order : List Slot), (∀ s, IsScalar (value s)) →
        value .label = .string label → order.Perm slots →
        (Table.ofList (order.map fun s => (called s, value s))).get? name = some (value s))
      ↔ called s = name ∧ ∀ other ∈ slots, called other = name → other = s := by
  constructor
  · intro held
    -- another place of that name, coming last, would show through
    have alone : ∀ other ∈ slots, called other = name → other = s := by
      intro other among named
      by_contra apart
      let value : Slot → Json := fun place => if place = s then .null else .string label
      have scalars (place : Slot) : IsScalar (value place) := by
        by_cases same : place = s
        · simp [value, same, IsScalar]
        · simp [value, same, IsScalar]
      have last : (slots.erase other ++ [other]).Perm slots :=
        (List.perm_append_singleton _ _).trans (List.perm_cons_erase among).symm
      have found := held value _ scalars (if_neg own.symm) last
      rw [List.map_append, List.map_singleton, Table.get?_ofList, Table.last?_concat,
        if_pos named] at found
      simp [value, apart] at found
    refine ⟨?_, alone⟩
    have found := held (fun place => if place = .label then .string label else .null) slots
      (fun place => by by_cases same : place = .label <;> simp [same, IsScalar]) (if_pos rfl)
      (.refl _)
    obtain ⟨other, among, entered⟩ :=
      List.mem_map.1 (Table.mem_of_mem_ofList (Table.mem_of_get? found))
    have named : called other = name := congrArg Prod.fst entered
    rw [← alone other among named]
    exact named
  · rintro ⟨named, alone⟩ value order - - same
    refine Table.get?_ofList_of_mem ?_ ?_
    · rw [← named]
      exact List.mem_map.2 ⟨s, same.mem_iff.2 mem, rfl⟩
    · intro entry entered equal
      obtain ⟨other, among, rfl⟩ := List.mem_map.1 entered
      rw [alone other (same.mem_iff.1 among) equal]

end GraphBridge.Response

namespace GraphBridge.Schema.TypeDefinition

open Response

variable {t : TypeDefinition}

/-- The places that a node of a type fills. -/
def slots (t : TypeDefinition) : List Slot :=
  .identity :: .label :: (t.mapped .plain).map fun f => .property f.stored

/-- The places that the fields of a type read, with the names of the fields. -/
def places (t : TypeDefinition) : List (Slot × String) :=
  (t.mapped .identity).map (fun f => (.identity, f.name))
    ++ (t.mapped .plain).map fun f => (.property f.stored, f.name)

/-- Whether nothing that a node of the type answers stands in the way of another: no property is
stored under a key of the graph itself, and the names in the answer are distinct. -/
structure KeepsApart (t : TypeDefinition) : Prop where
  own : ∀ f ∈ t.mapped .plain, f.stored ≠ "id" ∧ f.stored ≠ "label"
  names : (t.identityName :: "type" :: (t.mapped .plain).map (·.name)).Nodup

/-- The name of a place in the answer for a node of the type. -/
def called (t : TypeDefinition) (s : Slot) : String :=
  fieldName (Table.ofList (t.fields.flatMap t.aliasesOf)) s.key

theorem nodup_slots (distinct : ((t.mapped .plain).map (·.stored)).Nodup) : t.slots.Nodup := by
  have properties : ((t.mapped .plain).map fun f => Slot.property f.stored).Nodup := by
    have injective : Function.Injective Slot.property := fun _ _ same => Slot.property.inj same
    have mapped := distinct.map injective
    rwa [List.map_map] at mapped
  unfold slots
  simp [properties]

theorem mem_slots_of_mem_places {place : Slot × String} (mem : place ∈ t.places) :
    place.1 ∈ t.slots ∧ place.1 ≠ .label := by
  unfold places at mem
  unfold slots
  rcases List.mem_append.1 mem with identity | plain
  · obtain ⟨f, -, rfl⟩ := List.mem_map.1 identity
    simp
  · obtain ⟨f, among, rfl⟩ := List.mem_map.1 plain
    simp [List.mem_map]
    exact ⟨f, among, rfl⟩

section Called

variable (single : t.mapped .identity = [] ∨ ∃ f, t.mapped .identity = [f])
  (own : ∀ f ∈ t.mapped .plain, f.stored ≠ "id" ∧ f.stored ≠ "label")

include own in
theorem called_property (distinct : ((t.mapped .plain).map (·.stored)).Nodup) {f : FieldDefinition}
    (mem : f ∈ t.mapped .plain) : t.called (.property f.stored) = f.name := by
  have found : (Table.ofList (t.fields.flatMap t.aliasesOf)).get? f.stored = some f.name := by
    refine Table.get?_ofList_of_mem (mem_aliases.2 (.inr ⟨f, mem, rfl⟩)) ?_
    intro entry entered key
    rcases mem_aliases.1 entered with ⟨g, -, rfl⟩ | ⟨g, among, rfl⟩
    · exact absurd key.symm (own f mem).1
    · rw [List.inj_on_of_nodup_map distinct among mem key]
  unfold called fieldName
  rw [Slot.key, if_neg (by simpa using (own f mem).2), found]
  rfl

include single own in
theorem called_identity : t.called .identity = t.identityName := by
  unfold called fieldName
  rw [Slot.key, if_neg (by decide)]
  unfold identityName
  rcases single with unmarked | ⟨f, one⟩
  · have absent : (Table.ofList (t.fields.flatMap t.aliasesOf)).get? "id" = none := by
      cases found : (Table.ofList (t.fields.flatMap t.aliasesOf)).get? "id" with
      | none => rfl
      | some name =>
          have entered := Table.mem_of_mem_ofList (Table.mem_of_get? found)
          rcases mem_aliases.1 entered with ⟨g, among, -⟩ | ⟨g, among, equal⟩
          · rw [unmarked] at among
            cases among
          · exact absurd (congrArg Prod.fst equal).symm (own g among).1
    rw [absent, unmarked]
    rfl
  · have found : (Table.ofList (t.fields.flatMap t.aliasesOf)).get? "id" = some f.name := by
      have mem : f ∈ t.mapped .identity := one ▸ List.mem_singleton_self f
      refine Table.get?_ofList_of_mem (mem_aliases.2 (.inl ⟨f, mem, rfl⟩)) ?_
      intro entry entered key
      rcases mem_aliases.1 entered with ⟨g, among, rfl⟩ | ⟨g, among, rfl⟩
      · rw [one] at among
        rw [List.mem_singleton.1 among]
      · exact absurd key (own g among).1
    rw [found, one]
    rfl

include single own in
/-- The places of a node in their names. -/
theorem map_called_slots (distinct : ((t.mapped .plain).map (·.stored)).Nodup) :
    t.slots.map t.called = t.identityName :: "type" :: (t.mapped .plain).map (·.name) := by
  unfold slots
  rw [List.map_cons, List.map_cons, called_identity single own, List.map_map]
  congr 2
  refine List.map_congr_left fun f mem => ?_
  exact called_property own distinct mem

end Called

theorem called_congr {s other : Slot} (same : s.key = other.key) : t.called s = t.called other := by
  unfold called
  rw [same]

theorem called_label : t.called .label = "type" := rfl

section Apart

variable (apart : ∀ place ∈ t.places, t.called place.1 = place.2
  ∧ ∀ other ∈ t.slots, t.called other = place.2 → other = place.1)

include apart in
/-- A place that a field reads shares its name with no other. -/
theorem eq_of_called {s other : Slot} {name : String} (read : (s, name) ∈ t.places)
    (filled : other ∈ t.slots) (same : t.called other = t.called s) : other = s :=
  (apart _ read).2 other filled (same.trans (apart _ read).1)

include apart in
theorem own_of_places {f : FieldDefinition} (mem : f ∈ t.mapped .plain) :
    f.stored ≠ "id" ∧ f.stored ≠ "label" := by
  have read : (Slot.property f.stored, f.name) ∈ t.places :=
    List.mem_append_right _ (List.mem_map.2 ⟨f, mem, rfl⟩)
  constructor
  · intro same
    have filled : Slot.identity ∈ t.slots := List.mem_cons_self
    cases eq_of_called apart read filled (called_congr same.symm)
  · intro same
    have filled : Slot.label ∈ t.slots := List.mem_cons_of_mem _ List.mem_cons_self
    cases eq_of_called apart read filled (called_congr same.symm)

end Apart

theorem read_or_unread (single : t.mapped .identity = [] ∨ ∃ f, t.mapped .identity = [f]) {s : Slot}
    (filled : s ∈ t.slots) :
    (∃ name, (s, name) ∈ t.places) ∨ s = .label ∨ s = .identity ∧ t.identityName = "id" := by
  rcases List.mem_cons.1 filled with rfl | rest
  · rcases single with unmarked | ⟨f, one⟩
    · refine .inr (.inr ⟨rfl, ?_⟩)
      rw [identityName, unmarked]
      rfl
    · refine .inl ⟨f.name, List.mem_append_left _ ?_⟩
      rw [one]
      exact List.mem_singleton_self _
  · rcases List.mem_cons.1 rest with rfl | property
    · exact .inr (.inl rfl)
    · obtain ⟨f, mem, rfl⟩ := List.mem_map.1 property
      exact .inl ⟨f.name, List.mem_append_right _ (List.mem_map.2 ⟨f, mem, rfl⟩)⟩

/-- The fields of a type read their own places back exactly if the places are kept apart. -/
theorem keepsApart_iff (single : t.mapped .identity = [] ∨ ∃ f, t.mapped .identity = [f])
    (distinct : ((t.mapped .plain).map (·.stored)).Nodup) :
    (∀ place ∈ t.places, t.called place.1 = place.2
        ∧ ∀ other ∈ t.slots, t.called other = place.2 → other = place.1)
      ↔ t.KeepsApart := by
  constructor
  · intro apart
    have own (f) (mem : f ∈ t.mapped .plain) := own_of_places apart mem
    have identity := called_identity single own
    refine ⟨own, ?_⟩
    rw [← map_called_slots single own distinct]
    refine (nodup_slots distinct).map_on fun first filled second filled' same => ?_
    -- of two places of one name, neither is read by a field unless they are one
    rcases read_or_unread single filled with ⟨name, read⟩ | unread
    · exact (eq_of_called apart read filled' same.symm).symm
    · rcases read_or_unread single filled' with ⟨name, read⟩ | unread'
      · exact eq_of_called apart read filled same
      · rcases unread with rfl | ⟨rfl, bare⟩
        · rcases unread' with rfl | ⟨rfl, bare⟩
          · rfl
          · rw [called_label, identity, bare] at same
            exact absurd same (by decide)
        · rcases unread' with rfl | ⟨rfl, -⟩
          · rw [called_label, identity, bare] at same
            exact absurd same (by decide)
          · rfl
  · intro apart place mem
    obtain ⟨filled, -⟩ := mem_slots_of_mem_places mem
    have called : t.called place.1 = place.2 := by
      unfold places at mem
      rcases List.mem_append.1 mem with identity | plain
      · obtain ⟨f, among, rfl⟩ := List.mem_map.1 identity
        rw [called_identity single apart.own]
        unfold identityName
        rcases single with unmarked | ⟨g, one⟩
        · rw [unmarked] at among
          cases among
        · rw [one] at among ⊢
          rw [List.mem_singleton.1 among]
          rfl
      · obtain ⟨f, among, rfl⟩ := List.mem_map.1 plain
        exact called_property apart.own distinct among
    refine ⟨called, fun other among same => ?_⟩
    have names : (t.slots.map t.called).Nodup :=
      map_called_slots single apart.own distinct ▸ apart.names
    exact List.inj_on_of_nodup_map names among filled (same.trans called.symm)

end GraphBridge.Schema.TypeDefinition

namespace GraphBridge.Schema.Index

open Response

/-- The values with which a node of a type may answer, and an order in which they may come. -/
structure Answers (t : TypeDefinition) (label : String) (value : Slot → Json) (order : List Slot) :
    Prop where
  scalar : ∀ s, IsScalar (value s)
  labelled : value .label = .string label
  ordered : order.Perm t.slots

/-- A type whose directives can be read and whose properties are stored apart has an alias map under
which every answer for a node becomes an object. The fields get their values back from all of these
objects exactly if the names in them and the keys of the graph are kept apart. -/
theorem reshape_readsBack_iff {document : Document} {index : Index} {typeName : String}
    {t : TypeDefinition} (accepted : ofDocument document = .ok index)
    (known : index.type? typeName = some t)
    (readable : ∀ f ∈ t.fields, ∃ m, t.mapping f = .ok m)
    (distinct : ((t.mapped .plain).map (·.stored)).Nodup) (policy : MalformedPolicy)
    (label : String) :
    ∃ aliases, index.aliasMap typeName = .ok aliases
      ∧ (∀ value order, Answers t label value order →
          ∃ members, reshape policy (nodeResponse value order) aliases = .ok (.object members))
      ∧ ((∀ value order, Answers t label value order →
            ∃ members, reshape policy (nodeResponse value order) aliases = .ok (.object members)
              ∧ ∀ place ∈ t.places, Table.get? members place.2 = some (value place.1))
          ↔ t.KeepsApart) := by
  have single := identity_cases accepted (mem_of_type? known)
  have shaped (value : Slot → Json) (order : List Slot) (scalar : ∀ s, IsScalar (value s)) :
      reshape policy (nodeResponse value order) (Table.ofList (t.fields.flatMap t.aliasesOf))
        = .ok (.object (Table.ofList (order.map fun s => (t.called s, value s)))) :=
    reshape_nodeResponse policy _ fun s _ => scalar s
  refine ⟨_, aliasMap_eq known readable, ?_, ?_⟩
  · intro value order answers
    exact ⟨_, shaped value order answers.scalar⟩
  · rw [← TypeDefinition.keepsApart_iff single distinct]
    constructor
    · intro held place mem
      obtain ⟨filled, field⟩ := TypeDefinition.mem_slots_of_mem_places mem
      refine (readsBack_iff t.called filled field place.2 label).1 fun value order => ?_
      intro scalar labelled ordered
      obtain ⟨members, found, reads⟩ := held value order ⟨scalar, labelled, ordered⟩
      rw [shaped value order scalar] at found
      cases found
      exact reads place mem
    · intro apart value order answers
      refine ⟨_, shaped value order answers.scalar, fun place mem => ?_⟩
      obtain ⟨filled, field⟩ := TypeDefinition.mem_slots_of_mem_places mem
      exact (readsBack_iff t.called filled field place.2 label).2 (apart place mem) value order
        answers.scalar answers.labelled answers.ordered

/-- A type with an identity field and two properties, one of them stored under another name. -/
def personType : TypeDefinition :=
  ⟨"Person", .object, [],
    [⟨"_id", ⟨"ID", false, false⟩, [], [⟨"id", []⟩]⟩,
      ⟨"name", ⟨"String", false, false⟩, [], [⟨"alias", [("property", .string "fullName")]⟩]⟩,
      ⟨"age", ⟨"Int", false, false⟩, [], []⟩]⟩

theorem reshape_readsBack_iff_person :
    ∃ index, ofDocument ⟨[personType]⟩ = .ok index ∧ index.type? "Person" = some personType
      ∧ (∀ f ∈ personType.fields, ∃ m, personType.mapping f = .ok m)
      ∧ ((personType.mapped .plain).map (·.stored)).Nodup
      ∧ personType.KeepsApart
      ∧ ∃ aliases, index.aliasMap "Person" = .ok aliases
        ∧ (∀ value order, Answers personType "person" value order →
            ∃ members, reshape .skip (nodeResponse value order) aliases = .ok (.object members))
        ∧ ((∀ value order, Answers personType "person" value order →
              ∃ members, reshape .skip (nodeResponse value order) aliases = .ok (.object members)
                ∧ ∀ place ∈ personType.places,
                    Table.get? members place.2 = some (value place.1))
            ↔ personType.KeepsApart) := by
  have accepted : ofDocument ⟨[personType]⟩ = .ok ⟨⟨[personType]⟩⟩ := rfl
  have known : (⟨⟨[personType]⟩⟩ : Index).type? "Person" = some personType := rfl
  have readable : ∀ f ∈ personType.fields, ∃ m, personType.mapping f = .ok m := by
    intro f mem
    simp only [personType, List.mem_cons, List.not_mem_nil, or_false] at mem
    rcases mem with rfl | rfl | rfl
    · exact ⟨.identity, rfl⟩
    · exact ⟨.plain, rfl⟩
    · exact ⟨.plain, rfl⟩
  have distinct : ((personType.mapped .plain).map (·.stored)).Nodup := by decide
  have apart : personType.KeepsApart := ⟨by decide, by decide⟩
  exact ⟨_, accepted, known, readable, distinct, apart,
    reshape_readsBack_iff accepted known readable distinct .skip "person"⟩

/-- A type with a property that is stored under the key of the label. -/
def labelledType : TypeDefinition :=
  ⟨"Person", .object, [],
    [⟨"_id", ⟨"ID", false, false⟩, [], [⟨"id", []⟩]⟩,
      ⟨"label", ⟨"String", false, false⟩, [], []⟩]⟩

/-- The values of a node whose property is stored where the label is. -/
def labelledValue : Slot → Json
  | .identity => .number (.natural 1)
  | .label => .string "person"
  | .property _ => .string "boss"

/-- A property that is stored under the key of the label is lost, and takes the place of the
label. -/
theorem reshape_labelled :
    ∃ index aliases, ofDocument ⟨[labelledType]⟩ = .ok index
      ∧ index.type? "Person" = some labelledType
      ∧ ((labelledType.mapped .plain).map (·.stored)).Nodup
      ∧ index.aliasMap "Person" = .ok aliases
      ∧ Answers labelledType "person" labelledValue [.identity, .label, .property "label"]
      ∧ (.property "label", "label") ∈ labelledType.places
      ∧ reshape .skip (nodeResponse labelledValue [.identity, .label, .property "label"]) aliases
          = .ok (.object [("_id", .number (.natural 1)), ("type", .string "boss")])
      ∧ ¬ ∃ members, reshape .skip
            (nodeResponse labelledValue [.identity, .label, .property "label"]) aliases
            = .ok (.object members)
          ∧ ∀ place ∈ labelledType.places,
              Table.get? members place.2 = some (labelledValue place.1) := by
  have scalar (s : Slot) : IsScalar (labelledValue s) := by cases s <;> trivial
  have answers : Answers labelledType "person" labelledValue
      [.identity, .label, .property "label"] := ⟨scalar, rfl, .refl _⟩
  have place : (Slot.property "label", "label") ∈ labelledType.places := by decide
  have shaped : reshape .skip
      (nodeResponse labelledValue [.identity, .label, .property "label"])
      [("id", "_id"), ("label", "label")]
      = .ok (.object [("_id", .number (.natural 1)), ("type", .string "boss")]) := rfl
  refine ⟨⟨⟨[labelledType]⟩⟩, [("id", "_id"), ("label", "label")], rfl, rfl, by decide, rfl,
    answers, place, shaped, ?_⟩
  rintro ⟨members, found, reads⟩
  rw [shaped] at found
  cases found
  cases reads _ place

end GraphBridge.Schema.Index
