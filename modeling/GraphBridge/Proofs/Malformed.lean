import GraphBridge.Response.Reshape

/-!
# Malformed elements

An element of a list result is well formed if it is a map all of whose keys can serve as keys. Each
element becomes an object of the answer or has a fault of its own, whatever stands beside it. So
the policy decides about the faults alone: skipping gives the objects of the well-formed elements,
and failing gives the same or names the first element that is not well formed.
-/

namespace GraphBridge.Response

namespace Typed

/-- Whether an element is a map with keys that can all serve as keys. -/
def isWellFormed : Typed → Bool
  | .map entries => entries.all fun entry => entry.1.key?.isSome
  | _ => false

/-- The entries of a map. -/
def entries : Typed → List (Typed × Typed)
  | .map entries => entries
  | _ => []

/-- What is wrong with an element, if anything is: it is no map, or it has a key that cannot serve
as one. -/
def elementFault? : Typed → Option ElementFault
  | .map entries =>
      (entries.find? fun entry => entry.1.key?.isNone).map fun entry =>
        .keyNotAString entry.1.toJson.compact
  | other => some (.notAMap other.toJson.compact)

/-- An element is well formed if and only if nothing is wrong with it. -/
theorem isWellFormed_iff (element : Typed) :
    element.isWellFormed = true ↔ element.elementFault? = none := by
  cases element with
  | map entries => simp [isWellFormed, elementFault?, Option.isSome_iff_ne_none]
  | scalar | token | list => simp [isWellFormed, elementFault?]

end Typed

/-- The object of the answer for the entries of an element: each entry under the name that its key
has in the answer. -/
def answerOf (aliases : Table String) (element : Typed) : Json :=
  .object (Table.ofList (element.entries.filterMap fun (key, value) =>
    key.key?.map fun stored => (fieldName aliases stored, value.toJson)))

section Elements

variable (aliases : Table String)

/-! ## One element -/

/-- Reshaping the entries of a map stops at the first key that cannot serve as one. -/
theorem shapeMembers_eq (entries : List (Typed × Typed)) :
    shapeMembers aliases entries
      = match entries.find? fun entry => entry.1.key?.isNone with
        | some entry => .error (.invalidKey entry.1.toJson.compact)
        | none => .ok (entries.filterMap fun (key, value) =>
            key.key?.map fun stored => (fieldName aliases stored, value.toJson)) := by
  induction entries with
  | nil => rfl
  | cons entry rest ih =>
      obtain ⟨key, value⟩ := entry
      rw [shapeMembers]
      cases named : key.key? with
      | none => simp [named]
      | some stored =>
          dsimp only
          rw [ih, List.find?_cons_of_neg (by simp [named]), List.filterMap_cons]
          dsimp only
          rw [named]
          cases rest.find? fun entry => entry.1.key?.isNone with
          | none => rfl
          | some entry => rfl

/-- An element becomes its object, or its fault is reported with its place. -/
theorem shapeElement_eq (place : Nat) (element : Typed) :
    shapeElement aliases place element
      = match element.elementFault? with
        | some fault => .error (.malformedElement place fault)
        | none => .ok (answerOf aliases element) := by
  cases element with
  | map entries =>
      rw [shapeElement, shapeObject, shapeMembers_eq, Typed.elementFault?]
      cases entries.find? fun entry => entry.1.key?.isNone with
      | none => rfl
      | some entry => rfl
  | scalar | token | list => rfl

theorem shapeElement_of_isWellFormed {element : Typed} (sound : element.isWellFormed = true)
    (place : Nat) : shapeElement aliases place element = .ok (answerOf aliases element) := by
  rw [shapeElement_eq, (Typed.isWellFormed_iff element).1 sound]

theorem shapeElement_of_malformed {element : Typed} (faulty : element.isWellFormed = false) :
    ∃ fault, element.elementFault? = some fault
      ∧ ∀ place, shapeElement aliases place element = .error (.malformedElement place fault) := by
  cases found : element.elementFault? with
  | none => simp [(Typed.isWellFormed_iff element).2 found] at faulty
  | some fault =>
      refine ⟨fault, rfl, fun place => ?_⟩
      rw [shapeElement_eq, found]

/-! ## All elements -/

/-- A well-formed element adds its object, whatever the policy is. -/
theorem shapeElements_cons_of_isWellFormed (policy : MalformedPolicy) (place : Nat)
    {element : Typed} (sound : element.isWellFormed = true) (rest : List Typed) :
    shapeElements policy aliases place (element :: rest)
      = (shapeElements policy aliases (place + 1) rest).map (answerOf aliases element :: ·) := by
  rw [shapeElements.eq_def]
  dsimp only
  rw [shapeElement_of_isWellFormed aliases sound]
  dsimp only
  cases shapeElements policy aliases (place + 1) rest <;> rfl

/-- A malformed element adds nothing, or fails the whole. -/
theorem shapeElements_cons_of_malformed (place : Nat) {element : Typed}
    (faulty : element.isWellFormed = false) (rest : List Typed) :
    shapeElements .skip aliases place (element :: rest)
        = shapeElements .skip aliases (place + 1) rest
      ∧ ∃ fault, element.elementFault? = some fault
        ∧ shapeElements .fail aliases place (element :: rest)
            = .error (.malformedElement place fault) := by
  obtain ⟨fault, found, failed⟩ := shapeElement_of_malformed aliases faulty
  constructor
  · rw [shapeElements.eq_def]
    dsimp only
    rw [failed]
  · refine ⟨fault, found, ?_⟩
    rw [shapeElements.eq_def]
    dsimp only
    rw [failed]

/-- Skipping gives the objects of the well-formed elements in their order. -/
theorem shapeElements_skip (place : Nat) (elements : List Typed) :
    shapeElements .skip aliases place elements
      = .ok ((elements.filter Typed.isWellFormed).map (answerOf aliases)) := by
  induction elements generalizing place with
  | nil => rfl
  | cons element rest ih =>
      cases sound : element.isWellFormed with
      | true =>
          rw [shapeElements_cons_of_isWellFormed aliases .skip place sound, ih,
            List.filter_cons_of_pos sound]
          rfl
      | false =>
          rw [(shapeElements_cons_of_malformed aliases place sound rest).1, ih,
            List.filter_cons_of_neg (by simp [sound])]

/-- Failing goes on behind well-formed elements. -/
theorem shapeElements_fail_append (place : Nat) {before : List Typed}
    (sound : ∀ element ∈ before, element.isWellFormed = true) (elements : List Typed) :
    shapeElements .fail aliases place (before ++ elements)
      = (shapeElements .fail aliases (place + before.length) elements).map fun answers =>
          before.map (answerOf aliases) ++ answers := by
  induction before generalizing place with
  | nil =>
      rw [List.nil_append, List.length_nil, Nat.add_zero]
      cases shapeElements .fail aliases place elements <;> rfl
  | cons element rest ih =>
      obtain ⟨own, others⟩ := List.forall_mem_cons.1 sound
      have behind : place + 1 + rest.length = place + (element :: rest).length := by
        rw [List.length_cons]
        omega
      rw [List.cons_append, shapeElements_cons_of_isWellFormed aliases .fail place own,
        ih (place + 1) others, behind]
      cases shapeElements .fail aliases (place + (element :: rest).length) elements <;> rfl

/-- Without a malformed element failing gives the objects of all elements. -/
theorem shapeElements_fail_of_sound (place : Nat) {elements : List Typed}
    (sound : ∀ element ∈ elements, element.isWellFormed = true) :
    shapeElements .fail aliases place elements = .ok (elements.map (answerOf aliases)) := by
  have all := shapeElements_fail_append aliases place sound []
  rw [List.append_nil] at all
  rw [all, shapeElements]
  simp [Except.map]

/-- The first malformed element fails the whole. -/
theorem shapeElements_fail_of_malformed (place : Nat) {before : List Typed}
    (sound : ∀ element ∈ before, element.isWellFormed = true) {element : Typed}
    (faulty : element.isWellFormed = false) (after : List Typed) :
    ∃ fault, element.elementFault? = some fault
      ∧ shapeElements .fail aliases place (before ++ element :: after)
          = .error (.malformedElement (place + before.length) fault) := by
  obtain ⟨fault, found, failed⟩ :=
    (shapeElements_cons_of_malformed aliases (place + before.length) faulty after).2
  refine ⟨fault, found, ?_⟩
  rw [shapeElements_fail_append aliases place sound, failed]
  rfl

/-- Elements that are not all well formed have a first one that is not. -/
theorem exists_first_malformed {elements : List Typed}
    (faulty : ¬ ∀ element ∈ elements, element.isWellFormed = true) :
    ∃ before element after, elements = before ++ element :: after
      ∧ (∀ earlier ∈ before, earlier.isWellFormed = true) ∧ element.isWellFormed = false := by
  cases found : elements.find? fun element => !element.isWellFormed with
  | none =>
      refine absurd (fun element mem => ?_) faulty
      simpa using List.find?_eq_none.1 found element mem
  | some element =>
      obtain ⟨malformed, before, after, parts, sound⟩ := List.find?_eq_some_iff_append.1 found
      refine ⟨before, element, after, parts, fun earlier mem => ?_, by simpa using malformed⟩
      simpa using sound earlier mem

end Elements

/-! ## List results -/

/-- The elements of a list result: several top-level elements of which the first is a map, or the
items of a list that is the only top-level element. -/
inductive ListResult : List Typed → List Typed → Prop where
  | rows (first : List (Typed × Typed)) (second : Typed) (rest : List Typed) :
      ListResult (.map first :: second :: rest) (.map first :: second :: rest)
  | items (items : List Typed) : ListResult [.list items] items

theorem ListResult.shapeEnvelope {top elements : List Typed} (list : ListResult top elements)
    (policy : MalformedPolicy) (aliases : Table String) :
    shapeEnvelope policy aliases top
      = (shapeElements policy aliases 0 elements).map Json.array := by
  cases list with
  | rows first second rest => rw [Response.shapeEnvelope]; simp
  | items items => rw [Response.shapeEnvelope]

theorem ListResult.reshape {response : Json} {top elements : List Typed}
    (decoded : Typed.decode (envelopeOf response) = .ok (.list top))
    (list : ListResult top elements) (policy : MalformedPolicy) (aliases : Table String) :
    reshape policy response aliases
      = ((shapeElements policy aliases 0 elements).map Json.array).mapError Error.reshape := by
  unfold Response.reshape
  dsimp only
  rw [decoded]
  dsimp only
  rw [list.shapeEnvelope]

/-- A response body around a response. -/
def responseBody (response : Json) : Json :=
  .object [("result", .object [("data", response)])]

/-- A response body around a response has the envelope of the response. -/
theorem envelopeOf_responseBody {response : Json}
    (bare : (response.member? "result").bind (·.member? "data") = none) :
    envelopeOf (responseBody response) = envelopeOf response := by
  have inner : envelopeOf response = response := by rw [envelopeOf, bare, Option.getD_none]
  rw [inner]
  rfl

/-- What the policy does about malformed elements. A list result whose malformed elements are
skipped is reshaped to the array of the objects of its well-formed elements. If malformed elements
fail, it is reshaped if and only if all elements are well formed, and then to the array of all their
objects; otherwise the first malformed element is reported with its place and its fault. And a
response body makes no difference to the response inside. -/
theorem reshape_malformed (aliases : Table String) :
    (∀ (response : Json) (top elements : List Typed),
        Typed.decode (envelopeOf response) = .ok (.list top) → ListResult top elements →
        reshape .skip response aliases
            = .ok (.array ((elements.filter Typed.isWellFormed).map (answerOf aliases)))
          ∧ (∀ answer, reshape .fail response aliases = .ok answer
              ↔ (∀ element ∈ elements, element.isWellFormed = true)
                ∧ answer = .array (elements.map (answerOf aliases)))
          ∧ ∀ before element after, elements = before ++ element :: after →
              (∀ earlier ∈ before, earlier.isWellFormed = true) →
              element.isWellFormed = false →
              ∃ fault, element.elementFault? = some fault
                ∧ reshape .fail response aliases
                    = .error (.reshape (.malformedElement before.length fault)))
      ∧ ∀ (policy : MalformedPolicy) (response : Json),
          (response.member? "result").bind (·.member? "data") = none →
          reshape policy (responseBody response) aliases = reshape policy response aliases := by
  refine ⟨fun response top elements decoded list => ?_, fun policy response bare => ?_⟩
  · have shaped := list.reshape decoded
    have first : ∀ before element after, elements = before ++ element :: after →
        (∀ earlier ∈ before, earlier.isWellFormed = true) → element.isWellFormed = false →
        ∃ fault, element.elementFault? = some fault
          ∧ reshape .fail response aliases
              = .error (.reshape (.malformedElement before.length fault)) := by
      intro before element after parts sound faulty
      obtain ⟨fault, found, failed⟩ :=
        shapeElements_fail_of_malformed aliases 0 sound faulty after
      refine ⟨fault, found, ?_⟩
      rw [shaped, parts, failed, Nat.zero_add]
      rfl
    refine ⟨?_, fun answer => ⟨fun done => ?_, ?_⟩, first⟩
    · rw [shaped, shapeElements_skip]
      rfl
    · by_cases sound : ∀ element ∈ elements, element.isWellFormed = true
      · rw [shaped, shapeElements_fail_of_sound aliases 0 sound] at done
        cases done
        exact ⟨sound, rfl⟩
      · obtain ⟨before, element, after, parts, sound, faulty⟩ := exists_first_malformed sound
        obtain ⟨fault, -, failed⟩ := first before element after parts sound faulty
        rw [failed] at done
        cases done
    · rintro ⟨sound, rfl⟩
      rw [shaped, shapeElements_fail_of_sound aliases 0 sound]
      rfl
  · unfold reshape
    rw [envelopeOf_responseBody bare]

/-- A map that stores a full name, as it is sent. -/
def sentPerson (name : String) : Json :=
  .object [("@type", .string "g:Map"), ("@value", .array [.string "fullName", .string name])]

/-- A map that stores a full name, as it is read. -/
def readPerson (name : String) : Typed :=
  .map [(.scalar (.string "fullName"), .scalar (.string name))]

/-- Two persons with a string and a map under a list between them. -/
def strayResponse : Json :=
  .object [("@type", .string "g:List"), ("@value", .array [.array [sentPerson "Ann",
    .string "stray", .object [("@type", .string "g:Map"), ("@value", .array [.array [], .null])],
    sentPerson "Bo"]])]

theorem reshape_malformed_stray :
    ∃ elements, Typed.decode (envelopeOf strayResponse) = .ok (.list [.list elements])
      ∧ ListResult [.list elements] elements
      ∧ (strayResponse.member? "result").bind (·.member? "data") = none
      ∧ reshape .skip (responseBody strayResponse) [("fullName", "name")]
          = .ok (.array [.object [("name", .string "Ann")], .object [("name", .string "Bo")]])
      ∧ ∃ fault, reshape .fail (responseBody strayResponse) [("fullName", "name")]
          = .error (.reshape (.malformedElement 1 fault)) := by
  have decoded : Typed.decode (envelopeOf strayResponse)
      = .ok (.list [.list [readPerson "Ann", .scalar (.string "stray"),
        .map [(.list [], .scalar .null)], readPerson "Bo"]]) := rfl
  have bare : (strayResponse.member? "result").bind (·.member? "data") = none := rfl
  have list := ListResult.items [readPerson "Ann", .scalar (.string "stray"),
    .map [(.list [], .scalar .null)], readPerson "Bo"]
  obtain ⟨lists, bodies⟩ := reshape_malformed [("fullName", "name")]
  obtain ⟨skipped, -, failed⟩ := lists _ _ _ decoded list
  obtain ⟨fault, -, stopped⟩ := failed [readPerson "Ann"] (.scalar (.string "stray")) _ rfl
    (by simp [readPerson, Typed.isWellFormed, Typed.key?]) rfl
  refine ⟨_, decoded, list, bare, ?_, fault, ?_⟩
  · rw [bodies .skip strayResponse bare, skipped]
    rfl
  · rw [bodies .fail strayResponse bare, stopped]
    rfl

end GraphBridge.Response
