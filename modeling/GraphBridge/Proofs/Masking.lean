import GraphBridge.Proofs.Plain
import Mathlib.Logic.Function.Basic

/-!
# Values behind a mask

Of a value that an operation supplies, compiling sees whether it is null, whether it is a natural
number, whether it is an object and which members it has, and whether it equals another value. A
mask is a change of values that keeps all of this. Compiling a document whose values wear a mask
comes to the same statement, with the mask on the values of its parameters; this holds of every step
on the way, from collecting fields to binding parameters. Changing strings one to one is a mask, so
no string of an operation ever gets into the text of a statement.
-/

namespace GraphBridge

/-! ## Masks -/

namespace Table

variable {α β : Type}

/-- A table with its values changed. -/
def mapValues (change : α → β) (table : Table α) : Table β :=
  table.map fun entry => (entry.1, change entry.2)

theorem get?_mapValues (change : α → β) (table : Table α) (key : String) :
    (table.mapValues change).get? key = (table.get? key).map change := by
  induction table with
  | nil => rfl
  | cons entry rest ih =>
      unfold mapValues at ih ⊢
      rw [List.map_cons, get?, get?, ih]
      split <;> rfl

end Table

namespace Json

/-- A change of values that keeps what compiling sees of them. -/
structure IsMask (mask : Json → Json) : Prop where
  isNull (value : Json) : (mask value).isNull = value.isNull
  isObject (value : Json) : (mask value).isObject = value.isObject
  natural? (value : Json) : (mask value).natural? = value.natural?
  object (members : Table Json) : mask (.object members) = .object (members.mapValues mask)
  same (value other : Json) : (mask value).same (mask other) = value.same other

namespace IsMask

variable {mask : Json → Json} (masks : IsMask mask)
include masks

theorem null : mask .null = .null := by
  have same := masks.isNull .null
  generalize mask .null = masked at same
  cases masked with
  | null => rfl
  | _ => cases same

theorem object? (value : Json) : (mask value).object? = value.object?.map (·.mapValues mask) := by
  have kept := masks.isObject value
  cases value with
  | object members => rw [masks.object]; rfl
  | _ =>
      generalize mask _ = masked at kept
      cases masked with
      | object members => cases kept
      | _ => rfl

theorem member? (value : Json) (name : String) :
    (mask value).member? name = (value.member? name).map mask := by
  unfold Json.member?
  rw [masks.object?]
  cases value.object? with
  | none => rfl
  | some members => exact Table.get?_mapValues mask members name

end IsMask

mutual

/-- A value with its strings changed, at any depth; the names of members are kept. -/
def mapStrings (change : String → String) : Json → Json
  | .string value => .string (change value)
  | .array items => .array (mapItems change items)
  | .object members => .object (mapMembers change members)
  | value => value

/-- Items with their strings changed. -/
def mapItems (change : String → String) : List Json → List Json
  | [] => []
  | item :: rest => mapStrings change item :: mapItems change rest

/-- Members with the strings of their values changed. -/
def mapMembers (change : String → String) : List (String × Json) → List (String × Json)
  | [] => []
  | (name, value) :: rest => (name, mapStrings change value) :: mapMembers change rest

end

theorem mapMembers_eq (change : String → String) (members : Table Json) :
    mapMembers change members = members.mapValues (mapStrings change) := by
  induction members with
  | nil => rfl
  | cons entry rest ih => rw [mapMembers, ih]; rfl

section Strings

variable {change : String → String}

mutual

/-- Strings that are changed one to one are as equal as before. -/
theorem same_mapStrings (injective : Function.Injective change) : ∀ a b : Json,
    (a.mapStrings change).same (b.mapStrings change) = a.same b
  | .null, b => by cases b <;> simp [mapStrings, same]
  | .bool _, b => by cases b <;> simp [mapStrings, same]
  | .number _, b => by cases b <;> simp [mapStrings, same]
  | .string _, b => by cases b <;> simp [mapStrings, same, injective.eq_iff]
  | .array items, b => by
      cases b with
      | array others => simpa [mapStrings, same] using sameItems_mapItems injective items others
      | _ => simp [mapStrings, same]
  | .object members, b => by
      cases b with
      | object others =>
          rw [mapStrings, mapStrings, same, same, sameMembers_mapMembers injective members others,
            mapMembers_eq, mapMembers_eq, Table.mapValues, Table.mapValues, List.length_map,
            List.length_map]
      | _ => simp [mapStrings, same]

theorem sameItems_mapItems (injective : Function.Injective change) : ∀ as bs : List Json,
    sameItems (mapItems change as) (mapItems change bs) = sameItems as bs
  | [], bs => by cases bs <;> simp [mapItems, sameItems]
  | a :: as, [] => by simp [mapItems, sameItems]
  | a :: as, b :: bs => by
      simp [mapItems, sameItems, same_mapStrings injective a b, sameItems_mapItems injective as bs]

theorem sameMembers_mapMembers (injective : Function.Injective change) :
    ∀ (members : List (String × Json)) (others : Table Json),
      sameMembers (mapMembers change members) (mapMembers change others)
        = sameMembers members others
  | [], _ => by simp [mapMembers, sameMembers]
  | (name, a) :: rest, others => by
      rw [mapMembers, sameMembers, sameMembers, sameMembers_mapMembers injective rest others,
        mapMembers_eq, Table.get?_mapValues]
      cases Table.get? others name with
      | none => rfl
      | some b => rw [Option.map_some]; dsimp only; rw [same_mapStrings injective a b]

end

/-- Changing strings one to one is a mask. -/
theorem isMask_mapStrings (injective : Function.Injective change) : IsMask (mapStrings change) where
  isNull value := by cases value <;> simp [mapStrings, isNull]
  isObject value := by cases value <;> simp [mapStrings, isObject]
  natural? value := by cases value <;> simp [mapStrings, natural?]
  object members := by rw [mapStrings, mapMembers_eq]
  same := same_mapStrings injective

end Strings

end Json

/-! ## Documents with changed values -/

namespace Operation

mutual

/-- A selection with the values of all arguments changed. -/
def Selection.mapValues (mask : Json → Json) : Selection → Selection
  | .field given? name arguments inner =>
      .field given? name (Table.mapValues mask arguments) (Selection.mapAll mask inner)
  | .spread fragment => .spread fragment
  | .inlined condition? inner => .inlined condition? (Selection.mapAll mask inner)

/-- Selections with the values of all arguments changed. -/
def Selection.mapAll (mask : Json → Json) : List Selection → List Selection
  | [] => []
  | s :: rest => s.mapValues mask :: Selection.mapAll mask rest

end

theorem Selection.mapAll_eq (mask : Json → Json) (selections : List Selection) :
    Selection.mapAll mask selections = selections.map (Selection.mapValues mask) := by
  induction selections with
  | nil => rfl
  | cons s rest ih => rw [Selection.mapAll, ih]; rfl

theorem Selection.mapAll_append (mask : Json → Json) (first second : List Selection) :
    Selection.mapAll mask (first ++ second)
      = Selection.mapAll mask first ++ Selection.mapAll mask second := by
  simp only [Selection.mapAll_eq, List.map_append]

theorem Selection.isEmpty_mapAll (mask : Json → Json) (selections : List Selection) :
    (Selection.mapAll mask selections).isEmpty = selections.isEmpty := by
  cases selections <;> rfl

/-- A field with the values of all arguments changed. -/
def Field.mapValues (mask : Json → Json) (f : Field) : Field :=
  ⟨f.given?, f.name, f.arguments.mapValues mask, Selection.mapAll mask f.selections⟩

theorem Field.argument?_mapValues (mask : Json → Json) (f : Field) (name : String) :
    (f.mapValues mask).argument? name = (f.argument? name).map mask :=
  Table.get?_mapValues mask f.arguments name

namespace FragmentDefinition

/-- A fragment with the values of all arguments changed. -/
def mapValues (mask : Json → Json) (f : FragmentDefinition) : FragmentDefinition :=
  { f with selections := Selection.mapAll mask f.selections }

theorem find?_mapValues (mask : Json → Json) (fragments : List FragmentDefinition)
    (name : String) :
    find? (fragments.map (mapValues mask)) name = (find? fragments name).map (mapValues mask) := by
  unfold find?
  rw [List.find?_map]
  rfl

theorem without_mapValues (mask : Json → Json) (fragments : List FragmentDefinition)
    (name : String) :
    without (fragments.map (mapValues mask)) name
      = (without fragments name).map (mapValues mask) := by
  unfold without
  rw [List.filter_map]
  rfl

end FragmentDefinition

/-- The first field of a fragment, or else of what stands behind its name. -/
theorem firstField?_spread (fragments : List FragmentDefinition) (name : String)
    (rest : List Selection) :
    firstField? fragments (.spread name :: rest)
      = (((FragmentDefinition.find? fragments name).bind fun f =>
          firstField? (FragmentDefinition.without fragments name) f.selections)
        <|> firstField? fragments rest) := by
  rw [firstField?]
  split
  · rename_i f found
    rw [found, Option.bind_some]
    split
    · rename_i first
      rw [first]
      rfl
    · rename_i nothing
      rw [nothing]
      rfl
  · rename_i missing
    rw [missing]
    rfl

theorem firstField?_inlined (fragments : List FragmentDefinition) (condition? : Option String)
    (inner rest : List Selection) :
    firstField? fragments (.inlined condition? inner :: rest)
      = (firstField? fragments inner <|> firstField? fragments rest) := by
  rw [firstField?]
  cases firstField? fragments inner <;> rfl

/-- Which field is the first does not depend on values. -/
theorem firstField?_mapValues (mask : Json → Json) (fragments : List FragmentDefinition)
    (selections : List Selection) :
    firstField? (fragments.map (FragmentDefinition.mapValues mask))
        (Selection.mapAll mask selections)
      = (firstField? fragments selections).map (Field.mapValues mask) := by
  fun_induction firstField? fragments selections with
  | case1 fragments => rw [Selection.mapAll, firstField?]; rfl
  | case2 fragments given? name arguments inner rest =>
      rw [Selection.mapAll, Selection.mapValues, firstField?]
      rfl
  | case3 fragments name rest f found field first ih =>
      rw [Selection.mapAll, Selection.mapValues, firstField?_spread,
        FragmentDefinition.find?_mapValues, found, Option.map_some, Option.bind_some,
        FragmentDefinition.without_mapValues, FragmentDefinition.mapValues, ih, first]
      rfl
  | case4 fragments name rest f found nothing ihInner ih =>
      rw [Selection.mapAll, Selection.mapValues, firstField?_spread,
        FragmentDefinition.find?_mapValues, found, Option.map_some, Option.bind_some,
        FragmentDefinition.without_mapValues, FragmentDefinition.mapValues, ihInner, nothing, ih]
      rfl
  | case5 fragments name rest missing ih =>
      rw [Selection.mapAll, Selection.mapValues, firstField?_spread,
        FragmentDefinition.find?_mapValues, missing, ih]
      rfl
  | case6 fragments condition? inner rest field first ih =>
      rw [Selection.mapAll, Selection.mapValues, firstField?_inlined, ih, first]
      rfl
  | case7 fragments condition? inner rest nothing ihInner ih =>
      rw [Selection.mapAll, Selection.mapValues, firstField?_inlined, ihInner, nothing, ih]
      rfl

end Operation

/-- An operation with the values of all arguments changed. -/
def Operation.mapValues (mask : Json → Json) (o : Operation) : Operation :=
  { o with
    selections := Operation.Selection.mapAll mask o.selections
    fragments := o.fragments.map (Operation.FragmentDefinition.mapValues mask) }

/-- A document with the values of all arguments changed. -/
def Operation.Document.mapValues (mask : Json → Json) (d : Operation.Document) :
    Operation.Document :=
  ⟨d.operations.map (Operation.mapValues mask)⟩

/-! ## Statements with changed values -/

namespace Statement

/-- A supplied value, changed. -/
def Supplied.mapValues (mask : Json → Json) (s : Supplied) : Supplied :=
  { s with value := mask s.value }

theorem Supplied.ofInput_mapValues {mask : Json → Json} (masks : Json.IsMask mask)
    (declared : List Schema.ArgumentDescriptor) (members : Table Json) :
    Supplied.ofInput declared (members.mapValues mask)
      = (Supplied.ofInput declared members).map (Supplied.mapValues mask) := by
  unfold Supplied.ofInput Table.mapValues
  rw [List.filter_map, List.map_map, List.map_map]
  simp only [Function.comp_def, masks.isNull]
  rfl

/-- A reference to a changed value. -/
def Reference.mapValues (mask : Json → Json) (r : Reference) : Reference :=
  { r with supplied := r.supplied.mapValues mask }

theorem Reference.propertyMap_mapValues (mask : Json → Json) (properties : List Reference) :
    Reference.propertyMap (properties.map (Reference.mapValues mask))
      = Reference.propertyMap properties := by
  unfold Reference.propertyMap
  rw [List.isEmpty_map, List.map_map]
  rfl

/-- Conditions on changed values. -/
def Filter.mapValues (mask : Json → Json) (f : Filter) : Filter :=
  ⟨f.properties.map (Reference.mapValues mask), f.identities.map (Reference.mapValues mask)⟩

theorem Filter.identityText_mapValues (mask : Json → Json) (f : Filter) (name : String) :
    (f.mapValues mask).identityText name = f.identityText name := by
  unfold Filter.identityText Filter.mapValues
  dsimp only
  rw [List.isEmpty_map, List.map_map]
  rfl

/-- The pattern of a node with conditions on changed values. -/
def NodePattern.mapValues (mask : Json → Json) (n : NodePattern) : NodePattern :=
  { n with filter := n.filter.mapValues mask }

theorem NodePattern.text_mapValues (mask : Json → Json) (n : NodePattern) :
    (n.mapValues mask).text = n.text := by
  unfold NodePattern.text
  rw [show (n.mapValues mask).filter.propertyText = n.filter.propertyText from
    Reference.propertyMap_mapValues mask n.filter.properties]
  rfl

theorem NodePattern.identityText_mapValues (mask : Json → Json) (n : NodePattern) :
    (n.mapValues mask).identityText = n.identityText :=
  Filter.identityText_mapValues mask n.filter n.name

/-- What identifies an edge, with changed values. -/
def EdgeKey.mapValues (mask : Json → Json) : EdgeKey → EdgeKey
  | .ends source target => .ends (source.mapValues mask) (target.mapValues mask)
  | .own id => .own (id.mapValues mask)

/-- A clause that refers to changed values. -/
def Clause.mapValues (mask : Json → Json) : Clause → Clause
  | .find node => .find (node.mapValues mask)
  | .reach parent edge node => .reach parent edge (node.mapValues mask)
  | .createNode name label properties =>
      .createNode name label (properties.map (Reference.mapValues mask))
  | .findNode name id => .findNode name (id.mapValues mask)
  | .set name properties => .set name (properties.map (Reference.mapValues mask))
  | .findEnds edge source target => .findEnds edge (source.mapValues mask) (target.mapValues mask)
  | .createEdge name label properties =>
      .createEdge name label (properties.map (Reference.mapValues mask))
  | .findEdge name label key => .findEdge name label (key.mapValues mask)
  | clause => clause

/-- A clause is written without the values that it refers to. -/
theorem Clause.text_mapValues (mask : Json → Json) (c : Clause) :
    (c.mapValues mask).text = c.text := by
  unfold Clause.text Clause.mapValues
  cases c with
  | find node =>
      dsimp only
      rw [NodePattern.text_mapValues, NodePattern.identityText_mapValues]
  | reach parent edge node =>
      dsimp only
      rw [NodePattern.text_mapValues, NodePattern.identityText_mapValues]
  | createNode name label properties =>
      dsimp only
      rw [Reference.propertyMap_mapValues, List.isEmpty_map]
  | createEdge name label properties =>
      dsimp only
      rw [Reference.propertyMap_mapValues]
  | set name properties =>
      have written : Reference.assignmentText name ∘ Reference.mapValues mask
          = Reference.assignmentText name := rfl
      dsimp only
      rw [List.map_map, written]
  | findEdge name label key => cases key <;> rfl
  | _ => rfl

namespace Builder

/-- A statement that refers to changed values and binds them. -/
def mapValues (mask : Json → Json) (b : Builder) : Builder :=
  { b with
    clauses := b.clauses.map (Clause.mapValues mask)
    parameters := b.parameters.mapValues mask }

variable (mask : Json → Json) (b : Builder)

theorem mapValues_empty : ({} : Builder).mapValues mask = {} := rfl

theorem addClause_mapValues (clause : Clause) :
    (b.mapValues mask).addClause (clause.mapValues mask) = (b.addClause clause).mapValues mask := by
  simp [addClause, mapValues]

theorem insertClause_mapValues (place : Nat) (clause : Clause) :
    (b.mapValues mask).insertClause place (clause.mapValues mask)
      = (b.insertClause place clause).mapValues mask := by
  simp [insertClause, mapValues]

theorem bindScope_mapValues (name : String) :
    (b.mapValues mask).bindScope name = (b.bindScope name).mapValues mask := by
  unfold bindScope
  rw [apply_ite (mapValues mask)]
  rfl

theorem openFrame_mapValues (carryOver : String) (closing : Closing) :
    (b.mapValues mask).openFrame carryOver closing
      = (b.openFrame carryOver closing).mapValues mask := by
  let opened : Builder := { b with frames := b.frames ++ [⟨carryOver, [], closing⟩] }
  exact bindScope_mapValues mask opened carryOver

theorem clauses_text_mapValues :
    (b.mapValues mask).clauses.map Clause.text = b.clauses.map Clause.text := by
  simp only [mapValues, List.map_map]
  exact List.map_congr_left fun c _ => Clause.text_mapValues mask c

theorem text_mapValues : (b.mapValues mask).text = b.text := by
  unfold text lines
  rw [clauses_text_mapValues]
  rfl

theorem textReturning_mapValues (expression : Expression) :
    (b.mapValues mask).textReturning expression = b.textReturning expression := by
  unfold textReturning
  rw [clauses_text_mapValues]

variable {mask} (masks : Json.IsMask mask)
include masks

theorem accepts_mapValues (name : String) (value : Json) :
    (b.mapValues mask).accepts name (mask value) = b.accepts name value := by
  unfold accepts mapValues
  dsimp only
  rw [Table.get?_mapValues]
  cases b.parameters.get? name with
  | none => rfl
  | some bound => exact masks.same bound value

theorem parameterName_mapValues (name : String) (value : Json) :
    (b.mapValues mask).parameterName name (mask value) = b.parameterName name value := by
  have length : (b.mapValues mask).parameters.length = b.parameters.length := List.length_map _
  simp only [parameterName, length, b.accepts_mapValues masks]

/-- A masked value is bound under the same name. -/
theorem bindParameter_mapValues (name : String) (value : Json) :
    (b.mapValues mask).bindParameter name (mask value)
      = ((b.bindParameter name value).1, (b.bindParameter name value).2.mapValues mask) := by
  unfold bindParameter
  dsimp only
  rw [b.parameterName_mapValues masks, show (b.mapValues mask).parameters.get? _ = _ from
    Table.get?_mapValues mask b.parameters _]
  cases b.parameters.get? (b.parameterName name value) with
  | some bound => rfl
  | none => simp [mapValues, Table.mapValues]

theorem refer_mapValues (name : String) (s : Supplied) :
    (b.mapValues mask).refer name (s.mapValues mask)
      = ((b.refer name s).1.mapValues mask, (b.refer name s).2.mapValues mask) := by
  unfold refer
  rw [show (s.mapValues mask).value = mask s.value from rfl, b.bindParameter_mapValues masks]
  rfl

theorem referAll_mapValues (path : String) (supplied : List Supplied) :
    (b.mapValues mask).referAll path (supplied.map (Supplied.mapValues mask))
      = ((b.referAll path supplied).1.map (Reference.mapValues mask),
          (b.referAll path supplied).2.mapValues mask) := by
  induction supplied generalizing b with
  | nil => rfl
  | cons s rest ih =>
      rw [List.map_cons, referAll, show (s.mapValues mask).name = s.name from rfl,
        b.refer_mapValues masks]
      dsimp only
      rw [ih]
      rfl

end Builder

end Statement

end GraphBridge
