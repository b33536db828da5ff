import GraphBridge.Graph
import GraphBridge.Json.Basic

/-!
# Operation documents

What the compiler works on: operations with their selections and fragments, in which every variable
has been replaced by its value and excluded selections are gone.
-/

namespace GraphBridge.Operation

/-- A selection: a field, the name of a fragment, or selections under a type condition. -/
inductive Selection where
  | field (given? : Option String) (name : String) (arguments : List (String × Json))
      (selections : List Selection)
  | spread (fragment : String)
  | inlined (condition? : Option String) (selections : List Selection)
  deriving Repr

namespace Selection

/-- Selections behind the first are smaller than all of them. -/
theorem sizeOf_rest_lt (first : Selection) (rest : List Selection) :
    sizeOf rest < sizeOf (first :: rest) := by
  simp only [List.cons.sizeOf_spec]
  omega

/-- Selections inside the first are smaller than all of them. -/
theorem sizeOf_inlined_lt (condition? : Option String) (inner rest : List Selection) :
    sizeOf inner < sizeOf (inlined condition? inner :: rest) := by
  simp only [List.cons.sizeOf_spec, inlined.sizeOf_spec]
  omega

end Selection

/-- A selected field. -/
structure Field where
  /-- The response name that the operation gives it. -/
  given? : Option String
  name : String
  arguments : Table Json
  selections : List Selection
  deriving Repr

namespace Field

/-- The name of a field in the response. -/
def responseKey (f : Field) : String :=
  f.given?.getD f.name

/-- The argument of a name. -/
def argument? (f : Field) (name : String) : Option Json :=
  f.arguments.get? name

end Field

/-- A named fragment. -/
structure FragmentDefinition where
  name : String
  condition : String
  selections : List Selection
  deriving Repr

namespace FragmentDefinition

/-- The fragment of a name. -/
def find? (fragments : List FragmentDefinition) (name : String) : Option FragmentDefinition :=
  List.find? (fun f => f.name == name) fragments

/-- The fragments other than those of a name. -/
def without (fragments : List FragmentDefinition) (name : String) : List FragmentDefinition :=
  fragments.filter fun f => f.name != name

/-- How large the selections of fragments are together. -/
noncomputable def weight (fragments : List FragmentDefinition) : Nat :=
  fragments.foldr (fun f rest => sizeOf f.selections + rest) 0

/-- Leaving out fragments makes the rest no larger. -/
theorem weight_without_le (fragments : List FragmentDefinition) (name : String) :
    weight (without fragments name) ≤ weight fragments := by
  unfold weight without
  induction fragments with
  | nil => exact Nat.le_refl _
  | cons g rest ih =>
      rw [List.filter_cons]
      split <;> simp only [List.foldr_cons] <;> omega

/-- A fragment that is there and the fragments without it are together no larger than all. -/
theorem weight_without_add_le {fragments : List FragmentDefinition} {name : String}
    {f : FragmentDefinition} (h : find? fragments name = some f) :
    weight (without fragments name) + sizeOf f.selections ≤ weight fragments := by
  induction fragments with
  | nil => cases h
  | cons g rest ih =>
      unfold find? at h ih
      rw [List.find?_cons] at h
      cases same : g.name == name with
      | true =>
          rw [same] at h
          obtain rfl := Option.some.inj h
          have le := weight_without_le rest name
          simp only [weight, without, List.filter_cons, bne, same, Bool.not_true,
            Bool.false_eq_true, if_false, List.foldr_cons] at le ⊢
          omega
      | false =>
          rw [same] at h
          have le := ih h
          simp only [weight, without, List.filter_cons, bne, same, Bool.not_false, if_true,
            List.foldr_cons] at le ⊢
          omega

/-- Expanding a fragment where it is unknown from then on takes something away. -/
theorem weight_spread_lt {fragments : List FragmentDefinition} {name : String}
    {f : FragmentDefinition} (h : find? fragments name = some f) (rest : List Selection) :
    weight (without fragments name) + sizeOf f.selections
      < weight fragments + sizeOf (Selection.spread name :: rest) := by
  have le := weight_without_add_le h
  simp only [List.cons.sizeOf_spec]
  omega

end FragmentDefinition

end GraphBridge.Operation

namespace GraphBridge

open Operation in
/-- A query or mutation with the fragments of its document. -/
structure Operation where
  name? : Option String
  kind : OperationKind
  selections : List Selection
  fragments : List FragmentDefinition
  deriving Repr

end GraphBridge

namespace GraphBridge.Operation

/-- The first field among selections, looking through fragments in place. Inside a fragment the
fragment itself is not looked into again. -/
def firstField? (fragments : List FragmentDefinition) : List Selection → Option Field
  | [] => none
  | .field given? name arguments selections :: _ => some ⟨given?, name, arguments, selections⟩
  | .spread name :: rest =>
      match _found : FragmentDefinition.find? fragments name with
      | some f =>
          match firstField? (FragmentDefinition.without fragments name) f.selections with
          | some field => some field
          | none => firstField? fragments rest
      | none => firstField? fragments rest
  | .inlined _ selections :: rest =>
      match firstField? fragments selections with
      | some field => some field
      | none => firstField? fragments rest
termination_by selections => FragmentDefinition.weight fragments + sizeOf selections
decreasing_by
  · exact FragmentDefinition.weight_spread_lt _found rest
  · exact Nat.add_lt_add_left (Selection.sizeOf_rest_lt _ _) _
  · exact Nat.add_lt_add_left (Selection.sizeOf_rest_lt _ _) _
  · exact Nat.add_lt_add_left (Selection.sizeOf_inlined_lt _ _ _) _
  · exact Nat.add_lt_add_left (Selection.sizeOf_rest_lt _ _) _

/-- The root field of an operation: the first one it selects. -/
def rootField? (o : Operation) : Option Field :=
  firstField? o.fragments o.selections

/-- The operations of a document, sorted by name. -/
structure Document where
  operations : List Operation
  deriving Repr

namespace Document

/-- The operation of a name, or the first one if no name is given. -/
def operation? (d : Document) : Option String → Option Operation
  | some name => d.operations.find? fun o => o.name? == some name
  | none => d.operations.head?

end Document

end GraphBridge.Operation
