import GraphBridge.Error
import GraphBridge.Operation.Document

/-!
# The fields of a selection

Fragments whose type condition fits are put in place of their name, and fields of one response key
are merged into the first of them, with their selections one after the other. Inside a fragment the
fragment itself is unknown, so that the expansion ends.
-/

namespace GraphBridge.Compile

open Operation

/-- The fields of selections on a type, fragments expanded in place. -/
def collectFields (typeName : String) (fragments : List FragmentDefinition) :
    List Selection → Except CompileError (List Field)
  | [] => .ok []
  | .field given? name arguments selections :: rest => do
      let more ← collectFields typeName fragments rest
      return ⟨given?, name, arguments, selections⟩ :: more
  | .spread name :: rest =>
      match _found : FragmentDefinition.find? fragments name with
      | none => .error (.unknownFragment name)
      | some f => do
          let inner ←
            if f.condition == typeName then
              collectFields typeName (FragmentDefinition.without fragments name) f.selections
            else .ok []
          let more ← collectFields typeName fragments rest
          return inner ++ more
  | .inlined condition? selections :: rest => do
      let inner ←
        if condition?.all (· == typeName) then collectFields typeName fragments selections
        else .ok []
      let more ← collectFields typeName fragments rest
      return inner ++ more
termination_by selections => FragmentDefinition.weight fragments + sizeOf selections
decreasing_by
  · exact Nat.add_lt_add_left (Selection.sizeOf_rest_lt _ _) _
  · exact Nat.add_lt_add_left (Selection.sizeOf_rest_lt _ _) _
  · exact FragmentDefinition.weight_spread_lt _found rest
  · exact Nat.add_lt_add_left (Selection.sizeOf_rest_lt _ _) _
  · exact Nat.add_lt_add_left (Selection.sizeOf_inlined_lt _ _ _) _

/-- Merges a field into the first field of its response key, or puts it last. -/
def mergeField (merged : List Field) (f : Field) : List Field :=
  match merged with
  | [] => [f]
  | g :: rest =>
      if g.responseKey == f.responseKey then
        { g with selections := g.selections ++ f.selections } :: rest
      else g :: mergeField rest f

/-- Fields with one response key each. -/
def mergeFields (fields : List Field) : List Field :=
  fields.foldl mergeField []

/-- The fields that selections on a type come to. -/
def selectedFields (typeName : String) (fragments : List FragmentDefinition)
    (selections : List Selection) : Except CompileError (List Field) :=
  (collectFields typeName fragments selections).map mergeFields

end GraphBridge.Compile
