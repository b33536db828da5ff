import GraphBridge.Proofs.Collecting

/-!
# What a plan does before it projects

Before the selection of a root field is projected, a plan looks at the schema, at the arguments and
at whether anything is selected at all, but not into the selection and not at the configuration. So
two plans that agree on these things are compared by comparing their projections: whatever relates
the projections behind each start relates the plans.
-/

namespace GraphBridge.Compile

open Operation Schema Statement

/-- The arguments of a mutation are what they are whatever it selects. -/
theorem Given.ofField_selecting (index : Index) (root : Root) (field : Field)
    (selections : List Selection) :
    Given.ofField index root { field with selections := selections }
      = (Given.ofField index root field).map fun g =>
          { g with field := { g.field with selections := selections } } := by
  unfold Given.ofField
  dsimp only
  split
  · rfl
  · rename_i name value _
    generalize (ArgumentDescriptor.find? root.arguments name).filter _ = declared?
    cases declared? with
    | none => rfl
    | some a =>
        dsimp only
        cases index.inputArguments a.graphType <;> rfl

section Related

variable {related : Except Error Plan → Except Error Plan → Prop}
  (refl : ∀ planned, related planned planned)
include refl

/-- Plans that begin alike are related if they are however that comes out. -/
theorem related_bind {α : Type} (found : Except Error α) {next next' : α → Except Error Plan}
    (each : ∀ a, found = .ok a → related (next a) (next' a)) :
    related (found >>= next) (found >>= next') := by
  cases found with
  | error e => exact refl _
  | ok a => exact each a rfl

variable {ctx ctx' : Context} (index : ctx'.index = ctx.index)
  {root : Root} {field : Field} {selections : List Selection}
  (empty : selections.isEmpty = field.selections.isEmpty)
  (read : ∀ start, Unframed start → related (projectRoot ctx root field start)
    (projectRoot ctx' root { field with selections := selections } start))
  (written : ∀ start, Unframed start → related (projectWritten ctx root field start)
    (projectWritten ctx' root { field with selections := selections } start))

include index empty read in
theorem planRead_related :
    related (planRead ctx root field)
      (planRead ctx' root { field with selections := selections }) := by
  unfold planRead
  simp only [index, empty]
  by_cases scalar : (!root.returnsObject) = true
  · rw [if_pos scalar, if_pos scalar]
    exact refl _
  rw [if_neg scalar, if_neg scalar]
  by_cases none : field.selections.isEmpty = true
  · rw [if_pos none, if_pos none]
    exact refl _
  rw [if_neg none, if_neg none]
  refine related_bind refl _ fun supplied _ => ?_
  exact read _ ((Unframed.empty.referAll _ _).addClause _)

include index empty read in
theorem planOverride_related (text : String) :
    related (planOverride ctx root field text)
      (planOverride ctx' root { field with selections := selections } text) := by
  unfold planOverride planTraversal
  simp only [index, empty]
  by_cases traversal : isTraversal text = true
  · rw [if_pos traversal, if_pos traversal]
    exact refl _
  rw [if_neg traversal, if_neg traversal]
  refine related_bind refl _ fun fragment _ => ?_
  by_cases whole : (!root.returnsObject || field.selections.isEmpty) = true
  · rw [if_pos whole, if_pos whole]
    exact refl _
  rw [if_neg whole, if_neg whole]
  refine related_bind refl _ fun parts _ => ?_
  exact read _ (unframed_inlinedRoot root.path parts.1 parts.2)

include index written in
theorem planWrite_related :
    related (planWrite ctx root field)
      (planWrite ctx' root { field with selections := selections }) := by
  unfold planWrite
  split
  · exact refl _
  rename_i shape typeName _
  rw [index, Given.ofField_selecting ctx.index root field selections]
  cases given : Given.ofField ctx.index root field with
  | error e => exact refl _
  | ok g =>
      simp only [Except.map, mapError_ok, ok_bind]
      cases shape with
      | createNode =>
          unfold createNode
          rw [index]
          exact written _ ((Unframed.empty.referAll _ _).addClause _)
      | updateNode =>
          unfold updateNode
          rw [index]
          refine related_bind refl _ fun id _ => ?_
          exact written _ ((Unframed.empty.matchNode _ _).setClause _ _ _)
      | deleteNode =>
          unfold deleteNode
          rw [index]
          exact refl _
      | connectEdge =>
          unfold connectEdge
          rw [index]
          refine related_bind refl _ fun ends _ => ?_
          have ends := Unframed.empty.bindEndpoints root.path ends
          exact written _ (((ends.addClause _).referAll _ _).addClause _)
      | updateEdge =>
          unfold updateEdge
          rw [index]
          refine related_bind refl _ fun bound edge => ?_
          have unframed : Unframed bound.2 := Unframed.empty.bindEdge (eq_ok_of_mapError edge)
          exact written _ ((unframed.addClause _).setClause _ _ _)
      | deleteEdge =>
          unfold deleteEdge
          rw [index]
          exact refl _

include index empty read written in
/-- Plans are related if their projections are, behind whatever they begin with. -/
theorem planRoot_related :
    related (Compiler.planRoot ctx root field)
      (Compiler.planRoot ctx' root { field with selections := selections }) := by
  unfold Compiler.planRoot
  split
  · exact planOverride_related refl index empty read _
  · exact planWrite_related refl index written
  · exact planRead_related refl index empty read

end Related

end GraphBridge.Compile
