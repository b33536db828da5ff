import GraphBridge.Proofs.Overrides
import GraphBridge.Proofs.Storing

/-!
# Root fields

A root field is looked up by its name alone, and queries are searched before mutations. An operation
is compiled by the field that its own root type declares, with the return type, the arguments and
the override of that declaration, unless it is a mutation and the query root has a field of that
name as well. Such a mutation is compiled as the query: without an override it writes nothing.
-/

namespace GraphBridge.Schema

/-- What a root takes from the field that declares it. -/
structure Root.IsDeclaredBy (root : Root) (kind : OperationKind) (f : FieldDefinition) :
    Prop where
  kind : root.kind = kind
  name : root.name = f.name
  returnType : root.returnType = f.type.name
  returnsArray : root.returnsArray = f.type.isList
  arguments : root.arguments = f.arguments.map describeArgument
  fragment : root.fragment? = f.override?

namespace Index

variable {index : Index} {kind : OperationKind} {t : TypeDefinition} {f : FieldDefinition}
  {fieldName : String}

theorem rootOf_isDeclaredBy {root : Root} (made : index.rootOf kind t f = .ok root) :
    root.IsDeclaredBy kind f := by
  obtain ⟨d, label, described, -, rfl⟩ := rootOf_eq_ok made
  have fragment := describe_fragment? described
  obtain ⟨mapping, -, same⟩ := Compile.bind_eq_ok described
  obtain rfl := Except.ok.inj same
  exact ⟨rfl, rfl, rfl, rfl, rfl, fragment⟩

/-- Whether the field of a name on the root type of a kind is the one that is found: no other goes
before a query. -/
def Prevails (index : Index) (kind : OperationKind) (fieldName : String) : Prop :=
  kind = .query ∨ index.rootField? .query fieldName = none

/-- A field that prevails gives the root. -/
theorem root_of_prevails (declared : index.rootField? kind fieldName = some (t, f))
    (prevails : index.Prevails kind fieldName) :
    index.root fieldName = index.rootOf kind t f := by
  unfold Index.root
  cases kind with
  | query => rw [declared]
  | mutation =>
      obtain absurd | none := prevails
      · cases absurd
      · rw [none, declared]

/-- Only a query keeps a field from prevailing, and only on the root of mutations. -/
theorem exists_query_of_not_prevails (shadowed : ¬ index.Prevails kind fieldName) :
    kind = .mutation ∧ ∃ t f, index.rootField? .query fieldName = some (t, f) := by
  obtain ⟨mutation, declared⟩ := not_or.1 shadowed
  obtain ⟨⟨t, f⟩, query⟩ := Option.ne_none_iff_exists'.1 declared
  cases kind with
  | query => exact absurd rfl mutation
  | mutation => exact ⟨rfl, t, f, query⟩

/-- The root of a name comes from the field on the root type of a kind if and only if that field
prevails. -/
theorem root_isDeclaredBy_iff (declared : index.rootField? kind fieldName = some (t, f))
    {root : Root} (found : index.root fieldName = .ok root) :
    root.IsDeclaredBy kind f ↔ index.Prevails kind fieldName := by
  refine ⟨fun own => Classical.byContradiction fun shadowed => ?_, fun prevails => ?_⟩
  · obtain ⟨rfl, t', f', query⟩ := exists_query_of_not_prevails shadowed
    rw [root_of_prevails query (.inl rfl)] at found
    cases own.kind.symm.trans (rootOf_isDeclaredBy found).kind
  · rw [root_of_prevails declared prevails] at found
    exact rootOf_isDeclaredBy found

end Index

end GraphBridge.Schema

namespace GraphBridge.Compile

open Operation Schema Statement

/-- Whether a text is that of a statement that only reads: none of its clauses writes, and behind
them it has projections only. The text of an override fragment is not looked into. -/
def OnlyReads (text : String) : Prop :=
  ∃ (clauses : List Clause) (lines : List String),
    text = "\n".intercalate (clauses.map Clause.text ++ lines)
      ∧ (∀ clause ∈ clauses, clause.writes = false) ∧ ∀ line ∈ lines, IsProjection line

theorem ReadsOn.limitRows (b : Builder) (root : Root) : ReadsOn b (limitRows b root) := by
  unfold Compile.limitRows
  split
  · exact addClause b rfl
  · exact refl b

/-- A query without an override only reads. -/
theorem planRead_onlyReads {ctx : Context} {root : Root} {field : Field} {plan : Plan}
    (planned : planRead ctx root field = .ok plan) : OnlyReads plan.compiled.text := by
  obtain ⟨supplied, -, projected⟩ := planRead_eq_ok planned
  obtain ⟨entries, -, rfl⟩ := map_eq_ok_iff.1
    ((projectRoot_eq ((Unframed.empty.referAll _ _).addClause _) ctx root field).symm.trans
      projected)
  let found := filterFor {} root.path (ctx.index.identityField? root.returnType) supplied
  let start := found.2.addClause (.find ⟨root.path, root.label, found.1⟩)
  have begun : ReadsOn {} start :=
    (ReadsOn.of_eq (Builder.clauses_referAll {} root.path supplied)).trans
      (ReadsOn.addClause found.2 rfl)
  obtain ⟨reading, clauses, reads⟩ := ((begun.trans (ReadsOn.limitRows start root)).trans
    (ReadsOn.final ⟨_, root.path, rootClosing root, entries⟩ ctx.config)).clauses
  have has : (Plan.projecting _).HasClauses reading := clauses.trans (List.nil_append _)
  obtain ⟨lines, text, projections⟩ := has.text
  exact ⟨reading, lines, text, reads, projections⟩

namespace Compiler

/-- Compiles an operation by a field of a root type. -/
def compileDeclared (c : Compiler) (operation : Operation) (field : Field) (kind : OperationKind)
    (t : TypeDefinition) (f : FieldDefinition) : Except Error Compiled := do
  let root ← (c.index.rootOf kind t f).mapError Error.schema
  compileRoot ⟨c.index, c.config, operation.fragments⟩
    { root with limit? := limitOf? field.arguments } field

variable {c : Compiler} {document : Operation.Document} {name? : Option String}
  {operation : Operation} {field : Field} {kind : OperationKind} {t : TypeDefinition}
  {f : FieldDefinition}

/-- An operation is compiled by the field that prevails, whatever its own kind is. -/
theorem compileDocument_of_prevails (selected : document.operation? name? = some operation)
    (first : operation.rootField? = some field)
    (declared : c.index.rootField? kind field.name = some (t, f))
    (prevails : c.index.Prevails kind field.name) :
    c.compileDocument document name? = c.compileDeclared operation field kind t f := by
  unfold compileDocument compileDeclared
  simp only [selected, first, Index.root_of_prevails declared prevails]

/-- A query without an override compiles to a statement that only reads. -/
theorem compileDeclared_onlyReads (plain : f.override? = none) {compiled : Compiled}
    (done : c.compileDeclared operation field .query t f = .ok compiled) :
    OnlyReads compiled.text := by
  obtain ⟨root, made, done⟩ := mapError_bind_eq_ok done
  obtain ⟨plan, planned, rfl⟩ := map_eq_ok_iff.1 done
  have own := Index.rootOf_isDeclaredBy made
  unfold planRoot at planned
  simp only [own.fragment, plain, own.kind] at planned
  exact planRead_onlyReads planned

/-- Which declaration an operation is compiled by. If the root type of its kind declares the root
field, the root takes kind, return type, arguments and override from that declaration if and only if
the operation is a query or the query root has no field of that name. Otherwise the field of the
query root is taken, and if that has no override, the mutation compiles to a statement that only
reads. -/
theorem compileDocument_rootField (selected : document.operation? name? = some operation)
    (first : operation.rootField? = some field)
    (declared : c.index.rootField? operation.kind field.name = some (t, f)) :
    (∀ root, c.index.root field.name = .ok root →
        (root.IsDeclaredBy operation.kind f ↔ c.index.Prevails operation.kind field.name))
      ∧ (c.index.Prevails operation.kind field.name →
        c.compileDocument document name? = c.compileDeclared operation field operation.kind t f)
      ∧ (¬ c.index.Prevails operation.kind field.name →
        operation.kind = .mutation
          ∧ ∃ t' f', c.index.rootField? .query field.name = some (t', f')
            ∧ c.compileDocument document name? = c.compileDeclared operation field .query t' f'
            ∧ (f'.override? = none → ∀ compiled, c.compileDocument document name? = .ok compiled →
                OnlyReads compiled.text)) := by
  refine ⟨fun root found => Index.root_isDeclaredBy_iff declared found,
    compileDocument_of_prevails selected first declared, fun shadowed => ?_⟩
  obtain ⟨mutation, t', f', query⟩ := Index.exists_query_of_not_prevails shadowed
  have same := compileDocument_of_prevails selected first query (.inl rfl)
  refine ⟨mutation, t', f', query, same, fun plain compiled done => ?_⟩
  rw [same] at done
  exact compileDeclared_onlyReads plain done

/-- Persons with a query that has the name of the mutation that creates them. -/
def overlapIndex : Index := ⟨⟨[
  ⟨"Person", .object, [], [⟨"name", ⟨"String", false, false⟩, [], []⟩]⟩,
  ⟨"NewPerson", .inputObject, [], [⟨"name", ⟨"String", false, false⟩, [], []⟩]⟩,
  ⟨"Query", .object, [], [⟨"createNodePerson", ⟨"Person", false, false⟩, [], []⟩]⟩,
  ⟨"Mutation", .object, [], [
    ⟨"createNodePerson", ⟨"Person", false, false⟩,
      [⟨"input", ⟨"NewPerson", false, false⟩, none, []⟩], []⟩]⟩]⟩⟩

/-- Creates a person. -/
def creation : Field :=
  ⟨none, "createNodePerson", [("input", .object [("name", .string "Ann")])],
    [.field none "name" [] []]⟩

/-- The mutation that selects it. -/
def creating : Operation where
  name? := none
  kind := .mutation
  selections := [.field creation.given? creation.name creation.arguments creation.selections]
  fragments := []

theorem compileDocument_rootField_creation :
    creating.rootField? = some creation
      ∧ ∃ t f root, overlapIndex.rootField? .mutation creation.name = some (t, f)
        ∧ overlapIndex.root creation.name = .ok root ∧ ¬ root.IsDeclaredBy .mutation f
        ∧ ∃ compiled, compileDocument ⟨overlapIndex, {}⟩ ⟨[creating]⟩ none = .ok compiled
          ∧ OnlyReads compiled.text := by
  have first : creating.rootField? = some creation := by cbv
  have shape : (compileDocument ⟨overlapIndex, {}⟩ ⟨[creating]⟩ none).toOption.any (fun _ => true)
      = true := by
    decide +kernel
  obtain ⟨compiled, done, -⟩ := exists_ok_of_any shape
  obtain ⟨iff, -, shadowed⟩ :=
    @compileDocument_rootField ⟨overlapIndex, {}⟩ ⟨[creating]⟩ none _ _ _ _ rfl first rfl
  have hidden : ¬ overlapIndex.Prevails .mutation creation.name := by
    rintro (absurd | absurd) <;> cases absurd
  obtain ⟨-, t', f', query, -, reads⟩ := shadowed hidden
  obtain rfl := (Prod.mk.inj (Option.some.inj query)).2
  exact ⟨first, _, _, _, rfl, rfl, fun own => hidden ((iff _ rfl).1 own), compiled, done,
    reads rfl compiled done⟩

/-- The same mutation as a text, what it compiles to, and what the declaration of the mutation root
compiles to. -/
def createsPerson : String × String × String :=
  ("mutation \x7bcreateNodePerson(input: \x7bname: \"Ann\"\x7d) \x7bname\x7d\x7d",
    "MATCH (createNodePerson_Person:`Person`\x7binput: $createNodePerson_Person_input\x7d)\n"
      ++ "RETURN \x7bname: createNodePerson_Person.`name`\x7d LIMIT 1",
    "CREATE (createNodePerson_Person:`Person` \x7bname: $createNodePerson_Person_name\x7d)\n"
      ++ "RETURN \x7bname: createNodePerson_Person.`name`\x7d")

/-- A mutation that its own root type declares is compiled as the query of that name. -/
theorem mutation_taken_for_query :
    creating.rootField? = some creation
      ∧ (∃ compiled, compile ⟨overlapIndex, {}⟩ createsPerson.1 [] none = .ok compiled
        ∧ compiled.text = createsPerson.2.1)
      ∧ ∃ t f, overlapIndex.rootField? creating.kind creation.name = some (t, f)
        ∧ ∃ own, compileDeclared ⟨overlapIndex, {}⟩ creating creation creating.kind t f = .ok own
          ∧ own.text = createsPerson.2.2 := by
  have taken : ((compile ⟨overlapIndex, {}⟩ createsPerson.1 [] none).toOption.any
      fun compiled => compiled.text == createsPerson.2.1) = true := by
    decide +kernel
  have declared : (overlapIndex.rootField? creating.kind creation.name).any (fun found =>
      let own := compileDeclared ⟨overlapIndex, {}⟩ creating creation creating.kind found.1 found.2
      own.toOption.any fun compiled => compiled.text == createsPerson.2.2) = true := by
    decide +kernel
  obtain ⟨compiled, done, text⟩ := exists_ok_of_any taken
  obtain ⟨⟨t, f⟩, found, declared⟩ := (Option.any_eq_true _ _).1 declared
  obtain ⟨own, made, text'⟩ := exists_ok_of_any declared
  exact ⟨by cbv, ⟨compiled, done, beq_iff_eq.1 text⟩, t, f, found, own, made,
    beq_iff_eq.1 text'⟩

end Compiler

end GraphBridge.Compile
