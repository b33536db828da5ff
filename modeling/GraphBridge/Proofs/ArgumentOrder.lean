import GraphBridge.Proofs.Identity
import Mathlib.Data.List.Perm.Basic

/-!
# The order in which arguments are written

Arguments are given by name, so an operation may write them in any order. A mutation that writes an
edge looks its own identity and the other identities up by name, in the order in which the schema
declares them; but the two ends it takes from the first arguments written whose names start with
`from` and `to`. So the order decides whenever arguments that start alike have different values, and
only then: what fails fails alike in every order, and otherwise the line that finds the edge is the
same, with the same values in it.
-/

namespace GraphBridge.Statement.Builder

/-- A value is bound under the name it asks for if that is free. -/
theorem refer_of_free {b : Builder} {name : String} (free : b.parameters.get? name = none)
    (s : Supplied) :
    b.refer name s = (⟨s, name⟩, { b with parameters := b.parameters ++ [(name, s.value)] }) := by
  have chosen : b.parameterName name s.value = name := by
    have accepted : b.accepts (candidate name 0) s.value = true := by
      change b.accepts name s.value = true
      rw [accepts, free]
    unfold parameterName
    dsimp only
    simp only [List.range_succ_eq_map, List.find?_cons, accepted]
    rfl
  unfold refer bindParameter
  dsimp only
  rw [chosen, free]

end GraphBridge.Statement.Builder

namespace GraphBridge.Compile

open Operation Schema Statement

/-- Whether a mutation writes an edge. -/
def MutationShape.writesEdge : MutationShape → Bool
  | .connectEdge | .updateEdge | .deleteEdge => true
  | .createNode | .updateNode | .deleteNode => false

namespace Given

/-- The values of the arguments whose names start with a word and that may be taken for an end. -/
def namedValues (g : Given) (word : String) : List Json :=
  (g.field.arguments.filter fun (name, value) =>
    word.toList.isPrefixOf name.toList && !value.isNull && !value.isObject).map Prod.snd

/-- Whether the ends of an edge are there, but arguments that start alike have different values. -/
def IsAmbiguous (g : Given) : Prop :=
  g.hasEnds = true
    ∧ ∃ word ∈ ["from", "to"], ∃ v ∈ g.namedValues word, ∃ w ∈ g.namedValues word, v ≠ w

/-- The parameters that identify the edge of a mutation, with their values: those of its two ends,
or that of an edge that is there itself. -/
def edgeIdentity (g : Given) (root : Root) (shape : MutationShape) :
    Except CompileError (Table Json) :=
  match g.endpoints root with
  | .ok (source, target) =>
      .ok [(root.path ++ "_whereFromId", source.value), (root.path ++ "_whereToId", target.value)]
  | .error missing =>
      match if shape = .connectEdge then none else g.ownId? with
      | some id => .ok [(root.path ++ "_whereId", id.value)]
      | none => .error missing

theorem ofField_kept {index : Index} {root : Root} {field : Field} {g : Given}
    (given : ofField index root field = .ok g) :
    g.field = field ∧ g.declared = root.arguments := by
  unfold ofField at given
  split at given
  · cases given
    exact ⟨rfl, rfl⟩
  · dsimp only at given
    split at given
    · obtain ⟨inputs, -, made⟩ := bind_eq_ok given
      cases made
      exact ⟨rfl, rfl⟩
    · cases given
      exact ⟨rfl, rfl⟩

/-! ## Two orders of the same arguments -/

/-- The same mutation with its arguments in another order. The input object may be another one,
because it is the first argument that is an object. -/
structure Reordered (g other : Given) : Prop where
  declared : other.declared = g.declared
  arguments : other.field.arguments.Perm g.field.arguments
  distinct : g.field.arguments.keys.Nodup

theorem value_named? (g : Given) (word : String) :
    (g.named? word).map (·.value) = (g.namedValues word).head? := by
  unfold named? namedValues
  rw [List.head?_map, List.head?_filter, Option.map_map]
  rfl

namespace Reordered

variable {g other : Given}

theorem scalar? (same : Reordered g other) (a : ArgumentDescriptor) :
    other.scalar? a = g.scalar? a := by
  unfold Given.scalar? Field.argument?
  rw [Table.get?_perm same.distinct same.arguments]

theorem ownId? (same : Reordered g other) : other.ownId? = g.ownId? := by
  unfold Given.ownId?
  simp only [same.declared, same.scalar?]

theorem otherIds (same : Reordered g other) : other.otherIds = g.otherIds := by
  unfold Given.otherIds Field.argument?
  simp only [same.declared, Table.get?_perm same.distinct same.arguments]

theorem isSome_named? (same : Reordered g other) (word : String) :
    (other.named? word).isSome = (g.named? word).isSome := by
  rw [Given.isSome_named?, Given.isSome_named?]
  exact same.arguments.any_eq

theorem namedValues (same : Reordered g other) (word : String) :
    (other.namedValues word).Perm (g.namedValues word) :=
  (same.arguments.filter _).map _

/-- An end of an edge under two orders of the arguments: the first argument named for it in each, or
one that is looked up and so the same. -/
def EndOf (g other : Given) (word : String) (first second : Supplied) : Prop :=
  g.named? word = some first ∧ other.named? word = some second
    ∨ g.named? word = none ∧ second = first

/-- Both ends are found in every order or in none, and what is missing is the same. -/
theorem endpoints_cases (same : Reordered g other) (root : Root) :
    (∃ e, g.endpoints root = .error e ∧ other.endpoints root = .error e)
      ∨ ∃ ends ends', g.endpoints root = .ok ends ∧ other.endpoints root = .ok ends'
          ∧ EndOf g other "from" ends.1 ends'.1 ∧ EndOf g other "to" ends.2 ends'.2 := by
  have source := same.isSome_named? "from"
  have target := same.isSome_named? "to"
  unfold endpoints EndOf
  rw [same.otherIds]
  generalize g.named? "from" = source? at source ⊢
  generalize other.named? "from" = source?' at source ⊢
  generalize g.named? "to" = target? at target ⊢
  generalize other.named? "to" = target?' at target ⊢
  -- an end that no argument is named for takes the next of the others, which are the same
  match source?, source?', target?, target?', g.otherIds with
  | some s, some s', some t, some t', others =>
      exact .inr ⟨(s, t), (s', t'), rfl, rfl, .inl ⟨rfl, rfl⟩, .inl ⟨rfl, rfl⟩⟩
  | some s, some s', none, none, [] => exact .inl ⟨_, rfl, rfl⟩
  | some s, some s', none, none, u :: _ =>
      exact .inr ⟨(s, u), (s', u), rfl, rfl, .inl ⟨rfl, rfl⟩, .inr ⟨rfl, rfl⟩⟩
  | none, none, _, _, [] => exact .inl ⟨_, rfl, rfl⟩
  | none, none, some t, some t', u :: _ =>
      exact .inr ⟨(u, t), (u, t'), rfl, rfl, .inr ⟨rfl, rfl⟩, .inl ⟨rfl, rfl⟩⟩
  | none, none, none, none, [u] => exact .inl ⟨_, rfl, rfl⟩
  | none, none, none, none, u :: v :: _ =>
      exact .inr ⟨(u, v), (u, v), rfl, rfl, .inr ⟨rfl, rfl⟩, .inr ⟨rfl, rfl⟩⟩
  | some _, none, _, _, _ => cases source
  | none, some _, _, _, _ => cases source
  | _, _, some _, none, _ => cases target
  | _, _, none, some _, _ => cases target

theorem edgeIdentity_error_iff (same : Reordered g other) (root : Root) (shape : MutationShape)
    (e : CompileError) :
    other.edgeIdentity root shape = .error e ↔ g.edgeIdentity root shape = .error e := by
  unfold edgeIdentity
  rw [same.ownId?]
  obtain ⟨missing, failed, failed'⟩ | ⟨ends, ends', found, found', -⟩ := same.endpoints_cases root
  · rw [failed, failed']
  · rw [found, found']
    constructor <;> rintro ⟨⟩

/-- An end is the same in both orders if all arguments that are named for it have one value. -/
theorem EndOf.value_eq (same : Reordered g other) {word : String} {first second : Supplied}
    (ends : EndOf g other word first second)
    (agree : ∀ v ∈ g.namedValues word, ∀ w ∈ g.namedValues word, v = w) :
    second.value = first.value := by
  obtain ⟨named, named'⟩ | ⟨-, rfl⟩ := ends
  · have chosen := g.value_named? word
    have chosen' := other.value_named? word
    rw [named] at chosen
    rw [named'] at chosen'
    have mem' := (same.namedValues word).mem_iff.1 (List.mem_of_head? chosen'.symm)
    exact agree _ mem' _ (List.mem_of_head? chosen.symm)
  · rfl

/-- What identifies an edge does not depend on the order, unless it is ambiguous. -/
theorem edgeIdentity_eq (same : Reordered g other) (clear : ¬ g.IsAmbiguous) (root : Root)
    (shape : MutationShape) : other.edgeIdentity root shape = g.edgeIdentity root shape := by
  unfold edgeIdentity
  rw [same.ownId?]
  obtain ⟨missing, failed, failed'⟩ | ⟨ends, ends', found, found', source, target⟩ :=
    same.endpoints_cases root
  · rw [failed, failed']
  · have hasEnds : g.hasEnds = true := by rw [← isOk_endpoints root, found]; rfl
    have agree (word : String) (known : word ∈ ["from", "to"]) :
        ∀ v ∈ g.namedValues word, ∀ w ∈ g.namedValues word, v = w := by
      intro v first w second
      by_contra apart
      exact clear ⟨hasEnds, word, known, v, first, w, second, apart⟩
    rw [found, found']
    dsimp only
    rw [source.value_eq same (agree "from" (by decide)),
      target.value_eq same (agree "to" (by decide))]

end Reordered

/-- An argument that is moved to the front is the one that an end is taken from. -/
theorem exists_first {g : Given} {word : String} {v : Json} (mem : v ∈ g.namedValues word) :
    ∃ arguments, arguments.Perm g.field.arguments
      ∧ ∀ other : Given, other.field.arguments = arguments →
          ∃ s, other.named? word = some s ∧ s.value = v := by
  obtain ⟨⟨name, value⟩, kept, rfl⟩ := List.mem_map.1 mem
  obtain ⟨given, fits⟩ := List.mem_filter.1 kept
  obtain ⟨before, after, split⟩ := List.append_of_mem given
  refine ⟨(name, value) :: (before ++ after), ?_, fun other moved => ⟨⟨name, none, value⟩, ?_, rfl⟩⟩
  · rw [split]
    exact List.perm_middle.symm
  · unfold named?
    rw [moved, List.find?_cons]
    simp only [fits, Option.map_some]

/-- Where the identity of an edge is ambiguous, it is another one in some other order. -/
theorem IsAmbiguous.exists_order {g : Given} (ambiguous : g.IsAmbiguous)
    (distinct : g.field.arguments.keys.Nodup) (root : Root) (shape : MutationShape) :
    ∃ arguments, arguments.Perm g.field.arguments
      ∧ ∀ other : Given, other.declared = g.declared → other.field.arguments = arguments →
          ∃ identity identity' key value value', g.edgeIdentity root shape = .ok identity
            ∧ other.edgeIdentity root shape = .ok identity' ∧ (key, value) ∈ identity
            ∧ (key, value') ∈ identity' ∧ value ≠ value' := by
  obtain ⟨hasEnds, word, known, v, first, w, second, apart⟩ := ambiguous
  obtain ⟨u, chosen⟩ : ∃ u, (g.namedValues word).head? = some u := by
    cases values : g.namedValues word with
    | nil => rw [values] at first; cases first
    | cons u rest => exact ⟨u, rfl⟩
  -- of two different values one is not the value that comes first
  obtain ⟨x, mem, differs⟩ : ∃ x ∈ g.namedValues word, u ≠ x := by
    by_cases same : u = v
    · exact ⟨w, second, same ▸ apart⟩
    · exact ⟨v, first, same⟩
  obtain ⟨arguments, perm, moved⟩ := exists_first mem
  refine ⟨arguments, perm, fun other declared reordered => ?_⟩
  have same : Reordered g other := ⟨declared, reordered ▸ perm, distinct⟩
  obtain ⟨s', named', value'⟩ := moved other reordered
  -- the end that the word is for has the first value in one order and the moved one in the other
  have values {s t : Supplied} (ends : Reordered.EndOf g other word s t) :
      s.value = u ∧ t.value = x := by
    have named := g.value_named? word
    rw [chosen] at named
    obtain ⟨found, found'⟩ | ⟨none, -⟩ := ends
    · rw [found] at named
      rw [named'] at found'
      cases found'
      exact ⟨Option.some.inj named, value'⟩
    · rw [none] at named
      cases named
  obtain ⟨e, failed, -⟩ | ⟨ends, ends', found, found', source, target⟩ :=
    same.endpoints_cases root
  · rw [← isOk_endpoints root, failed] at hasEnds
    cases hasEnds
  · unfold edgeIdentity
    rw [found, found']
    rcases List.mem_cons.1 known with rfl | known
    · obtain ⟨rfl, rfl⟩ := values source
      exact ⟨_, _, _, _, _, rfl, rfl, List.mem_cons_self, List.mem_cons_self, differs⟩
    · obtain rfl := List.mem_singleton.1 known
      obtain ⟨rfl, rfl⟩ := values target
      exact ⟨_, _, _, _, _, rfl, rfl, List.mem_cons_of_mem _ List.mem_cons_self,
        List.mem_cons_of_mem _ List.mem_cons_self, differs⟩

end Given

/-! ## What a statement identifies its edge by -/

/-- A statement begins with the line that finds what is written, and the parameters in that line are
the given ones, bound to the given values. -/
def Compiled.IdentifiedBy (compiled : Compiled) (path : String) (shape : MutationShape)
    (identity : Table Json) : Prop :=
  ∃ clause rest, FindsWritten path shape clause
    ∧ compiled.text = "\n".intercalate (clause.text :: rest)
    ∧ clause.references.map (·.parameter) = identity.keys
    ∧ ∀ entry ∈ identity, compiled.parameters.get? entry.1 = some entry.2

theorem whereFromId_ne (path : String) : path ++ "_whereToId" ≠ path ++ "_whereFromId" := by
  intro same
  have chars := congrArg String.toList same
  rw [String.toList_append, String.toList_append] at chars
  exact absurd (List.append_cancel_left chars) (by decide)

/-- The ends of an edge are bound under names of their own. -/
theorem bindEndpoints_empty (path : String) (ends : Supplied × Supplied) :
    bindEndpoints {} path ends
      = ((⟨ends.1, path ++ "_whereFromId"⟩, ⟨ends.2, path ++ "_whereToId"⟩),
        { parameters := [(path ++ "_whereFromId", ends.1.value),
            (path ++ "_whereToId", ends.2.value)] }) := by
  have first : Builder.refer {} (path ++ "_whereFromId") ends.1
      = (⟨ends.1, path ++ "_whereFromId"⟩,
        { parameters := [(path ++ "_whereFromId", ends.1.value)] }) :=
    Builder.refer_of_free rfl ends.1
  have free : Table.get? [(path ++ "_whereFromId", ends.1.value)] (path ++ "_whereToId")
      = none := by
    rw [Table.get?_eq_none_iff]
    exact fun mem => whereFromId_ne path (List.mem_singleton.1 mem)
  unfold bindEndpoints
  rw [first]
  dsimp only
  rw [Builder.refer_of_free (by exact free)]
  rfl

/-- What identifies an edge that is to be created: its ends as they are bound. -/
theorem edgeIdentity_connectEdge (g : Given) (root : Root) :
    g.edgeIdentity root .connectEdge
      = (g.endpoints root).map fun ends => (bindEndpoints {} root.path ends).2.parameters := by
  unfold Given.edgeIdentity
  cases g.endpoints root with
  | error missing => rfl
  | ok ends =>
      dsimp only [Except.map]
      rw [bindEndpoints_empty]

/-- What identifies an edge that is there: the parameters that are bound for its key. -/
theorem edgeIdentity_bindEdge (g : Given) (root : Root) {shape : MutationShape}
    (there : shape ≠ .connectEdge) :
    g.edgeIdentity root shape = (bindEdge g root {}).map fun found => found.2.parameters := by
  unfold Given.edgeIdentity bindEdge
  cases g.endpoints root with
  | error missing =>
      dsimp only
      rw [if_neg there]
      cases g.ownId? with
      | none => rfl
      | some id =>
          dsimp only [Except.map]
          rw [Builder.refer_of_free rfl]
          rfl
  | ok ends =>
      dsimp only [Except.map]
      rw [bindEndpoints_empty]

theorem nodup_ends (path : String) :
    [path ++ "_whereFromId", path ++ "_whereToId"].Nodup := by
  refine List.nodup_cons.2 ⟨fun mem => ?_, by simp⟩
  exact whereFromId_ne path (List.mem_singleton.1 mem).symm

/-- The references of the key of an edge are all that is bound for it. -/
theorem parameters_bindEdge {g : Given} {root : Root} {key : EdgeKey} {b : Builder}
    (found : bindEdge g root {} = .ok (key, b)) :
    key.references.map (·.parameter) = b.parameters.keys ∧ b.parameters.keys.Nodup := by
  unfold bindEdge at found
  split at found
  · rw [bindEndpoints_empty] at found
    cases found
    exact ⟨rfl, nodup_ends root.path⟩
  · split at found
    · rw [Builder.refer_of_free rfl] at found
      cases found
      exact ⟨rfl, by simp [Table.keys]⟩
    · cases found

theorem projectWritten_kept {ctx : Context} {root : Root} {field : Field} {b : Builder}
    {plan : Plan} (planned : projectWritten ctx root field b = .ok plan) {key : String}
    {value : Json} (bound : b.parameters.get? key = some value) :
    plan.compiled.parameters.get? key = some value := by
  obtain rfl | ⟨later, grown, rfl | rfl⟩ := projectWritten_cases planned
  · exact bound
  · exact grown.kept key value bound
  · exact grown.kept key value bound

/-- Whether what is written can be projected does not depend on the clauses that write it. -/
theorem projectWritten_error {ctx : Context} {root : Root} {field : Field} {b : Builder} {e : Error}
    (failed : projectWritten ctx root field b = .error e) (b' : Builder) :
    projectWritten ctx root field b' = .error e := by
  unfold projectWritten at failed ⊢
  dsimp only at failed ⊢
  split
  · rename_i nothing
    rw [if_pos nothing] at failed
    cases failed
  · rename_i something
    rw [if_neg something, projectSelection_eq ctx _ _ _ _ []] at failed
    rw [projectSelection_eq ctx _ _ _ _ []]
    cases resolved : resolve ctx ctx.config.maxDepth root.returnType field.selections with
    | error other =>
        rw [resolved] at failed
        exact failed
    | ok entries =>
        rw [resolved] at failed
        cases failed

/-- A look-up followed by something that fails in the same way whatever was found. -/
theorem fails_iff {α : Type} {found : Except CompileError α} {next : α → Except Error Plan}
    {identity : α → Table Json} {e : Error} {later : Prop} (same : ∀ a, next a = .error e ↔ later) :
    (found.mapError Error.compile >>= next) = .error e
      ↔ (∃ missing, found.map identity = .error missing ∧ e = .compile missing)
        ∨ (∀ missing, found.map identity ≠ .error missing) ∧ later := by
  cases found with
  | error missing =>
      constructor
      · rintro ⟨⟩
        exact .inl ⟨missing, rfl, rfl⟩
      · rintro (⟨_, ⟨⟩, rfl⟩ | ⟨known, -⟩)
        · rfl
        · exact absurd rfl (known missing)
  | ok a =>
      constructor
      · refine fun failed => .inr ⟨?_, (same a).1 failed⟩
        rintro missing ⟨⟩
      · rintro (⟨_, ⟨⟩, -⟩ | ⟨-, failed⟩)
        exact (same a).2 failed

/-- The first line of a plan identifies what is written by the values of its references. -/
theorem Plan.BeginsWith.identifiedBy {clause : Clause} {plan : Plan} {path : String}
    {shape : MutationShape} {identity : Table Json} (begins : plan.BeginsWith clause)
    (finds : FindsWritten path shape clause)
    (parameters : clause.references.map (·.parameter) = identity.keys)
    (distinct : identity.keys.Nodup)
    (kept : ∀ key value, identity.get? key = some value →
      plan.compiled.parameters.get? key = some value) :
    plan.compiled.IdentifiedBy path shape identity := by
  obtain ⟨⟨rest, text⟩, -⟩ := begins.compiled
  refine ⟨clause, rest, finds, text, parameters, fun entry mem => ?_⟩
  exact kept _ _ ((Table.get?_eq_some_iff distinct).2 mem)

section Planned

variable {ctx : Context} {root : Root} {field : Field} {shape : MutationShape} {typeName : String}
  {g : Given}

/-- A mutation of an edge fails if the edge cannot be identified, or else if what is written cannot
be projected. -/
theorem planShape_error_iff (edge : shape.writesEdge = true) {e : Error} :
    planShape ctx root field g typeName shape = .error e
      ↔ (∃ missing, g.edgeIdentity root shape = .error missing ∧ e = .compile missing)
        ∨ (∀ missing, g.edgeIdentity root shape ≠ .error missing)
          ∧ shape ≠ .deleteEdge ∧ projectWritten ctx root field {} = .error e := by
  have projected {b : Builder} {other : MutationShape} (projects : other ≠ .deleteEdge) :
      projectWritten ctx root field b = .error e
        ↔ other ≠ .deleteEdge ∧ projectWritten ctx root field {} = .error e :=
    ⟨fun failed => ⟨projects, projectWritten_error failed {}⟩,
      fun failed => projectWritten_error failed.2 b⟩
  cases shape with
  | createNode | updateNode | deleteNode => cases edge
  | connectEdge =>
      rw [edgeIdentity_connectEdge]
      exact fails_iff fun ends => projected (by decide)
  | updateEdge =>
      rw [edgeIdentity_bindEdge g root (by decide)]
      exact fails_iff fun found => projected (by decide)
  | deleteEdge =>
      rw [edgeIdentity_bindEdge g root (by decide)]
      refine fails_iff fun found => ?_
      constructor
      · rintro ⟨⟩
      · exact fun failed => absurd rfl failed.1

/-- The statement of a mutation of an edge finds the edge by what identifies it. -/
theorem planShape_identifiedBy (edge : shape.writesEdge = true) {plan : Plan}
    (planned : planShape ctx root field g typeName shape = .ok plan) :
    ∃ identity, g.edgeIdentity root shape = .ok identity
      ∧ plan.compiled.IdentifiedBy root.path shape identity := by
  have found {key : EdgeKey} {b : Builder} (bound : bindEdge g root {} = .ok (key, b)) :
      let clause := Clause.findEdge root.path (writtenLabel ctx.index typeName) key
      Opens clause (b.addClause clause) :=
    .start (bindEdge_bound bound).1 fun r mem => ((bindEdge_bound bound).2 r mem).1
  cases shape with
  | createNode | updateNode | deleteNode => cases edge
  | connectEdge =>
      obtain ⟨ends, chosen, planned⟩ := mapError_bind_eq_ok planned
      refine ⟨_, by rw [edgeIdentity_connectEdge, chosen]; rfl, ?_⟩
      let bound := bindEndpoints {} root.path ends
      let clause := Clause.findEnds root.path bound.1.1 bound.1.2
      have opens : Opens clause (bound.2.addClause clause) := .start
        (clauses_bindEndpoints {} root.path ends) (binding_bindEndpoints {} root.path ends).bound
      let input := bindInput (bound.2.addClause clause) root.path g.input
      have grown : Grows (bound.2.addClause clause) (input.2.addClause
          (.createEdge root.path (writtenLabel ctx.index typeName) input.1)) :=
        (Grows.referAll _ root.path _).trans (.addClause _ _)
      refine (projectWritten_beginsWith (opens.grow grown) planned).identifiedBy
        (.connectEdge _ _) ?_ ?_ fun key value found =>
          projectWritten_kept planned (grown.kept key value found)
      · dsimp only [clause, bound]
        rw [bindEndpoints_empty]
        rfl
      · dsimp only
        rw [bindEndpoints_empty]
        exact nodup_ends root.path
  | updateEdge =>
      obtain ⟨⟨key, b⟩, bound, planned⟩ := mapError_bind_eq_ok planned
      obtain ⟨parameters, distinct⟩ := parameters_bindEdge bound
      have grown := Grows.setClause (b.addClause
        (.findEdge root.path (writtenLabel ctx.index typeName) key)) root.path g.input none
      refine ⟨b.parameters, by rw [edgeIdentity_bindEdge g root (by decide), bound]; rfl, ?_⟩
      exact (projectWritten_beginsWith ((found bound).grow grown) planned).identifiedBy
        (.updateEdge _ key) parameters distinct fun key value bound =>
          projectWritten_kept planned (grown.kept key value bound)
  | deleteEdge =>
      obtain ⟨⟨key, b⟩, bound, planned⟩ := mapError_bind_eq_ok planned
      obtain ⟨parameters, distinct⟩ := parameters_bindEdge bound
      cases planned
      refine ⟨b.parameters, by rw [edgeIdentity_bindEdge g root (by decide), bound]; rfl, ?_⟩
      have begins : Plan.BeginsWith _ (.returning _ .truth) :=
        (found bound).grow (.addClause _ (.deleteEdge root.path))
      exact begins.identifiedBy (.deleteEdge _ key) parameters distinct fun _ _ => id

/-- A mutation field with its arguments in another order. -/
def reorder (field : Field) (arguments : Table Json) : Field :=
  { field with arguments := arguments }

/-- Statements with the same parameters are identified by one value for each. -/
theorem Compiled.IdentifiedBy.value_eq {compiled : Compiled} {path : String}
    {identity identity' : Table Json} (first : compiled.IdentifiedBy path shape identity)
    (second : compiled.IdentifiedBy path shape identity') {key : String} {value value' : Json}
    (mem : (key, value) ∈ identity) (mem' : (key, value') ∈ identity') : value = value' := by
  obtain ⟨_, _, _, _, _, bound⟩ := first
  obtain ⟨_, _, _, _, _, bound'⟩ := second
  exact Option.some.inj ((bound _ mem).symm.trans (bound' _ mem'))

theorem compileRoot_eq_planShape (mutation : root.kind = .mutation) (own : root.fragment? = none)
    (named : MutationName.classify root.name = some ⟨shape, typeName⟩)
    (given : Given.ofField ctx.index root field = .ok g) :
    Compiler.compileRoot ctx root field
      = (planShape ctx root field g typeName shape).map Plan.compiled := by
  unfold Compiler.compileRoot Compiler.planRoot
  rw [own, mutation]
  dsimp only
  rw [planWrite_eq named given]

/-- The order in which the arguments of a mutation of an edge are written decides nothing about
whether it compiles, and what fails fails alike. Of a mutation that compiles, it decides about the
values that identify the edge if and only if they are ambiguous: both ends are there, and arguments
that start alike, with `from` or with `to`, have different values. -/
theorem compileRoot_reorder (mutation : root.kind = .mutation) (own : root.fragment? = none)
    (named : MutationName.classify root.name = some ⟨shape, typeName⟩)
    (edge : shape.writesEdge = true) (distinct : field.arguments.keys.Nodup) :
    ∃ g, Given.ofField ctx.index root field = .ok g
      ∧ (∀ arguments, arguments.Perm field.arguments → ∀ e,
          Compiler.compileRoot ctx root (reorder field arguments) = .error e
            ↔ Compiler.compileRoot ctx root field = .error e)
      ∧ ∀ compiled, Compiler.compileRoot ctx root field = .ok compiled →
          ∃ identity, compiled.IdentifiedBy root.path shape identity
            ∧ ((∀ arguments, arguments.Perm field.arguments → ∀ other,
                  Compiler.compileRoot ctx root (reorder field arguments) = .ok other →
                    other.IdentifiedBy root.path shape identity)
                ↔ ¬ g.IsAmbiguous) := by
  obtain ⟨g, given⟩ := Given.exists_ofField ctx.index root field
  obtain ⟨rfl, declared⟩ := Given.ofField_kept given
  have compiled_eq {field : Field} {g : Given}
      (given : Given.ofField ctx.index root field = .ok g) :=
    compileRoot_eq_planShape mutation own named given
  have reordered {arguments : Table Json} (perm : arguments.Perm g.field.arguments) :
      ∃ other, Given.ofField ctx.index root (reorder g.field arguments) = .ok other
        ∧ other.field.arguments = arguments ∧ Given.Reordered g other := by
    obtain ⟨other, given'⟩ := Given.exists_ofField ctx.index root (reorder g.field arguments)
    obtain ⟨field', declared'⟩ := Given.ofField_kept given'
    have written : other.field.arguments = arguments := by rw [field']; rfl
    exact ⟨other, given', written, declared'.trans declared.symm, written ▸ perm, distinct⟩
  have alike (arguments : Table Json) (perm : arguments.Perm g.field.arguments) (e : Error) :
      Compiler.compileRoot ctx root (reorder g.field arguments) = .error e
        ↔ Compiler.compileRoot ctx root g.field = .error e := by
    obtain ⟨other, given', -, same⟩ := reordered perm
    rw [compiled_eq given, compiled_eq given', map_eq_error_iff, map_eq_error_iff,
      planShape_error_iff edge, planShape_error_iff edge]
    simp only [ne_eq, same.edgeIdentity_error_iff]
    rfl
  have identified {field : Field} {h : Given} (given : Given.ofField ctx.index root field = .ok h)
      {compiled : Compiled} (done : Compiler.compileRoot ctx root field = .ok compiled) :
      ∃ identity, h.edgeIdentity root shape = .ok identity
        ∧ compiled.IdentifiedBy root.path shape identity := by
    rw [compiled_eq given] at done
    obtain ⟨plan, planned, rfl⟩ := map_eq_ok_iff.1 done
    exact planShape_identifiedBy edge planned
  refine ⟨g, given, alike, fun compiled done => ?_⟩
  obtain ⟨identity, chosen, identifies⟩ := identified given done
  refine ⟨identity, identifies, fun all ambiguous => ?_, fun clear arguments perm other done' => ?_⟩
  · obtain ⟨arguments, perm, moved⟩ := ambiguous.exists_order distinct root shape
    obtain ⟨other, given', written, same⟩ := reordered perm
    obtain ⟨_, _, key, value, value', chosen', first, mem, mem', differs⟩ :=
      moved other same.declared written
    cases chosen.symm.trans chosen'
    cases done' : Compiler.compileRoot ctx root (reorder g.field arguments) with
    | error e => cases done.symm.trans ((alike arguments perm e).1 done')
    | ok later =>
        obtain ⟨identity', found, identifies'⟩ := identified given' done'
        cases found.symm.trans first
        exact differs ((all arguments perm later done').value_eq identifies' mem mem')
  · obtain ⟨g', given', -, same⟩ := reordered perm
    obtain ⟨identity', found, identifies'⟩ := identified given' done'
    rw [same.edgeIdentity_eq clear, chosen] at found
    cases found
    exact identifies'

end Planned

/-- Persons who can be connected, with the date from which they know each other. -/
def connectingIndex : Index := ⟨⟨[
  ⟨"Person", .object, [], [
    ⟨"_id", ⟨"ID", false, false⟩, [], [⟨"id", []⟩]⟩,
    ⟨"name", ⟨"String", false, false⟩, [], []⟩]⟩,
  ⟨"Query", .object, [], [⟨"person", ⟨"Person", false, false⟩, [], []⟩]⟩,
  ⟨"Mutation", .object, [], [
    ⟨"connectNodePersonToNodePersonEdgeKnows", ⟨"Boolean", false, false⟩,
      [⟨"from", ⟨"ID", false, false⟩, none, []⟩, ⟨"to", ⟨"ID", false, false⟩, none, []⟩,
        ⟨"fromDate", ⟨"String", false, false⟩, none, []⟩], []⟩]⟩]⟩⟩

/-- Connects two persons, the second of whom is written first. -/
def connectField : Field :=
  ⟨none, "connectNodePersonToNodePersonEdgeKnows", [("to", .string "2"), ("from", .string "1")], []⟩

theorem compileRoot_reorder_connect :
    ∃ root compiled identity,
      connectingIndex.root "connectNodePersonToNodePersonEdgeKnows" = .ok root
      ∧ Compiler.compileRoot ⟨connectingIndex, {}, []⟩ root connectField = .ok compiled
      ∧ compiled.IdentifiedBy root.path .connectEdge identity
      ∧ ∀ arguments, arguments.Perm connectField.arguments → ∀ other,
          Compiler.compileRoot ⟨connectingIndex, {}, []⟩ root (reorder connectField arguments)
              = .ok other →
            other.IdentifiedBy root.path .connectEdge identity := by
  have shape : ((connectingIndex.root "connectNodePersonToNodePersonEdgeKnows").toOption.any
      fun root => (root.kind == .mutation && root.fragment?.isNone
        && MutationName.classify root.name == some ⟨.connectEdge, "Knows"⟩)
      && (Compiler.compileRoot ⟨connectingIndex, {}, []⟩ root connectField).toOption.isSome)
      = true := by
    decide +kernel
  obtain ⟨root, looked, shape⟩ := exists_ok_of_any shape
  simp only [Bool.and_eq_true, beq_iff_eq, Option.isNone_iff_eq_none] at shape
  obtain ⟨⟨⟨mutation, own⟩, named⟩, done⟩ := shape
  obtain ⟨g, given, -, identified⟩ := @compileRoot_reorder ⟨connectingIndex, {}, []⟩ root
    connectField .connectEdge "Knows" mutation own named rfl (by decide)
  cases compiled : Compiler.compileRoot ⟨connectingIndex, {}, []⟩ root connectField with
  | error e => rw [compiled] at done; cases done
  | ok statement =>
      obtain ⟨identity, identifies, all⟩ := identified statement compiled
      refine ⟨root, statement, identity, looked, compiled, identifies, all.2 ?_⟩
      rintro ⟨-, word, known, v, first, w, second, apart⟩
      have one (word : String) (known : word ∈ ["from", "to"]) :
          ∃ value, g.namedValues word = [value] := by
        rw [Given.namedValues, (Given.ofField_kept given).1]
        rcases List.mem_cons.1 known with rfl | known
        · exact ⟨_, rfl⟩
        · obtain rfl := List.mem_singleton.1 known
          exact ⟨_, rfl⟩
      obtain ⟨value, only⟩ := one word known
      rw [only, List.mem_singleton] at first second
      exact apart (first.trans second.symm)

/-- Connects two persons with a date, which is written before or behind their identities. -/
def datedConnection (dateFirst : Bool) : String :=
  "mutation \x7bconnectNodePersonToNodePersonEdgeKnows("
    ++ (if dateFirst then "fromDate: \"2020\", from: \"1\", to: \"2\""
      else "from: \"1\", to: \"2\", fromDate: \"2020\"") ++ ")\x7d"

/-- A date that is written first is taken for the end that the edge starts from. -/
theorem date_taken_for_end :
    ∃ first last, Compiler.compile ⟨connectingIndex, {}⟩ (datedConnection true) [] none = .ok first
      ∧ Compiler.compile ⟨connectingIndex, {}⟩ (datedConnection false) [] none = .ok last
      ∧ first.parameters.get? "connectNodePersonToNodePersonEdgeKnows_Boolean_whereFromId"
          = some (.string "2020")
      ∧ last.parameters.get? "connectNodePersonToNodePersonEdgeKnows_Boolean_whereFromId"
          = some (.string "1") := by
  have start (dateFirst : Bool) :
      ((Compiler.compile ⟨connectingIndex, {}⟩ (datedConnection dateFirst) [] none).toOption.any
        fun compiled => Option.any
          (fun value => value.string? == some (if dateFirst then "2020" else "1"))
          (compiled.parameters.get?
            "connectNodePersonToNodePersonEdgeKnows_Boolean_whereFromId")) = true := by
    cases dateFirst <;> decide +kernel
  have bound (dateFirst : Bool) : ∃ compiled,
      Compiler.compile ⟨connectingIndex, {}⟩ (datedConnection dateFirst) [] none = .ok compiled
        ∧ compiled.parameters.get? "connectNodePersonToNodePersonEdgeKnows_Boolean_whereFromId"
            = some (.string (if dateFirst then "2020" else "1")) := by
    obtain ⟨compiled, done, shape⟩ := exists_ok_of_any (start dateFirst)
    obtain ⟨value, found, text⟩ := (Option.any_eq_true _ _).1 shape
    refine ⟨compiled, done, found.trans ?_⟩
    cases value with
    | string s => rw [Option.some.inj (beq_iff_eq.1 text)]
    | _ => cases text
  obtain ⟨first, compiled, source⟩ := bound true
  obtain ⟨last, compiled', source'⟩ := bound false
  exact ⟨first, last, compiled, compiled', source, source'⟩

end GraphBridge.Compile
