import GraphBridge.Proofs.Collecting
import GraphBridge.Proofs.Parameters
import GraphBridge.Proofs.Provenance

/-!
# What a write is identified by

A mutation that changes something that is there starts with a clause that finds it: a node or an
edge by its own identity, or an edge by the identities of its two ends. The clause stays the first
line of the statement, and the parameters in its conditions stay bound, whatever is set, created,
deleted or projected behind it. Where the arguments provide no identity, planning fails and says
which argument is missing. The one parameter that can be null is that of a deletion by an object
whose members are all null.
-/

namespace GraphBridge

namespace Json

/-- Equal values are null together. -/
theorem isNull_eq_of_same {a b : Json} (equal : a.same b = true) : a.isNull = b.isNull := by
  cases a <;> cases b <;> first | rfl | (unfold same at equal; cases equal)

/-- Whether a value is an object with nothing but nulls in it. -/
def isHollow : Json → Bool
  | .object members => members.all fun member => member.2.isNull
  | _ => false

end Json

end GraphBridge

namespace GraphBridge.Compile

open Operation Schema Statement

/-! ## What arguments provide -/

theorem isSome_orElse {α : Type} (first second : Option α) :
    (first <|> second).isSome = (first.isSome || second.isSome) := by
  cases first <;> rfl

theorem any_or_any {α : Type} (as : List α) (first second : α → Bool) :
    (as.any first || as.any second) = as.any fun a => first a || second a := by
  induction as with
  | nil => rfl
  | cons a as ih =>
      rw [List.any_cons, List.any_cons, List.any_cons, ← ih]
      cases first a <;> cases second a <;> simp

namespace Given

variable (g : Given)

/-- Whether an argument marked as identity, or of type `ID`, has a value that is neither null nor an
object. -/
def hasOwnId : Bool :=
  g.declared.any fun a => (g.scalar? a).isSome && (a.isId || a.graphType == "ID")

/-- Whether a field of the input object is marked as identity, has the name of the identity, or is
of type `ID`. -/
def hasInputId (identity? : Option String) : Bool :=
  g.input.any fun s =>
    s.isId || some s.name == identity? || s.declared?.any (·.graphType == "ID")

/-- Whether an argument is not null. -/
def hasValue : Bool :=
  g.field.arguments.any fun (_, value) => !value.isNull

/-- Whether an argument whose name starts with a word has a value that is neither null nor an
object. -/
def hasNamed (word : String) : Bool :=
  g.field.arguments.any fun (name, value) =>
    word.toList.isPrefixOf name.toList && !value.isNull && !value.isObject

/-- Whether there are enough other `ID` arguments for the ends of an edge that no argument is named
for. -/
def hasEnds : Bool :=
  (g.hasNamed "from").toNat + (g.hasNamed "to").toNat + g.otherIds.length ≥ 2

/-- Whether the arguments provide what a mutation needs to find what it writes. -/
def provides (identity? : Option String) : MutationShape → Bool
  | .createNode => true
  | .updateNode => g.hasOwnId || g.hasInputId identity?
  | .deleteNode => g.hasOwnId || g.hasInputId identity? || g.hasValue
  | .connectEdge => g.hasEnds
  | .updateEdge | .deleteEdge => g.hasEnds || g.hasOwnId

/-- Whether a node is deleted by the first argument that is not null, and that is a hollow
object. -/
def isHollow (identity? : Option String) : Bool :=
  !g.hasOwnId && !g.hasInputId identity?
    && (g.field.arguments.find? fun (_, value) => !value.isNull).any fun (_, value) =>
      value.isHollow

variable {g}

/-! ### When something is found -/

theorem isSome_ownId? : g.ownId?.isSome = g.hasOwnId := by
  unfold ownId? hasOwnId
  rw [Option.isSome_map, isSome_orElse, List.isSome_find?, List.isSome_find?, any_or_any,
    List.any_filterMap]
  congr 1
  funext a
  cases g.scalar? a <;> rfl

theorem isSome_inputId? (identity? : Option String) :
    (g.inputId? identity?).isSome = g.hasInputId identity? := by
  unfold inputId? hasInputId
  rw [isSome_orElse, isSome_orElse, List.isSome_find?, List.isSome_find?, List.isSome_find?,
    any_or_any, any_or_any]
  congr 1
  funext s
  exact (Bool.or_assoc ..).symm

theorem isSome_firstValue? : g.firstValue?.isSome = g.hasValue := by
  unfold firstValue? hasValue
  rw [Option.isSome_map, List.isSome_find?]

theorem isSome_named? (word : String) : (g.named? word).isSome = g.hasNamed word := by
  unfold named? hasNamed
  rw [Option.isSome_map, List.isSome_find?]

/-- The identity of a node is found where one is provided. -/
theorem isOk_nodeId (index : Index) (root : Root) (fallBack : Bool) :
    (g.nodeId index root fallBack).isOk
      = (g.hasOwnId || g.hasInputId (index.identityField? root.returnType)
          || (fallBack && g.hasValue)) := by
  have fallen : (if fallBack then g.firstValue? else none).isSome = (fallBack && g.hasValue) := by
    cases fallBack with
    | false => rfl
    | true => exact isSome_firstValue?
  rw [← isSome_ownId?, ← isSome_inputId?, ← fallen, Bool.or_assoc, ← isSome_orElse,
    ← isSome_orElse]
  unfold nodeId
  dsimp only
  split
  · rename_i id found
    rw [found]
    rfl
  · rename_i missing
    rw [missing]
    rfl

/-- The ends of an edge are found where two are provided. -/
theorem isOk_endpoints (root : Root) : (g.endpoints root).isOk = g.hasEnds := by
  have found := @isSome_named? g
  unfold endpoints hasEnds
  rw [← found, ← found]
  dsimp only
  generalize g.named? "from" = source?
  generalize g.named? "to" = target?
  have enough {n : Nat} (two : 2 ≤ n) : true = decide (n ≥ 2) := (decide_eq_true two).symm
  -- an end that is not named takes the next of the others
  match source?, target?, g.otherIds with
  | some _, some _, others => exact enough (Nat.le_add_right 2 others.length)
  | some _, none, [] => rfl
  | some _, none, _ :: _ => exact enough (by simp +arith)
  | none, some _, [] => rfl
  | none, some _, _ :: _ => exact enough (by simp +arith)
  | none, none, [] => rfl
  | none, none, [_] => rfl
  | none, none, _ :: _ :: _ => exact enough (by simp +arith)

/-! ### What is missing -/

theorem nodeId_error {index : Index} {root : Root} {fallBack : Bool} {e : CompileError}
    (failed : g.nodeId index root fallBack = .error e) :
    e = .missingArgument root.name (root.idArgument?.getD "id") := by
  unfold nodeId at failed
  dsimp only at failed
  split at failed
  · cases failed
  · cases failed
    rfl

theorem endpoints_error {root : Root} {e : CompileError} (failed : g.endpoints root = .error e) :
    ∃ argument, e = .missingArgument root.name argument := by
  unfold endpoints at failed
  dsimp only at failed
  split at failed
  · cases failed
  · cases failed
    exact ⟨"from", rfl⟩
  · cases failed
    exact ⟨"to", rfl⟩

/-! ### Which values are found -/

theorem isNull_of_scalar? {a : ArgumentDescriptor} {value : Json}
    (found : g.scalar? a = some value) : value.isNull = false := by
  have scalar := (Option.filter_eq_some_iff.1 found).2
  simp only [Bool.and_eq_true, Bool.not_eq_true'] at scalar
  exact scalar.1

theorem isNull_ownId? {s : Supplied} (found : g.ownId? = some s) : s.value.isNull = false := by
  obtain ⟨a, -, value, scalar, rfl⟩ := ownId?_eq_some found
  exact isNull_of_scalar? scalar

/-- The fields of the input object are not null. -/
theorem isNull_input {index : Index} {root : Root} {field : Field}
    (given : ofField index root field = .ok g) : ∀ s ∈ g.input, s.value.isNull = false := by
  have supplied (declared : List ArgumentDescriptor) (members : Table Json) :
      ∀ s ∈ Supplied.ofInput declared members, s.value.isNull = false := by
    intro s mem
    obtain ⟨entry, kept, rfl⟩ := List.mem_map.1 mem
    simpa using (List.mem_filter.1 kept).2
  unfold ofField at given
  split at given
  · cases given
    exact List.forall_mem_nil _
  · dsimp only at given
    split at given
    · obtain ⟨inputs, -, made⟩ := bind_eq_ok given
      cases made
      exact supplied _ _
    · cases given
      exact supplied _ _

/-- The first value of an argument is null if and only if the argument is hollow. -/
theorem isNull_firstValue? {s : Supplied} (found : g.firstValue? = some s) :
    s.value.isNull
      = (g.field.arguments.find? fun (_, value) => !value.isNull).any fun (_, value) =>
          value.isHollow := by
  obtain ⟨⟨name, value⟩, first, rfl⟩ := Option.map_eq_some_iff.1 found
  have present := List.find?_some first
  rw [first, Option.any_some]
  cases value with
  | object members =>
      dsimp only [Json.isHollow]
      rw [List.find?_map]
      cases chosen : members.find? ((fun member => !member.isNull) ∘ Prod.snd) with
      | none =>
          have nulls : members.all (fun member => member.2.isNull) = true :=
            List.all_eq_true.2 fun member mem => by
              simpa using List.find?_eq_none.1 chosen member mem
          rw [nulls]
          rfl
      | some member =>
          have kept : member.2.isNull = false := by simpa using List.find?_some chosen
          have other : members.all (fun member => member.2.isNull) = false :=
            List.all_eq_false.2 ⟨member, List.mem_of_find?_eq_some chosen, by simp [kept]⟩
          rw [other]
          exact kept
  | null => cases present
  | bool | number | string | array => rfl

theorem isNull_named? {word : String} {s : Supplied} (found : g.named? word = some s) :
    s.value.isNull = false := by
  obtain ⟨⟨name, value⟩, first, rfl⟩ := Option.map_eq_some_iff.1 found
  have present := List.find?_some first
  simp only [Bool.and_eq_true, Bool.not_eq_true'] at present
  exact present.1.2

theorem isNull_otherIds : ∀ s ∈ g.otherIds, s.value.isNull = false := by
  intro s mem
  simpa using (List.mem_filter.1 mem).2

theorem isNull_endpoints {root : Root} {ends : Supplied × Supplied}
    (found : g.endpoints root = .ok ends) :
    ends.1.value.isNull = false ∧ ends.2.value.isNull = false := by
  have present {s : Supplied} (source : (∃ word, g.named? word = some s) ∨ s ∈ g.otherIds) :
      s.value.isNull = false := by
    obtain ⟨word, named⟩ | other := source
    · exact isNull_named? named
    · exact isNull_otherIds s other
  exact ⟨present (endpoints_cases found).1, present (endpoints_cases found).2⟩

/-- The identity of a node is null if and only if it is that of a hollow object. -/
theorem isNull_nodeId {index : Index} {root : Root} {field : Field}
    (given : ofField index root field = .ok g) {fallBack : Bool} {s : Supplied}
    (found : g.nodeId index root fallBack = .ok s) :
    s.value.isNull = (fallBack && g.isHollow (index.identityField? root.returnType)) := by
  unfold isHollow
  rw [← isSome_ownId?, ← isSome_inputId?]
  obtain own | inside | ⟨noOwn, noInput, rfl, last⟩ := nodeId_cases found
  · rw [isNull_ownId? own, own]
    simp
  · rw [isNull_input given s (mem_input_of_inputId? inside), inside]
    simp
  · rw [noOwn, noInput, isNull_firstValue? last]
    rfl

/-- The arguments of a mutation can always be looked up. -/
theorem exists_ofField (index : Index) (root : Root) (field : Field) :
    ∃ g, ofField index root field = .ok g := by
  unfold ofField
  split
  · exact ⟨_, rfl⟩
  · dsimp only
    split
    · rename_i a declared
      have known := (Option.filter_eq_some_iff.1 declared).2
      obtain ⟨t, found⟩ := Option.isSome_iff_exists.1 known
      have inputs : index.inputArguments a.graphType = .ok (t.fields.map describeInputField) := by
        simp [Index.inputArguments, Index.requireType, found]
      rw [inputs]
      exact ⟨_, rfl⟩
    · exact ⟨_, rfl⟩

end Given

theorem bindEdge_error {g : Given} {root : Root} {b : Builder} {e : CompileError}
    (failed : bindEdge g root b = .error e) :
    ∃ argument, e = .missingArgument root.name argument := by
  unfold bindEdge at failed
  split at failed
  · cases failed
  · rename_i missing lacking
    split at failed
    · cases failed
    · cases failed
      exact Given.endpoints_error lacking

/-- What identifies an edge is found where its ends or its own identity are provided. -/
theorem isOk_bindEdge (g : Given) (root : Root) (b : Builder) :
    (bindEdge g root b).isOk = (g.hasEnds || g.hasOwnId) := by
  rw [← Given.isOk_endpoints root, ← Given.isSome_ownId?]
  unfold bindEdge
  cases g.endpoints root with
  | ok ends => rfl
  | error missing => cases g.ownId? <;> rfl

/-! ## Projections need no argument -/

theorem mapError_bind {ε ε' α β : Type} (found : Except ε α) (next : α → Except ε β)
    (blame : ε → ε') :
    (found >>= next).mapError blame
      = found.mapError blame >>= fun a => (next a).mapError blame := by
  cases found <;> rfl

/-- Something does not fail for want of an argument. -/
def LacksNothing {α : Type} (found : Except Error α) : Prop :=
  ∀ name argument, found ≠ .error (.compile (.missingArgument name argument))

namespace LacksNothing

variable {α β : Type}

theorem ok (a : α) : LacksNothing (.ok a) := by
  rintro name argument ⟨⟩

theorem schema (found : Except SchemaError α) : LacksNothing (found.mapError Error.schema) := by
  intro name argument failed
  cases found <;> cases failed

theorem bind {found : Except Error α} {next : α → Except Error β} (first : LacksNothing found)
    (later : ∀ a, LacksNothing (next a)) : LacksNothing (found >>= next) := by
  intro name argument failed
  cases found with
  | error e =>
      cases failed
      exact first name argument rfl
  | ok a => exact later a name argument failed

theorem map {found : Except Error α} (first : LacksNothing found) (change : α → β) :
    LacksNothing (found.map change) := by
  intro name argument failed
  cases found with
  | error e =>
      cases failed
      exact first name argument rfl
  | ok a => cases failed

theorem mapM {look : α → Except Error β} (each : ∀ a, LacksNothing (look a)) (as : List α) :
    LacksNothing (as.mapM look) := by
  induction as with
  | nil => exact ok []
  | cons a as ih =>
      rw [List.mapM_cons]
      exact (each a).bind fun b => ih.bind fun bs => ok (b :: bs)

theorem compile {found : Except CompileError α}
    (other : ∀ name argument, found ≠ .error (.missingArgument name argument)) :
    LacksNothing (found.mapError Error.compile) := by
  intro name argument failed
  cases found with
  | error e =>
      cases failed
      exact other name argument rfl
  | ok a => cases failed

/-- An override that cannot be used is said to be invalid. -/
theorem fragmentFor (field : Field) (text : String) :
    LacksNothing ((fragmentFor field text).mapError Error.compile) := by
  refine compile fun name argument failed => ?_
  unfold Compile.fragmentFor at failed
  dsimp only at failed
  generalize Query.Fragment.ofText _ = read at failed
  cases read <;> cases failed

theorem splitFor (field : Field) (fragment : Query.Fragment) :
    LacksNothing ((splitFor field fragment).mapError Error.compile) := by
  refine compile fun name argument failed => ?_
  unfold Compile.splitFor at failed
  split at failed <;> cases failed

theorem returnedVariable (field : Field) (tail : Query.Fragment) :
    LacksNothing ((returnedVariable field tail).mapError Error.compile) := by
  refine compile fun name argument failed => ?_
  unfold Compile.returnedVariable at failed
  split at failed <;> cases failed

theorem collectFields (typeName : String) (fragments : List FragmentDefinition)
    (selections : List Selection) :
    LacksNothing ((collectFields typeName fragments selections).mapError Error.compile) := by
  have joined {s : Selection} {rest : List Selection} {fragments : List FragmentDefinition}
      (own : LacksNothing ((Compile.collectFields typeName fragments [s]).mapError Error.compile))
      (later : LacksNothing
        ((Compile.collectFields typeName fragments rest).mapError Error.compile)) :
      LacksNothing
        ((Compile.collectFields typeName fragments (s :: rest)).mapError Error.compile) := by
    rw [collectFields_cons, mapError_bind]
    refine own.bind fun first => ?_
    rw [mapError_bind]
    exact later.bind fun more => ok _
  induction fragments, selections using collectFields.induct typeName with
  | case1 fragments =>
      rw [collectFields_nil]
      exact ok _
  | case2 fragments given? name arguments inner rest ih =>
      refine joined ?_ ih
      rw [collectFields_field]
      exact ok _
  | case3 fragments name rest missing =>
      rw [collectFields_cons, collectFields_spread, missing]
      rintro name argument ⟨⟩
  | case4 fragments name rest f found fits ih ihInner =>
      refine joined ?_ ih
      rw [collectFields_spread, found]
      dsimp only
      rw [if_pos fits]
      exact ihInner
  | case5 fragments name rest f found misfits ih =>
      refine joined ?_ ih
      rw [collectFields_spread, found]
      dsimp only
      rw [if_neg misfits]
      exact ok _
  | case6 fragments condition? inner rest fits ih ihInner =>
      refine joined ?_ ih
      rw [collectFields_inlined, if_pos fits]
      exact ihInner
  | case7 fragments condition? inner rest misfits ih =>
      refine joined ?_ ih
      rw [collectFields_inlined, if_neg misfits]
      exact ok _

theorem resolveScalar (d : FieldDescriptor) (field : Field) :
    LacksNothing ((resolveScalar d field).mapError Error.compile) := by
  unfold Compile.resolveScalar
  split
  · exact ok _
  · exact ok _
  · exact ok _
  · rw [mapError_bind]
    refine (fragmentFor field _).bind fun fragment => ?_
    rw [mapError_bind]
    exact (splitFor field fragment).bind fun parts => ok _

theorem resolveField {ctx : Context} {inner : Resolves}
    (deeper : ∀ typeName selections, LacksNothing (inner typeName selections)) (typeName : String)
    (field : Field) : LacksNothing (resolveField ctx inner typeName field) := by
  unfold Compile.resolveField
  split
  · exact ok _
  refine (schema _).bind fun d => ?_
  split
  · refine bind ?_ fun reach => (deeper _ _).bind fun entries => ok _
    unfold resolveReach
    refine (schema _).bind fun label => ?_
    split
    · exact (schema _).bind fun supplied => ok _
    · exact (fragmentFor field _).bind fun fragment => (splitFor field fragment).bind fun parts =>
        (returnedVariable field parts.2).bind fun returned => ok _
    · rintro name argument ⟨⟩
    · rintro name argument ⟨⟩
  · exact (resolveScalar d field).bind fun value => ok _

/-- Looking up selections does not fail for want of an argument, however deep they are. -/
theorem resolve (ctx : Context) (levels : Nat) (typeName : String) (selections : List Selection) :
    LacksNothing (resolve ctx levels typeName selections) := by
  induction levels generalizing typeName selections with
  | zero => rintro name argument ⟨⟩
  | succ levels ih =>
      exact (collectFields typeName ctx.fragments selections).bind fun fields =>
        mapM (resolveField ih typeName) (groupFields fields)

theorem projectWritten (ctx : Context) (root : Root) (field : Field) (b : Builder) :
    LacksNothing (projectWritten ctx root field b) := by
  unfold Compile.projectWritten
  dsimp only
  split
  · exact ok _
  refine bind ?_ fun projected => ok _
  rw [projectSelection_eq ctx _ _ _ _ []]
  exact (resolve ctx _ _ _).map _

end LacksNothing

/-! ## The first clause -/

/-- A later builder of the same statement: clauses are added behind those that are there, what is
bound stays bound to its value, and a frame keeps its variable. -/
structure Grows (b later : Builder) : Prop where
  clauses : b.clauses <+: later.clauses
  kept : ∀ key value, b.parameters.get? key = some value →
    later.parameters.get? key = some value
  opened : ∀ place name, b.carryOver? place = some name → later.carryOver? place = some name

namespace Grows

variable {b b' : Builder}

theorem refl (b : Builder) : Grows b b :=
  ⟨List.prefix_refl _, fun _ _ => id, fun _ _ => id⟩

theorem trans {b'' : Builder} (first : Grows b b') (second : Grows b' b'') : Grows b b'' :=
  ⟨first.clauses.trans second.clauses,
    fun key value found => second.kept key value (first.kept key value found),
    fun place name found => second.opened place name (first.opened place name found)⟩

theorem of_eq (clauses : b'.clauses = b.clauses) (parameters : b'.parameters = b.parameters)
    (frames : ∀ place, b'.carryOver? place = b.carryOver? place) : Grows b b' :=
  ⟨clauses ▸ List.prefix_refl _, parameters ▸ fun _ _ => id,
    fun place _ found => (frames place).trans found⟩

theorem addClause (b : Builder) (clause : Clause) : Grows b (b.addClause clause) :=
  ⟨List.prefix_append _ _, fun _ _ => id, fun _ _ => id⟩

theorem project (b : Builder) (frame : Nat) (key : String) (expression : Expression) :
    Grows b (b.project frame key expression) :=
  of_eq rfl rfl fun place => by rw [Builder.carryOver?_project]

theorem thread (b : Builder) (name : String) (consumer : Nat) (producer? : Option Nat) :
    Grows b (b.thread name consumer producer?) :=
  of_eq rfl rfl fun _ => rfl

theorem referAll (b : Builder) (path : String) (supplied : List Supplied) :
    Grows b (b.referAll path supplied).2 :=
  ⟨⟨[], by rw [List.append_nil, Builder.clauses_referAll]⟩,
    (Binding.referAll b path supplied).kept, fun place name found => by
      rwa [Builder.carryOver?, Builder.frames_referAll]⟩

theorem keepFor (b : Builder) (frame : Nat) (name : String) : Grows b (keepFor b frame name) := by
  have bound : Grows b (b.bindScope name) :=
    of_eq (Builder.clauses_bindScope b name) (Builder.parameters_bindScope b name) fun place => by
      rw [Builder.carryOver?, Builder.frames_bindScope, Builder.carryOver?]
  exact bound.trans (thread _ name frame none)

theorem keepMentioned (b : Builder) (frame : Nat) (tail : Query.Fragment) (names : List String) :
    Grows b (keepMentioned frame tail names b) := by
  unfold Compile.keepMentioned
  induction names generalizing b with
  | nil => exact refl b
  | cons name names ih =>
      rw [List.foldl_cons]
      split
      · exact (keepFor b frame name).trans (ih _)
      · exact ih b

theorem setClause (b : Builder) (path : String) (input : List Supplied)
    (skipped? : Option String) : Grows b (setClause b path input skipped?) := by
  obtain ⟨supplied, -, ⟨-, same⟩ | ⟨-, same⟩⟩ := setClause_cases b path input skipped?
  · rw [same]
    exact referAll b path supplied
  · rw [same]
    exact (referAll b path supplied).trans (addClause _ _)

theorem scalar (b : Builder) (config : Config) (path key : String) (frame : Nat)
    (value : Scalar) : Grows b (value.emit config path key frame b).2 := by
  cases value with
  | typeName | identity | property => exact refl b
  | override bound body tail =>
      unfold Scalar.emit inlineScalar
      dsimp only
      split
      · exact (addClause b _).trans (keepFor _ _ _)
      have behind : ∀ body, Grows b (addBody config b body) := by
        intro body
        unfold addBody
        split
        · exact refl b
        · exact addClause b _
      split
      · exact (behind _).trans ((addClause _ _).trans (keepFor _ _ _))
      · exact (behind _).trans (keepMentioned _ _ _ _)

theorem reach (b : Builder) (config : Config) (parent child : String) (reach : Reach) :
    Grows b (reach.emit config parent child b) := by
  cases reach with
  | relationship edgeType direction label identity? supplied =>
      exact (referAll b child supplied).trans (addClause _ _)
  | override bound body returned => exact addClause b _

theorem openFrame (b : Builder) (carryOver : String) (closing : Closing) :
    Grows b (b.openFrame carryOver closing) where
  clauses := Builder.clauses_openFrame b carryOver closing ▸ List.prefix_refl _
  kept := Builder.parameters_openFrame b carryOver closing ▸ fun _ _ => id
  opened _ _ := b.carryOver?_openFrame

/-- Every action of a projection makes a later builder. -/
theorem step (config : Config) (s : State) (a : Action) :
    Grows s.builder (s.step config a).builder := by
  obtain ⟨b, stack⟩ := s
  match a, stack with
  | .scalar key value, (frame, path) :: outer =>
      exact (scalar b config path key frame value).trans (project _ _ _ _)
  | .enter key reached closing, (frame, path) :: outer =>
      exact (reach b config path _ reached).trans (openFrame _ _ _)
  | .leave key, (inner, child) :: (frame, path) :: outer =>
      exact (project b _ _ _).trans (thread _ _ _ _)
  | .scalar _ _, [] => exact refl b
  | .enter _ _ _, [] => exact refl b
  | .leave _, [] => exact refl b
  | .leave _, [_] => exact refl b

theorem run (config : Config) (actions : List Action) (s : State) :
    Grows s.builder (s.run config actions).builder :=
  State.run_induction (motive := fun reached => Grows s.builder reached.builder)
    (fun reached a grown => grown.trans (step config reached a)) actions (refl _)

theorem emit (b : Builder) (config : Config) (path : String) (frame : Nat)
    (outer : List (Nat × String)) (entries : List Entry) :
    Grows b (emit config path frame outer entries b) :=
  run config (actionsOf entries) ⟨b, (frame, path) :: outer⟩

end Grows

/-- A statement begins with a clause, all of whose references are bound. -/
structure Opens (clause : Clause) (b : Builder) : Prop where
  first : b.clauses.head? = some clause
  bound : ∀ r ∈ clause.references, r.IsBoundIn b.parameters

namespace Opens

variable {clause : Clause} {b b' : Builder}

/-- A later builder begins with the same clause. -/
theorem grow (opens : Opens clause b) (grown : Grows b b') : Opens clause b' where
  first := by
    obtain ⟨more, same⟩ := grown.clauses
    rw [← same, List.head?_append, opens.first, Option.some_or]
  bound r mem := by
    obtain ⟨value, found, equal⟩ := opens.bound r mem
    exact ⟨value, grown.kept _ _ found, equal⟩

theorem insertClause (opens : Opens clause b) {place : Nat} (behind : 0 < place) (other : Clause) :
    Opens clause (b.insertClause place other) where
  first := by
    obtain ⟨more, same⟩ := List.head?_eq_some_iff.1 opens.first
    cases place with
    | zero => cases behind
    | succ before => rw [Builder.insertClause, same]; rfl
  bound := opens.bound

/-- A clause whose references have been bound is the first one, if there was none before it. -/
theorem start (none : b.clauses = []) (bound : ∀ r ∈ clause.references, r.IsBoundIn b.parameters) :
    Opens clause (b.addClause clause) where
  first := by rw [Builder.addClause, none]; rfl
  bound := bound

end Opens

/-- The statement of a plan begins with a clause. -/
def Plan.BeginsWith (clause : Clause) : Plan → Prop
  | .projecting b | .returning b _ => Opens clause b
  | .traversal .. | .verbatim _ => False

/-- The first line of a plan and the parameters in it. -/
theorem Plan.BeginsWith.compiled {clause : Clause} {plan : Plan} (begins : plan.BeginsWith clause) :
    (∃ rest, plan.compiled.text = "\n".intercalate (clause.text :: rest))
      ∧ ∀ r ∈ clause.references, r.IsBoundIn plan.compiled.parameters := by
  have lines {b : Builder} (opens : Opens clause b) :
      ∃ more, b.clauses.map Clause.text = clause.text :: more := by
    obtain ⟨more, same⟩ := List.head?_eq_some_iff.1 opens.first
    exact ⟨more.map Clause.text, by rw [same, List.map_cons]⟩
  cases plan with
  | projecting b =>
      obtain ⟨more, same⟩ := lines begins
      refine ⟨⟨more ++ (b.withLines ++ b.returnLines), ?_⟩, begins.bound⟩
      change "\n".intercalate b.lines = _
      rw [Builder.lines, same, List.append_assoc, List.cons_append]
  | returning b expression =>
      obtain ⟨more, same⟩ := lines begins
      refine ⟨⟨more ++ ["RETURN " ++ expression.text], ?_⟩, begins.bound⟩
      change b.textReturning expression = _
      rw [Builder.textReturning, same, List.cons_append]
  | traversal script aliases? => cases begins
  | verbatim fragment => cases begins

/-- What is written is returned by its identity, or projected behind the clauses that write it. -/
theorem projectWritten_cases {b : Builder} {ctx : Context} {root : Root} {field : Field}
    {plan : Plan} (planned : projectWritten ctx root field b = .ok plan) :
    plan = .returning b (.identity root.path)
      ∨ ∃ later, Grows b later
          ∧ (plan = .projecting later
            ∨ plan = .projecting (later.insertClause b.clauses.length (.keep root.path))) := by
  unfold projectWritten at planned
  dsimp only at planned
  split at planned
  · cases planned
    exact .inl rfl
  obtain ⟨projected, found, made⟩ := bind_eq_ok planned
  rw [projectSelection_eq ctx _ _ _ _ []] at found
  cases resolved : resolve ctx ctx.config.maxDepth root.returnType field.selections with
  | error e => rw [resolved] at found; cases found
  | ok entries =>
      rw [resolved] at found
      cases found
      cases made
      have opened := Grows.openFrame b root.path (.root false none false)
      have grown := opened.trans (.emit _ ctx.config root.path b.frames.length [] entries)
      refine .inr ⟨_, grown, ?_⟩
      split
      · exact .inr rfl
      · exact .inl rfl

theorem projectWritten_beginsWith {clause : Clause} {b : Builder} (opens : Opens clause b)
    {ctx : Context} {root : Root} {field : Field} {plan : Plan}
    (planned : projectWritten ctx root field b = .ok plan) : plan.BeginsWith clause := by
  obtain rfl | ⟨later, grown, rfl | rfl⟩ := projectWritten_cases planned
  · exact opens
  · exact opens.grow grown
  · obtain ⟨more, same⟩ := List.head?_eq_some_iff.1 opens.first
    exact (opens.grow grown).insertClause (by rw [same]; exact Nat.succ_pos _) _

/-! ## Writes find what they write -/

/-- The clause that finds what a mutation writes: a node by its identity, the nodes to connect by
theirs, or an edge by its own or by those of its ends. -/
inductive FindsWritten (path : String) : MutationShape → Clause → Prop where
  | updateNode (id : Reference) : FindsWritten path .updateNode (.findNode path id)
  | deleteNode (id : Reference) : FindsWritten path .deleteNode (.findNode path id)
  | connectEdge (source target : Reference) :
      FindsWritten path .connectEdge (.findEnds path source target)
  | updateEdge (label : String) (key : EdgeKey) :
      FindsWritten path .updateEdge (.findEdge path label key)
  | deleteEdge (label : String) (key : EdgeKey) :
      FindsWritten path .deleteEdge (.findEdge path label key)

theorem matchNode_opens (path : String) (id : Supplied) :
    ∃ r, r.supplied = id ∧ Opens (.findNode path r) (matchNode {} path id) :=
  ⟨_, rfl, .start rfl (Binding.refer {} _ id).bound⟩

theorem clauses_bindEndpoints (b : Builder) (path : String) (ends : Supplied × Supplied) :
    (bindEndpoints b path ends).2.clauses = b.clauses := by
  unfold bindEndpoints
  dsimp only
  rw [Builder.clauses_refer, Builder.clauses_refer]

theorem binding_bindEndpoints (b : Builder) (path : String) (ends : Supplied × Supplied) :
    Binding b.parameters [(bindEndpoints b path ends).1.1, (bindEndpoints b path ends).1.2]
      (bindEndpoints b path ends).2.parameters :=
  (Binding.refer b _ ends.1).append (Binding.refer _ _ ends.2)

/-- What identifies an edge is bound and not null. -/
theorem bindEdge_bound {g : Given} {root : Root} {b b' : Builder} {key : EdgeKey}
    (found : bindEdge g root b = .ok (key, b')) :
    b'.clauses = b.clauses
      ∧ ∀ r ∈ key.references, r.IsBoundIn b'.parameters ∧ r.supplied.value.isNull = false := by
  unfold bindEdge at found
  split at found
  · rename_i ends chosen
    obtain ⟨source, target⟩ := Given.isNull_endpoints chosen
    cases found
    have bound := (binding_bindEndpoints b root.path ends).bound
    refine ⟨clauses_bindEndpoints b root.path ends, ?_⟩
    obtain ⟨first, second⟩ := List.forall_mem_cons.1 bound
    exact List.forall_mem_cons.2 ⟨⟨first, source⟩,
      List.forall_mem_singleton.2 ⟨List.forall_mem_singleton.1 second, target⟩⟩
  · split at found
    · rename_i id own
      cases found
      have bound := (Binding.refer b (root.path ++ "_whereId") id).bound
      refine ⟨Builder.clauses_refer _ _ _, List.forall_mem_singleton.2 ⟨?_, ?_⟩⟩
      · exact List.forall_mem_singleton.1 bound
      · exact Given.isNull_ownId? own
    · cases found

/-- The plan of a mutation of a shape. -/
def planShape (ctx : Context) (root : Root) (field : Field) (g : Given) (typeName : String) :
    MutationShape → Except Error Plan
  | .createNode => createNode ctx root field g typeName
  | .updateNode => updateNode ctx root field g
  | .deleteNode => deleteNode ctx root g
  | .connectEdge => connectEdge ctx root field g typeName
  | .updateEdge => updateEdge ctx root field g typeName
  | .deleteEdge => deleteEdge ctx root g typeName

theorem planWrite_eq {ctx : Context} {root : Root} {field : Field} {shape : MutationShape}
    {typeName : String} (named : MutationName.classify root.name = some ⟨shape, typeName⟩)
    {g : Given} (given : Given.ofField ctx.index root field = .ok g) :
    planWrite ctx root field = planShape ctx root field g typeName shape := by
  unfold planWrite
  rw [named]
  dsimp only
  rw [given]
  cases shape <;> rfl

section Planned

variable {ctx : Context} {root : Root} {field : Field} {shape : MutationShape} {typeName : String}
  {g : Given}

/-- A write begins with the clause that finds what it writes. -/
theorem planShape_findsWritten (given : Given.ofField ctx.index root field = .ok g)
    (changes : shape ≠ .createNode) {plan : Plan}
    (planned : planShape ctx root field g typeName shape = .ok plan) :
    ∃ clause, FindsWritten root.path shape clause ∧ plan.BeginsWith clause
      ∧ ∀ r ∈ clause.references, r.supplied.value.isNull
          = (shape == .deleteNode && g.isHollow (ctx.index.identityField? root.returnType)) := by
  have edge {key : EdgeKey} {b : Builder} (found : bindEdge g root {} = .ok (key, b)) :
      let clause := Clause.findEdge root.path (writtenLabel ctx.index typeName) key
      Opens clause (b.addClause clause)
        ∧ ∀ r ∈ clause.references, r.supplied.value.isNull = false := by
    obtain ⟨none, bound⟩ := bindEdge_bound found
    exact ⟨.start none fun r mem => (bound r mem).1, fun r mem => (bound r mem).2⟩
  cases shape with
  | createNode => exact absurd rfl changes
  | updateNode =>
      obtain ⟨id, found, planned⟩ := mapError_bind_eq_ok planned
      obtain ⟨r, rfl, opens⟩ := matchNode_opens root.path id
      have set := opens.grow (.setClause _ root.path g.input (some r.supplied.name))
      refine ⟨_, .updateNode r, projectWritten_beginsWith set planned, ?_⟩
      exact List.forall_mem_singleton.2 (Given.isNull_nodeId given found)
  | deleteNode =>
      obtain ⟨id, found, planned⟩ := mapError_bind_eq_ok planned
      obtain ⟨r, rfl, opens⟩ := matchNode_opens root.path id
      cases planned
      refine ⟨_, .deleteNode r, opens.grow (.addClause _ _), ?_⟩
      exact List.forall_mem_singleton.2 (Given.isNull_nodeId given found)
  | connectEdge =>
      obtain ⟨ends, found, planned⟩ := mapError_bind_eq_ok planned
      obtain ⟨source, target⟩ := Given.isNull_endpoints found
      have opens : Opens (.findEnds root.path _ _) _ := .start
        (clauses_bindEndpoints {} root.path ends) (binding_bindEndpoints {} root.path ends).bound
      refine ⟨_, .connectEdge _ _,
        projectWritten_beginsWith (opens.grow ((Grows.referAll _ root.path _).trans
          (.addClause _ _))) planned, ?_⟩
      exact List.forall_mem_cons.2 ⟨source, List.forall_mem_singleton.2 target⟩
  | updateEdge =>
      obtain ⟨⟨key, b⟩, found, planned⟩ := mapError_bind_eq_ok planned
      obtain ⟨opens, present⟩ := edge found
      have set := opens.grow (.setClause _ root.path g.input none)
      exact ⟨_, .updateEdge _ key, projectWritten_beginsWith set planned, present⟩
  | deleteEdge =>
      obtain ⟨⟨key, b⟩, found, planned⟩ := mapError_bind_eq_ok planned
      obtain ⟨opens, present⟩ := edge found
      cases planned
      exact ⟨_, .deleteEdge _ key, opens.grow (.addClause _ _), present⟩

/-- A look-up that can only miss an argument, followed by what lacks nothing. -/
theorem missing_iff {α β : Type} {found : Except CompileError α} {next : α → Except Error β}
    {name : String}
    (missing : ∀ e, found = .error e → ∃ argument, e = .missingArgument name argument)
    (later : ∀ a, LacksNothing (next a)) :
    (∃ argument, (found.mapError Error.compile >>= next)
        = .error (.compile (.missingArgument name argument)))
      ↔ found.isOk = false := by
  cases found with
  | error e =>
      obtain ⟨argument, rfl⟩ := missing e rfl
      exact ⟨fun _ => rfl, fun _ => ⟨argument, rfl⟩⟩
  | ok a =>
      constructor
      · rintro ⟨argument, failed⟩
        exact absurd failed (later a name argument)
      · rintro ⟨⟩

/-- A write lacks an argument if and only if the arguments do not provide what it needs. -/
theorem planShape_missing_iff (changes : shape ≠ .createNode) :
    (∃ argument, planShape ctx root field g typeName shape
        = .error (.compile (.missingArgument root.name argument)))
      ↔ g.provides (ctx.index.identityField? root.returnType) shape = false := by
  have node {fallBack : Bool} (e : CompileError)
      (failed : g.nodeId ctx.index root fallBack = .error e) :
      ∃ argument, e = .missingArgument root.name argument :=
    ⟨_, Given.nodeId_error failed⟩
  have written := LacksNothing.projectWritten ctx root field
  cases shape with
  | createNode => exact absurd rfl changes
  | updateNode =>
      refine (missing_iff node fun id => written _).trans ?_
      rw [Given.isOk_nodeId, Bool.false_and, Bool.or_false]
      rfl
  | deleteNode =>
      refine (missing_iff node fun id => .ok _).trans ?_
      rw [Given.isOk_nodeId, Bool.true_and]
      rfl
  | connectEdge =>
      refine (missing_iff (fun e => Given.endpoints_error) fun ends => written _).trans ?_
      rw [Given.isOk_endpoints]
      rfl
  | updateEdge =>
      refine (missing_iff (fun e => bindEdge_error) fun found => written _).trans ?_
      rw [isOk_bindEdge]
      rfl
  | deleteEdge =>
      refine (missing_iff (fun e => bindEdge_error) fun found => .ok _).trans ?_
      rw [isOk_bindEdge]
      rfl

/-- No write without an identity: a mutation that changes what is there lacks an argument if and
only if its arguments provide no identity; otherwise its statement begins with the line that finds
what is written by identity, and every parameter in that line is bound. Such a parameter is null in
one case only: a node is deleted, and of its arguments the first that is not null is a hollow
object. -/
theorem compileRoot_findsWritten (mutation : root.kind = .mutation) (own : root.fragment? = none)
    (named : MutationName.classify root.name = some ⟨shape, typeName⟩)
    (changes : shape ≠ .createNode) :
    ∃ g, Given.ofField ctx.index root field = .ok g
      ∧ ((∃ argument, Compiler.compileRoot ctx root field
            = .error (.compile (.missingArgument root.name argument)))
          ↔ g.provides (ctx.index.identityField? root.returnType) shape = false)
      ∧ ∀ compiled, Compiler.compileRoot ctx root field = .ok compiled →
          ∃ clause rest, FindsWritten root.path shape clause
            ∧ compiled.text = "\n".intercalate (clause.text :: rest)
            ∧ ∀ r ∈ clause.references, ∃ value,
                compiled.parameters.get? r.parameter = some value
                  ∧ (value.isNull = true ↔ shape = .deleteNode
                      ∧ g.isHollow (ctx.index.identityField? root.returnType) = true) := by
  obtain ⟨g, given⟩ := Given.exists_ofField ctx.index root field
  have compiled_eq : Compiler.compileRoot ctx root field
      = (planShape ctx root field g typeName shape).map Plan.compiled := by
    unfold Compiler.compileRoot Compiler.planRoot
    rw [own, mutation]
    dsimp only
    rw [planWrite_eq named given]
  refine ⟨g, given, ?_, fun compiled done => ?_⟩
  · rw [← planShape_missing_iff changes, compiled_eq]
    cases planShape ctx root field g typeName shape with
    | error e => simp [Except.map]
    | ok plan => simp [Except.map]
  · rw [compiled_eq] at done
    cases planned : planShape ctx root field g typeName shape with
    | error e => rw [planned] at done; cases done
    | ok plan =>
        rw [planned] at done
        cases done
        obtain ⟨clause, finds, begins, nulls⟩ := planShape_findsWritten given changes planned
        obtain ⟨⟨rest, text⟩, bound⟩ := begins.compiled
        refine ⟨clause, rest, finds, text, fun r mem => ?_⟩
        obtain ⟨value, found, equal⟩ := bound r mem
        have same : value.isNull = r.supplied.value.isNull := by
          rcases equal with rfl | equal
          · rfl
          · exact Json.isNull_eq_of_same equal
        refine ⟨value, found, ?_⟩
        rw [same, nulls r mem, Bool.and_eq_true, beq_iff_eq]

end Planned

/-- Persons who can be changed and deleted by an input object. -/
def changingIndex : Index := ⟨⟨[
  ⟨"Person", .object, [], [
    ⟨"_id", ⟨"ID", false, false⟩, [], [⟨"id", []⟩]⟩,
    ⟨"name", ⟨"String", false, false⟩, [], []⟩]⟩,
  ⟨"Change", .inputObject, [], [
    ⟨"_id", ⟨"ID", false, false⟩, [], [⟨"id", []⟩]⟩,
    ⟨"name", ⟨"String", false, false⟩, [], []⟩]⟩,
  ⟨"Removal", .inputObject, [], [⟨"name", ⟨"String", false, false⟩, [], []⟩]⟩,
  ⟨"Query", .object, [], [⟨"person", ⟨"Person", false, false⟩, [], []⟩]⟩,
  ⟨"Mutation", .object, [], [
    ⟨"updateNodePerson", ⟨"Person", false, false⟩,
      [⟨"input", ⟨"Change", false, false⟩, none, []⟩], []⟩,
    ⟨"deleteNodePerson", ⟨"Boolean", false, false⟩,
      [⟨"input", ⟨"Removal", false, false⟩, none, []⟩], []⟩]⟩]⟩⟩

/-- Changes the name of the person of an identity. -/
def changeField : Field :=
  ⟨none, "updateNodePerson", [("input", .object [("_id", .string "5"), ("name", .string "Bo")])],
    [.field none "name" [] []]⟩

theorem compileRoot_findsWritten_change :
    ∃ root g compiled, changingIndex.root "updateNodePerson" = .ok root
      ∧ Given.ofField changingIndex root changeField = .ok g
      ∧ Compiler.compileRoot ⟨changingIndex, {}, []⟩ root changeField = .ok compiled
      ∧ g.provides (changingIndex.identityField? root.returnType) .updateNode ≠ false
      ∧ ∃ clause rest, FindsWritten root.path .updateNode clause
          ∧ compiled.text = "\n".intercalate (clause.text :: rest)
          ∧ ∀ r ∈ clause.references, ∃ value,
              compiled.parameters.get? r.parameter = some value ∧ value.isNull = false := by
  have shape : ((changingIndex.root "updateNodePerson").toOption.any fun root =>
      (root.kind == .mutation && root.fragment?.isNone
        && MutationName.classify root.name == some ⟨.updateNode, "Person"⟩)
      && (Compiler.compileRoot ⟨changingIndex, {}, []⟩ root changeField).toOption.isSome)
      = true := by
    decide +kernel
  obtain ⟨root, looked, shape⟩ := exists_ok_of_any shape
  simp only [Bool.and_eq_true, beq_iff_eq, Option.isNone_iff_eq_none] at shape
  obtain ⟨⟨⟨mutation, own⟩, named⟩, done⟩ := shape
  obtain ⟨g, given, missing, finds⟩ := @compileRoot_findsWritten ⟨changingIndex, {}, []⟩ root
    changeField .updateNode "Person" mutation own named (by decide)
  cases compiled : Compiler.compileRoot ⟨changingIndex, {}, []⟩ root changeField with
  | error e => rw [compiled] at done; cases done
  | ok statement =>
      obtain ⟨clause, rest, found, text, bound⟩ := finds statement compiled
      refine ⟨root, g, statement, looked, given, compiled, ?_, clause, rest, found, text,
        fun r mem => ?_⟩
      · intro lacking
        obtain ⟨argument, failed⟩ := missing.2 lacking
        cases compiled.symm.trans failed
      · obtain ⟨value, known, null⟩ := bound r mem
        refine ⟨value, known, ?_⟩
        cases empty : value.isNull with
        | false => rfl
        | true => cases (null.1 empty).1

/-- Deletes a person by an object without a value. -/
def hollowDeletion : String :=
  "mutation \x7bdeleteNodePerson(input: \x7bname: null\x7d)\x7d"

/-- What the deletion compiles to. -/
def hollowStatement : String :=
  "MATCH (deleteNodePerson_Boolean) WHERE ID(deleteNodePerson_Boolean)"
    ++ " = $deleteNodePerson_Boolean_whereId\nDETACH DELETE deleteNodePerson_Boolean\nRETURN true"

/-- A deletion by a hollow object compiles, and the identity it asks for is null. -/
theorem deletion_binds_null :
    ∃ compiled, Compiler.compile ⟨changingIndex, {}⟩ hollowDeletion [] none = .ok compiled
      ∧ compiled.text = hollowStatement
      ∧ compiled.parameters.get? "deleteNodePerson_Boolean_whereId" = some .null := by
  have shape : ((Compiler.compile ⟨changingIndex, {}⟩ hollowDeletion [] none).toOption.any
      fun compiled => compiled.text == hollowStatement
        && (compiled.parameters.get? "deleteNodePerson_Boolean_whereId").any (·.isNull))
      = true := by
    decide +kernel
  obtain ⟨compiled, done, shape⟩ := exists_ok_of_any shape
  rw [Bool.and_eq_true, beq_iff_eq] at shape
  obtain ⟨value, bound, null⟩ := (Option.any_eq_true _ _).1 shape.2
  refine ⟨compiled, done, shape.1, ?_⟩
  rw [bound]
  cases value with
  | null => rfl
  | _ => cases null

end GraphBridge.Compile
