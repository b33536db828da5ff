import GraphBridge.Proofs.Alike
import GraphBridge.Proofs.Identity
import GraphBridge.Proofs.Outcome
import GraphBridge.Proofs.Overrides

/-!
# Comments in override fragments

A schema is compared with the one in which every comment of an override fragment is replaced by a
blank. Compiling an operation against both fails alike or comes to statements alike, as long as the
arguments that are put into a fragment neither open nor close a comment in it. The statements have
the same words, unless a fragment ends in a comment and there is more of the line behind it: that is
then part of the comment.
-/

namespace GraphBridge

/-! ## Outlines -/

/-- A fault without the text that it quotes. -/
def FragmentFault.outline : FragmentFault → FragmentFault
  | .notAVariable _ => .notAVariable ""
  | fault => fault

/-- A failed compilation without the text that it quotes. -/
def CompileError.outline : CompileError → CompileError
  | .invalidFragment fieldName fault => .invalidFragment fieldName fault.outline
  | e => e

/-- A failure without the text that it quotes from a fragment. -/
def Error.outline : Error → Error
  | .compile cause => .compile cause.outline
  | e => e

theorem outline_compile {e e' : CompileError} (same : e.outline = e'.outline) :
    (Error.compile e).outline = (Error.compile e').outline :=
  congrArg Error.compile same

end GraphBridge

namespace GraphBridge.Compile

open Operation Query Schema Statement

/-! ## Fragments -/

/-- The text of an override with its comments replaced by blanks; a traversal script stays. -/
def uncommented (text : String) : String :=
  if isTraversal text then text else withoutComments text

/-- The text of an override with arguments put in. -/
def filled (arguments : Table Json) (text : String) : String :=
  substitute text fun name => (arguments.get? name).map rawText

/-- Whether arguments neither open nor close a comment in the text of an override: it makes no
difference whether its comments are removed before or after they are put in. -/
def leavesComments (arguments : Table Json) (text : String) : Bool :=
  isTraversal text
    || filled arguments (withoutComments text) == withoutComments (filled arguments text)

theorem withoutComments_of_error {text : String} {fault : Unterminated}
    (lexed : Fragment.ofText text = .error fault) : withoutComments text = text := by
  unfold Fragment.ofText at lexed
  unfold withoutComments
  cases found : tokenize text with
  | error fault => rfl
  | ok tokens =>
      rw [found] at lexed
      cases lexed

/-- A fragment beside the one without its comments. -/
structure Uncommented (f g : Fragment) : Prop where
  alike : f.Alike g
  free : g = f ∨ ∀ t ∈ g.tokens, t.kind ≠ .comment

theorem fragmentFor_uncommented {field : Field} {text : String}
    (leaves : leavesComments field.arguments text = true) :
    SameOutcome CompileError.outline Uncommented (fragmentFor field text)
      (fragmentFor field (uncommented text)) := by
  have made (text : String) : fragmentFor field text
      = (Fragment.ofText (filled field.arguments text)).mapError
          fun fault => .invalidFragment field.name (.openQuote fault) := rfl
  have texts : filled field.arguments (uncommented text) = filled field.arguments text
      ∨ filled field.arguments (uncommented text)
        = withoutComments (filled field.arguments text) := by
    rw [leavesComments, Bool.or_eq_true, beq_iff_eq] at leaves
    unfold uncommented
    split
    · exact .inl rfl
    · exact .inr (leaves.resolve_left ‹_›)
  rw [made, made]
  cases lexed : Fragment.ofText (filled field.arguments text) with
  | error fault =>
      rw [withoutComments_of_error lexed, or_self] at texts
      rw [texts, lexed]
      exact .error rfl
  | ok f =>
      rcases texts with same | same
      · have laid := (Fragment.laid_of_ofText lexed).1
        rw [same, lexed]
        exact .ok ⟨⟨rfl, laid, laid, id⟩, .inl rfl⟩
      · obtain ⟨g, lexed', alike, free⟩ := Fragment.exists_withoutComments lexed
        rw [same, lexed']
        exact .ok ⟨alike, .inr free⟩

theorem splitFor_uncommented (field : Field) {f g : Fragment} (same : Uncommented f g) :
    SameOutcome CompileError.outline
      (fun parts others => parts.1.Alike others.1 ∧ parts.2.Alike others.2)
      (splitFor field f) (splitFor field g) := by
  have sides := same.alike.splitReturn same.free
  unfold splitFor
  generalize f.splitReturn = parts?, g.splitReturn = others? at sides
  cases sides with
  | none => exact .error rfl
  | some sides => exact .ok sides

theorem returnedVariable_alike (field : Field) {tail tail' : Fragment} (tails : tail.Alike tail') :
    SameOutcome CompileError.outline Eq (returnedVariable field tail)
      (returnedVariable field tail') := by
  unfold returnedVariable
  rw [Fragment.answer_of_layout Fragment.soleVariable_core tails.layout]
  split
  · exact .ok rfl
  · exact .error rfl

theorem boundVariables_alike {f g : Fragment} (alike : f.Alike g) :
    f.boundVariables = g.boundVariables :=
  Fragment.answer_of_layout Fragment.boundVariables_core alike.layout

/-! ## Resolved selections -/

/-- A context with the comments of its override fragments removed. -/
def Context.withoutComments (ctx : Context) : Context :=
  { ctx with index := ctx.index.mapOverrides uncommented }

/-- A descriptor whose override keeps its comments apart from the arguments. -/
def DescribesSteady (arguments : Table Json) (d : FieldDescriptor) : Prop :=
  ∀ text, d.mapping = .overridden text → leavesComments arguments text = true

theorem resolveScalar_uncommented {d : FieldDescriptor} {field : Field}
    (steady : DescribesSteady field.arguments d) :
    SameOutcome CompileError.outline Scalar.Alike (resolveScalar d field)
      (resolveScalar (d.mapOverride uncommented) field) := by
  unfold resolveScalar FieldDescriptor.mapOverride
  cases mapped : d.mapping with
  | identity => exact .ok .identity
  | plain | relationship _ _ => exact .ok (.property _)
  | overridden text =>
      refine (fragmentFor_uncommented (steady text mapped)).bind fun f g _ _ same => ?_
      refine (splitFor_uncommented field same).bind fun parts others _ _ sides => ?_
      rw [boundVariables_alike same.alike]
      exact .ok (.override _ sides.1 sides.2)

theorem resolveReach_uncommented {ctx : Context} {d : FieldDescriptor} {field : Field}
    (steady : DescribesSteady field.arguments d) :
    SameOutcome Error.outline Reach.Alike (resolveReach ctx d field)
      (resolveReach ctx.withoutComments (d.mapOverride uncommented) field) := by
  have wraps (e e' : CompileError) := @outline_compile e e'
  unfold resolveReach
  have label := ctx.index.label_mapOverrides uncommented d.graphType
  refine .bind (.of_eq (congrArg (Except.mapError Error.schema) label.symm)) ?_
  rintro label _ - - rfl
  unfold FieldDescriptor.mapOverride
  cases mapped : d.mapping with
  | plain | identity => exact .error rfl
  | relationship edgeType direction =>
      have supplied := suppliedByArguments_mapOverrides uncommented ctx.index d.arguments
        field.arguments
      refine .bind (.of_eq (congrArg (Except.mapError Error.schema) supplied.symm)) ?_
      rintro supplied _ - - rfl
      have identity := ctx.index.identityField?_mapOverrides uncommented d.graphType
      rw [Context.withoutComments, identity]
      exact .ok (.relationship ..)
  | overridden text =>
      refine ((fragmentFor_uncommented (steady text mapped)).mapError wraps).bind
        fun f g _ _ same => ?_
      refine ((splitFor_uncommented field same).mapError wraps).bind
        fun parts others _ _ sides => ?_
      refine ((returnedVariable_alike field sides.2).mapError wraps).bind ?_
      rintro returned _ - - rfl
      rw [boundVariables_alike same.alike]
      exact .ok (.override _ _ sides.1)

/-- Entries with the same actions, apart from comments. -/
def EntriesAlike (entries others : List Entry) : Prop :=
  List.Forall₂ Action.Alike (actionsOf entries) (actionsOf others)

theorem entriesAlike_of_forall₂ {entries others : List Entry}
    (each : List.Forall₂ (fun e e' => List.Forall₂ Action.Alike e.actions e'.actions)
      entries others) :
    EntriesAlike entries others := by
  induction each with
  | nil => exact .nil
  | cons first _ ih => exact List.rel_append first ih

theorem resolveField_uncommented {ctx : Context} {inner inner' : Resolves} {typeName : String}
    {field : Field}
    (steady : ∀ d, ctx.index.field typeName field.name = .ok d → DescribesSteady field.arguments d)
    (inside : ∀ typeName, SameOutcome Error.outline EntriesAlike (inner typeName field.selections)
      (inner' typeName field.selections)) :
    SameOutcome Error.outline (fun e e' => List.Forall₂ Action.Alike e.actions e'.actions)
      (resolveField ctx inner typeName field)
      (resolveField ctx.withoutComments inner' typeName field) := by
  unfold resolveField
  split
  · exact .ok (.cons (.scalar _ (.typeName _)) .nil)
  have described : SameOutcome Error.outline
      (fun d d' => ctx.index.field typeName field.name = .ok d ∧ d' = d.mapOverride uncommented)
      ((ctx.index.field typeName field.name).mapError Error.schema)
      ((ctx.withoutComments.index.field typeName field.name).mapError Error.schema) := by
    rw [Context.withoutComments, ctx.index.field_mapOverrides]
    cases ctx.index.field typeName field.name with
    | error e => exact .error rfl
    | ok d => exact .ok ⟨rfl, rfl⟩
  refine described.bind ?_
  rintro d _ - - ⟨found, rfl⟩
  cases object : d.isObject with
  | true =>
      simp only [FieldDescriptor.mapOverride, object, if_true]
      refine (resolveReach_uncommented (steady d found)).bind fun reach reach' _ _ reaches => ?_
      refine (inside d.graphType).bind fun entries others _ _ same => ?_
      exact .ok (.cons (.enter _ _ reaches) (List.rel_append same (.cons (.leave _) .nil)))
  | false =>
      simp only [FieldDescriptor.mapOverride, object]
      refine ((resolveScalar_uncommented (steady d found)).mapError
        fun _ _ => outline_compile).bind fun value value' _ _ values => ?_
      exact .ok (.cons (.scalar _ values) .nil)

/-- Selections are resolved alike with and without comments. -/
theorem resolve_uncommented {o : Origin} {ctx : Context} (known : ctx.fragments = o.fragments)
    (steady : ∀ path f, o.Stands path f → ∀ typeName d, ctx.index.field typeName f.name = .ok d →
      DescribesSteady f.arguments d)
    {levels : Nat} {typeName path : String} {selections : List Selection}
    (inside : ∀ g, Selects o.fragments selections g → o.Stands (path ++ "_" ++ g.responseKey) g) :
    SameOutcome Error.outline EntriesAlike (resolve ctx levels typeName selections)
      (resolve ctx.withoutComments levels typeName selections) := by
  induction levels generalizing path typeName selections with
  | zero => exact .error rfl
  | succ levels ih =>
      unfold resolve
      refine .bind (.of_eq rfl) ?_
      rintro fields _ collected - rfl
      have collected := eq_ok_of_mapError collected
      rw [known] at collected
      have occurs := occurs_groupFields fun f mem =>
        (inside f (Selects.of_collectFields collected f mem)).occurs
      refine (SameOutcome.mapM fun f grouped => ?_).imp fun _ _ => entriesAlike_of_forall₂
      obtain ⟨g, standing, -, name, same⟩ := (occurs f grouped).standing
      refine resolveField_uncommented (fun d found => ?_) fun _ => ih (occurs f grouped).inner
      rw [← name] at found
      exact same ▸ steady _ g standing typeName d found

/-! ## Plans -/

theorem alike_limitRows {b c : Builder} (alike : b.Alike c) (root : Root) :
    (limitRows b root).Alike (limitRows c root) := by
  unfold limitRows
  split
  · exact alike.addClause (.cons (.own _) .nil)
  · exact alike

theorem alike_final {start start' : Builder} (alike : start.Alike start') (path : String)
    (closing : Closing) {entries others : List Entry} (same : EntriesAlike entries others)
    (config : Config) :
    ((RootProjection.mk start path closing entries).final config).Alike
      ((RootProjection.mk start' path closing others).final config) := by
  have opened : State.Alike ⟨start.openFrame path closing, [(0, path)]⟩
      ⟨start'.openFrame path closing, [(0, path)]⟩ := ⟨alike.openFrame path closing, rfl⟩
  exact (opened.run config same).builder

/-- Whether the selection of a root field is resolved alike with and without comments. -/
def ResolvesAlike (ctx : Context) (root : Root) (field : Field) : Prop :=
  SameOutcome Error.outline EntriesAlike
    (resolve ctx ctx.config.maxDepth root.returnType field.selections)
    (resolve ctx.withoutComments ctx.config.maxDepth root.returnType field.selections)

section

variable {ctx : Context} {root : Root} {field : Field} {start start' : Builder}

theorem projectRoot_uncommented (resolved : ResolvesAlike ctx root field)
    (unframed : Unframed start) (unframed' : Unframed start') (alike : start.Alike start') :
    SameOutcome Error.outline Plan.Alike (projectRoot ctx root field start)
      (projectRoot ctx.withoutComments root field start') := by
  rw [projectRoot_eq unframed, projectRoot_eq unframed']
  exact resolved.map fun entries others same =>
    .projecting (alike_final (alike_limitRows alike root) _ _ same ctx.config)

theorem projectWritten_uncommented (resolved : ResolvesAlike ctx root field)
    (unframed : Unframed start) (alike : start.Alike start) :
    SameOutcome Error.outline Plan.Alike (projectWritten ctx root field start)
      (projectWritten ctx.withoutComments root field start) := by
  have projected : SameOutcome Error.outline Builder.Alike
      (projectSelection ctx ctx.config.maxDepth root.returnType root.path start.frames.length
        field.selections (start.openFrame root.path (.root false none false)))
      (projectSelection ctx.withoutComments ctx.config.maxDepth root.returnType root.path
        start.frames.length field.selections
        (start.openFrame root.path (.root false none false))) := by
    have second := projectSelection_root unframed ctx.withoutComments root field
      (.root false none false)
    rw [projectSelection_root unframed ctx root field (.root false none false)]
    refine second ▸ resolved.map fun entries others same => ?_
    exact alike_final alike _ _ same ctx.config
  unfold projectWritten
  by_cases none : (field.selections.isEmpty || !root.returnsObject) = true
  · rw [if_pos none, if_pos none]
    exact .ok (.returning alike (.cons (.own _) .nil))
  · rw [if_neg none, if_neg none]
    refine projected.bind fun b c _ _ same => .ok (.projecting ?_)
    rw [same.clauses.length_eq]
    split
    · exact same.insertClause _ (.cons (.own _) .nil)
    · exact same

theorem planRead_uncommented (resolved : ResolvesAlike ctx root field) :
    SameOutcome Error.outline Plan.Alike (planRead ctx root field)
      (planRead ctx.withoutComments root field) := by
  unfold planRead
  by_cases scalar : (!root.returnsObject) = true
  · rw [if_pos scalar, if_pos scalar]
    exact .error rfl
  rw [if_neg scalar, if_neg scalar]
  by_cases none : field.selections.isEmpty = true
  · rw [if_pos none, if_pos none]
    exact .error rfl
  rw [if_neg none, if_neg none]
  have supplied := suppliedByArguments_mapOverrides uncommented ctx.index root.arguments
    field.arguments
  have identity := ctx.index.identityField?_mapOverrides uncommented root.returnType
  refine .bind (.of_eq (congrArg (Except.mapError Error.schema) supplied.symm)) ?_
  rintro supplied _ - - rfl
  rw [show ctx.withoutComments.index.identityField? root.returnType
    = ctx.index.identityField? root.returnType from identity]
  exact projectRoot_uncommented resolved ((Unframed.empty.referAll _ _).addClause _)
    ((Unframed.empty.referAll _ _).addClause _)
    ((Builder.Alike.empty.referAll _ _).2.addClause (.cons (.own _) .nil))

theorem alike_of_unframed {b : Builder} (unframed : Unframed b) (none : b.clauses = []) :
    b.Alike b := by
  refine ⟨?_, ?_, rfl, rfl, rfl⟩
  · rw [none]
    exact .nil
  · rw [unframed.frames]
    exact .nil

theorem alike_setClause {b : Builder} (alike : b.Alike b) (path : String) (input : List Supplied)
    (skipped? : Option String) :
    (setClause b path input skipped?).Alike (setClause b path input skipped?) := by
  obtain ⟨supplied, -, ⟨-, same⟩ | ⟨-, same⟩⟩ := setClause_cases b path input skipped?
  · rw [same]
    exact (alike.referAll path supplied).2
  · rw [same]
    exact (alike.referAll path supplied).2.addClause (.cons (.own _) .nil)

theorem planWrite_uncommented (resolved : ResolvesAlike ctx root field) :
    SameOutcome Error.outline Plan.Alike (planWrite ctx root field)
      (planWrite ctx.withoutComments root field) := by
  have given := ofField_mapOverrides uncommented ctx.index root field
  have label (typeName : String) : writtenLabel ctx.withoutComments.index typeName
      = writtenLabel ctx.index typeName := writtenLabel_mapOverrides uncommented ctx.index typeName
  have found {id : Supplied} : (matchNode {} root.path id).Alike (matchNode {} root.path id) :=
    (Builder.Alike.empty.refer _ id).2.addClause (.cons (.own _) .nil)
  have identified (g : Given) (fallBack : Bool) : g.nodeId ctx.withoutComments.index root fallBack
      = g.nodeId ctx.index root fallBack := by
    have identity := ctx.index.identityField?_mapOverrides uncommented root.returnType
    unfold Given.nodeId
    rw [Context.withoutComments, identity]
  unfold planWrite
  split
  · exact .error rfl
  rename_i shape typeName _
  refine .bind (.of_eq (congrArg (Except.mapError Error.schema) given.symm)) ?_
  rintro g _ - - rfl
  cases shape with
  | createNode =>
      unfold createNode
      rw [label]
      exact projectWritten_uncommented resolved ((Unframed.empty.referAll _ _).addClause _)
        ((Builder.Alike.empty.referAll _ _).2.addClause (.cons (.own _) .nil))
  | updateNode =>
      unfold updateNode
      rw [identified]
      refine .bind (.of_eq rfl) ?_
      rintro id _ - - rfl
      exact projectWritten_uncommented resolved ((Unframed.empty.matchNode _ _).setClause _ _ _)
        (alike_setClause found _ _ _)
  | deleteNode =>
      unfold deleteNode
      rw [identified]
      refine .bind (.of_eq rfl) ?_
      rintro id _ - - rfl
      refine .ok (.returning ?_ (.cons (.own _) .nil))
      exact found.addClause (.cons (.own _) .nil)
  | connectEdge =>
      unfold connectEdge
      refine .bind (.of_eq rfl) ?_
      rintro ends _ - - rfl
      rw [label]
      have ends := Unframed.empty.bindEndpoints root.path ends
      have bound := alike_of_unframed ends (clauses_bindEndpoints _ _ _)
      refine projectWritten_uncommented resolved (((ends.addClause _).referAll _ _).addClause _) ?_
      refine Builder.Alike.addClause (Builder.Alike.referAll ?_ _ _).2 (.cons (.own _) .nil)
      exact bound.addClause (.cons (.own _) .nil)
  | updateEdge =>
      unfold updateEdge
      refine .bind (.of_eq rfl) ?_
      rintro ⟨key, b⟩ _ edge - rfl
      have edge := eq_ok_of_mapError edge
      have unframed := Unframed.empty.bindEdge edge
      have bound := alike_of_unframed unframed (bindEdge_bound edge).1
      dsimp only
      rw [label]
      refine projectWritten_uncommented resolved ((unframed.addClause _).setClause _ _ _)
        (alike_setClause ?_ _ _ _)
      exact bound.addClause (.cons (.own _) .nil)
  | deleteEdge =>
      unfold deleteEdge
      refine .bind (.of_eq rfl) ?_
      rintro ⟨key, b⟩ _ edge - rfl
      have edge := eq_ok_of_mapError edge
      have bound := alike_of_unframed (Unframed.empty.bindEdge edge) (bindEdge_bound edge).1
      dsimp only
      rw [label]
      refine .ok (.returning (Builder.Alike.addClause ?_ ?_) (.cons (.own _) .nil))
      · exact bound.addClause (.cons (.own _) .nil)
      · exact .cons (.own _) .nil

theorem planTraversal_uncommented (ctx : Context) (root : Root) (field : Field) (text : String) :
    SameOutcome Error.outline Plan.Alike (planTraversal ctx root field text)
      (planTraversal ctx.withoutComments root field text) := by
  have aliases : ctx.withoutComments.index.aliasMap root.returnType
      = ctx.index.aliasMap root.returnType := ctx.index.aliasMap_mapOverrides uncommented _
  unfold planTraversal
  rw [aliases]
  dsimp only
  split
  · refine .bind (.of_eq rfl) ?_
    rintro aliases? _ - - rfl
    exact .ok (.traversal _ _)
  · exact .ok (.traversal _ _)

theorem rootBody_uncommented (field : Field) {f g : Fragment} (same : Uncommented f g) :
    SameOutcome CompileError.outline (fun found other => found.1.Alike other.1 ∧ found.2 = other.2)
      (rootBody field f) (rootBody field g) := by
  have mentions : f.mentions "this" = g.mentions "this" :=
    @Fragment.answer_of_layout _ (·.mentions "this") (·.mentions_core "this") _ _ same.alike.layout
  have sides := same.alike.splitReturn same.free
  unfold rootBody
  rw [mentions]
  generalize f.splitReturn = parts?, g.splitReturn = others? at sides
  cases sides with
  | none =>
      dsimp only
      split
      · exact .ok ⟨same.alike, rfl⟩
      · exact .error rfl
  | some sides =>
      refine (returnedVariable_alike field sides.2).bind ?_
      rintro returned _ - - rfl
      exact .ok ⟨sides.1, rfl⟩

theorem alike_inlinedRoot (path : String) {body body' : Fragment} (bodies : body.Alike body')
    (returned? : Option String) :
    (inlinedRoot path body returned?).Alike (inlinedRoot path body' returned?) := by
  unfold inlinedRoot
  dsimp only
  rw [isEmpty_renamed bodies]
  split
  · exact Builder.Alike.empty
  · exact Builder.Alike.empty.addClause (alike_inlined false bodies _)

/-- Whether a root override keeps its comments apart from the arguments, and is no traversal script
behind a comment. -/
def keepsLanguage (arguments : Table Json) (text : String) : Bool :=
  leavesComments arguments text && (isTraversal text || !isTraversal (withoutComments text))

theorem planOverride_uncommented (resolved : ResolvesAlike ctx root field) {text : String}
    (keeps : keepsLanguage field.arguments text = true) :
    SameOutcome Error.outline Plan.Alike (planOverride ctx root field text)
      (planOverride ctx.withoutComments root field (uncommented text)) := by
  have wraps (e e' : CompileError) := @outline_compile e e'
  rw [keepsLanguage, Bool.and_eq_true, Bool.or_eq_true, Bool.not_eq_true'] at keeps
  obtain ⟨leaves, language⟩ := keeps
  unfold planOverride
  by_cases traversal : isTraversal text = true
  · rw [uncommented, if_pos traversal, if_pos traversal, if_pos traversal]
    exact planTraversal_uncommented ctx root field text
  have changed : isTraversal (uncommented text) = false := by
    rw [uncommented, if_neg traversal]
    exact language.resolve_left traversal
  rw [changed, if_neg traversal, if_neg Bool.false_ne_true]
  refine ((fragmentFor_uncommented leaves).mapError wraps).bind fun f g _ _ same => ?_
  by_cases whole : (!root.returnsObject || field.selections.isEmpty) = true
  · rw [if_pos whole, if_pos whole]
    exact .ok (.verbatim _ same.alike)
  rw [if_neg whole, if_neg whole]
  refine ((rootBody_uncommented field same).mapError wraps).bind ?_
  rintro ⟨body, returned?⟩ ⟨body', _⟩ - - ⟨bodies, rfl⟩
  exact projectRoot_uncommented resolved (unframed_inlinedRoot _ _ _) (unframed_inlinedRoot _ _ _)
    (alike_inlinedRoot root.path bodies returned?)

/-- A root field is planned alike with and without comments. -/
theorem planRoot_uncommented (resolved : ResolvesAlike ctx root field)
    (keeps : ∀ text, root.fragment? = some text → keepsLanguage field.arguments text = true) :
    SameOutcome Error.outline Plan.Alike (Compiler.planRoot ctx root field)
      (Compiler.planRoot ctx.withoutComments (root.mapOverride uncommented) field) := by
  unfold Compiler.planRoot
  rw [Root.mapOverride]
  cases overridden : root.fragment? with
  | some text => exact planOverride_uncommented resolved (keeps text overridden)
  | none =>
      cases kind : root.kind with
      | mutation => exact planWrite_uncommented resolved
      | query => exact planRead_uncommented resolved

end

namespace Compiler

/-- A compiler for the schema without the comments in its override fragments. -/
def withoutComments (c : Compiler) : Compiler :=
  { c with index := c.index.mapOverrides uncommented }

/-- Whether the arguments of an operation neither open nor close comments in overrides, and no
override of its root field is a traversal script behind a comment. -/
def keepsComments (c : Compiler) (operation : Operation) : Bool :=
  (fields operation).all (fun f => (c.index.overridesOf f.name).all (leavesComments f.arguments))
    && operation.rootField?.all fun f =>
      (c.index.overridesOf f.name).all fun text =>
        isTraversal text || !isTraversal (Query.withoutComments text)

/-- Whether the lines of the statement settle, if there is one. -/
def settles (c : Compiler) (document : Operation.Document) (name? : Option String) : Bool :=
  (c.planDocument document name?).toOption.all Plan.settles

/-- Whether the fragments with something behind them on their lines end in words. -/
def endsInWords (c : Compiler) (document : Operation.Document) (name? : Option String) : Bool :=
  (c.planDocument document name?).toOption.all Plan.endsInWords

variable {c : Compiler} {document : Operation.Document} {name? : Option String}

theorem planDocument_uncommented
    (keeps : ∀ operation ∈ document.operation? name?, c.keepsComments operation = true) :
    SameOutcome Error.outline Plan.Alike (c.planDocument document name?)
      (c.withoutComments.planDocument document name?) := by
  unfold planDocument
  dsimp only
  cases selected : document.operation? name? with
  | none => exact .error rfl
  | some operation =>
      dsimp only
      cases first : operation.rootField? with
      | none => exact .error rfl
      | some field =>
          have keeps := keeps operation selected
          simp only [keepsComments, first, Bool.and_eq_true, List.all_eq_true, Option.all_some]
            at keeps
          obtain ⟨leaves, scripts⟩ := keeps
          dsimp only
          rw [withoutComments, c.index.root_mapOverrides]
          cases found : c.index.root field.name with
          | error e => exact .error rfl
          | ok root =>
              have resolved : ResolvesAlike ⟨c.index, c.config, operation.fragments⟩
                  { root with limit? := limitOf? field.arguments } field :=
                resolve_uncommented (o := ⟨operation.fragments, root.path, field⟩) rfl
                  (fun path f stands typeName d described text overridden =>
                    leaves f (stands.mem_fields first).1 text
                      (Index.mem_overridesOf_field described overridden))
                  fun g selected => .inner .root selected
              refine planRoot_uncommented resolved fun text overridden => ?_
              have stands : Origin.Stands ⟨operation.fragments, root.path, field⟩ root.path field :=
                .root
              have known := Index.mem_overridesOf_root found overridden
              rw [keepsLanguage, Bool.and_eq_true]
              exact ⟨leaves field (stands.mem_fields first).1 text known, scripts text known⟩

/-- Comments in override fragments have no effect unless a line goes on behind one: with each comment
replaced by a blank an operation fails alike, or comes to the same statement but for its text; and
the texts have the same words, if the lines settle without comments and no comment ends a fragment
that has something behind it. -/
theorem compileDocument_withoutComments
    (keeps : ∀ operation ∈ document.operation? name?, c.keepsComments operation = true) :
    SameOutcome Error.outline
      (fun compiled other => compiled.Alike other
        ∧ (c.endsInWords document name? = true → c.withoutComments.settles document name? = true →
          SameWords compiled.text other.text))
      (c.compileDocument document name?) (c.withoutComments.compileDocument document name?) := by
  have planned := planDocument_uncommented keeps
  rw [compileDocument_eq, compileDocument_eq, settles, endsInWords]
  generalize c.planDocument document name? = plan?,
    c.withoutComments.planDocument document name? = other? at planned
  cases planned with
  | error same => exact .error same
  | ok alike => exact .ok ⟨alike.compiled, alike.sameWords⟩

/-- Persons whose age is what an override says. -/
def agedCompiler (override : String) : Compiler where
  index := ⟨⟨[
    ⟨"Person", .object, [], [
      ⟨"age", ⟨"Int", false, false⟩, [], [⟨"cypher", [("statement", .string override)]⟩]⟩]⟩,
    ⟨"Query", .object, [], [⟨"person", ⟨"Person", false, false⟩, [], []⟩]⟩]⟩⟩
  config := {}

/-- The age of a person. -/
def agedDocument : Operation.Document :=
  ⟨[⟨none, .query, [.field none "person" [] [.field none "age" [] []]], []⟩]⟩

/-- The statements with and without comments, with what can be checked of them. -/
theorem exists_statements {c : Compiler} {check : Compiled → Compiled → Bool}
    (shape : ((c.compileDocument agedDocument none).toOption.any fun compiled =>
      (c.withoutComments.compileDocument agedDocument none).toOption.any (check compiled)) = true) :
    ∃ compiled other, c.compileDocument agedDocument none = .ok compiled
      ∧ c.withoutComments.compileDocument agedDocument none = .ok other
      ∧ check compiled other = true := by
  obtain ⟨compiled, found, shape⟩ := exists_ok_of_any shape
  obtain ⟨other, found', checked⟩ := exists_ok_of_any shape
  exact ⟨compiled, other, found, found', checked⟩

theorem compileDocument_withoutComments_inside :
    let c := agedCompiler "MATCH (this)-[:born]->(y) // in years\n RETURN 2020 - y.year"
    (∀ operation ∈ agedDocument.operation? none, c.keepsComments operation = true)
      ∧ c.endsInWords agedDocument none = true
      ∧ c.withoutComments.settles agedDocument none = true
      ∧ ∃ compiled other, c.compileDocument agedDocument none = .ok compiled
        ∧ c.withoutComments.compileDocument agedDocument none = .ok other
        ∧ compiled.text ≠ other.text ∧ SameWords compiled.text other.text := by
  intro c
  have keeps : ∀ operation ∈ agedDocument.operation? none, c.keepsComments operation = true := by
    rintro operation ⟨⟩
    decide +kernel
  have ends : c.endsInWords agedDocument none = true := by decide +kernel
  have settles : c.withoutComments.settles agedDocument none = true := by decide +kernel
  obtain ⟨compiled, other, found, found', checked⟩ := @exists_statements c
    (fun compiled other => compiled.text != other.text) (by decide +kernel)
  have same := compileDocument_withoutComments keeps
  rw [found, found'] at same
  cases same with
  | ok same =>
      exact ⟨keeps, ends, settles, compiled, other, found, found', bne_iff_ne.1 checked,
        same.2 ends settles⟩

/-- A comment at the end of an override swallows what the statement has behind it. -/
theorem statement_in_comment :
    let c := agedCompiler "RETURN this.age // in years"
    (∀ operation ∈ agedDocument.operation? none, c.keepsComments operation = true)
      ∧ c.withoutComments.settles agedDocument none = true
      ∧ ∃ compiled other, c.compileDocument agedDocument none = .ok compiled
        ∧ c.withoutComments.compileDocument agedDocument none = .ok other
        ∧ compiled.language = .openCypher ∧ ¬ SameWords compiled.text other.text := by
  intro c
  have keeps : ∀ operation ∈ agedDocument.operation? none, c.keepsComments operation = true := by
    rintro operation ⟨⟩
    decide +kernel
  have settles : c.withoutComments.settles agedDocument none = true := by decide +kernel
  obtain ⟨compiled, other, found, found', checked⟩ := @exists_statements c
    (fun compiled other => compiled.language == .openCypher
      && (tokenize compiled.text).toOption.any fun tokens =>
        (tokenize other.text).toOption.any fun others => meaningful tokens != meaningful others)
    (by decide +kernel)
  rw [Bool.and_eq_true, beq_iff_eq] at checked
  obtain ⟨language, apart⟩ := checked
  refine ⟨keeps, settles, compiled, other, found, found', language, ?_⟩
  rintro ⟨tokens, others, lexed, lexed', same⟩
  rw [lexed, lexed'] at apart
  exact bne_iff_ne.1 apart same

end Compiler

end GraphBridge.Compile
