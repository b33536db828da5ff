import GraphBridge.Proofs.Collecting
import GraphBridge.Proofs.Masking

/-!
# Values are opaque

Every step of compiling commutes with a mask on the values of an operation: what it finds behind the
mask is what it finds without it, masked. The steps are taken in the order in which a document is
compiled: fields are collected and merged, arguments become conditions, selections are projected,
and the six templates of mutations look for identities and bind what is written.
-/

namespace GraphBridge.Compile

open Operation Schema Statement

/-! ## Squares -/

/-- A look-up and what follows it commute with changes of the data. -/
theorem map_bind_map {ε α α' β β' : Type} {found : Except ε α} {change : α → α'}
    {next' : α' → Except ε β'} {next : α → Except ε β} {after : β → β'}
    (each : ∀ a, found = .ok a → next' (change a) = (next a).map after) :
    (found.map change >>= next') = (found >>= next).map after := by
  cases found with
  | error e => rfl
  | ok a => exact each a rfl

theorem bind_map {ε α β β' : Type} {found : Except ε α} {next' : α → Except ε β'}
    {next : α → Except ε β} {after : β → β'}
    (each : ∀ a, found = .ok a → next' a = (next a).map after) :
    (found >>= next') = (found >>= next).map after := by
  cases found with
  | error e => rfl
  | ok a => exact each a rfl

theorem mapError_map {ε ε' α β : Type} (found : Except ε α) (change : α → β) (blame : ε → ε') :
    (found.map change).mapError blame = (found.mapError blame).map change := by
  cases found <;> rfl

/-- A loop commutes with changes of the data if every step does. -/
theorem foldlM_map_map {ε α α' β β' : Type} {step : β → α → Except ε β}
    {step' : β' → α' → Except ε β'} {change : α → α'} {after : β → β'}
    (each : ∀ b a, step' (after b) (change a) = (step b a).map after) (as : List α) (b : β) :
    (as.map change).foldlM step' (after b) = (as.foldlM step b).map after := by
  induction as generalizing b with
  | nil => rfl
  | cons a as ih =>
      rw [List.map_cons, List.foldlM_cons, List.foldlM_cons, each]
      exact map_bind_map fun b _ => ih b

theorem map_orElse {α β : Type} (change : α → β) (first second : Option α) :
    (first <|> second).map change = (first.map change <|> second.map change) := by
  cases first <;> rfl

/-! ## Collecting -/

section Collect

variable (mask : Json → Json) {typeName : String} {fragments : List FragmentDefinition}

/-- If the fields of one selection and those of the others do not depend on values, neither do the
fields of all. -/
theorem collectFields_cons_mapValues {s : Selection} {rest : List Selection}
    (own : collectFields typeName (fragments.map (FragmentDefinition.mapValues mask))
        [s.mapValues mask]
      = (collectFields typeName fragments [s]).map (List.map (Field.mapValues mask)))
    (later : collectFields typeName (fragments.map (FragmentDefinition.mapValues mask))
        (Selection.mapAll mask rest)
      = (collectFields typeName fragments rest).map (List.map (Field.mapValues mask))) :
    collectFields typeName (fragments.map (FragmentDefinition.mapValues mask))
        (Selection.mapAll mask (s :: rest))
      = (collectFields typeName fragments (s :: rest)).map (List.map (Field.mapValues mask)) := by
  rw [Selection.mapAll, collectFields_cons, collectFields_cons s rest, own, later]
  refine map_bind_map fun first _ => map_bind_map fun more _ => ?_
  rw [← List.map_append]
  rfl

/-- Which fields are selected does not depend on values. -/
theorem collectFields_mapValues (typeName : String) (fragments : List FragmentDefinition)
    (selections : List Selection) :
    collectFields typeName (fragments.map (FragmentDefinition.mapValues mask))
        (Selection.mapAll mask selections)
      = (collectFields typeName fragments selections).map (List.map (Field.mapValues mask)) := by
  induction fragments, selections using collectFields.induct typeName with
  | case1 fragments => rw [Selection.mapAll, collectFields_nil, collectFields_nil]; rfl
  | case2 fragments given? name arguments inner rest ih =>
      refine collectFields_cons_mapValues mask ?_ ih
      rw [Selection.mapValues, collectFields_field, collectFields_field]
      rfl
  | case3 fragments name rest missing =>
      rw [Selection.mapAll, Selection.mapValues, collectFields_cons, collectFields_cons _ rest,
        collectFields_spread, collectFields_spread, FragmentDefinition.find?_mapValues, missing]
      rfl
  | case4 fragments name rest f found fits ih ihInner =>
      refine collectFields_cons_mapValues mask ?_ ih
      rw [Selection.mapValues, collectFields_spread, collectFields_spread,
        FragmentDefinition.find?_mapValues, found, Option.map_some]
      have fits' : ((f.mapValues mask).condition == typeName) = true := fits
      dsimp only
      rw [if_pos fits', if_pos fits, FragmentDefinition.without_mapValues, ← ihInner]
      rfl
  | case5 fragments name rest f found misfits ih =>
      refine collectFields_cons_mapValues mask ?_ ih
      rw [Selection.mapValues, collectFields_spread, collectFields_spread,
        FragmentDefinition.find?_mapValues, found, Option.map_some]
      have misfits' : ¬ ((f.mapValues mask).condition == typeName) = true := misfits
      dsimp only
      rw [if_neg misfits', if_neg misfits]
      rfl
  | case6 fragments condition? inner rest fits ih ihInner =>
      refine collectFields_cons_mapValues mask ?_ ih
      rw [Selection.mapValues, collectFields_inlined, collectFields_inlined, if_pos fits,
        if_pos fits, ihInner]
  | case7 fragments condition? inner rest misfits ih =>
      refine collectFields_cons_mapValues mask ?_ ih
      rw [Selection.mapValues, collectFields_inlined, collectFields_inlined, if_neg misfits,
        if_neg misfits]
      rfl

theorem mergeField_mapValues (merged : List Field) (f : Field) :
    mergeField (merged.map (Field.mapValues mask)) (f.mapValues mask)
      = (mergeField merged f).map (Field.mapValues mask) := by
  induction merged with
  | nil => rfl
  | cons g rest ih =>
      have keys : ((g.mapValues mask).responseKey == (f.mapValues mask).responseKey)
          = (g.responseKey == f.responseKey) := rfl
      rw [List.map_cons, mergeField, mergeField, keys, ih]
      split
      · rw [List.map_cons]
        congr 1
        simp only [Field.mapValues, Selection.mapAll_append]
      · rfl

theorem foldl_mergeField_mapValues (fields merged : List Field) :
    (fields.map (Field.mapValues mask)).foldl mergeField (merged.map (Field.mapValues mask))
      = (fields.foldl mergeField merged).map (Field.mapValues mask) := by
  induction fields generalizing merged with
  | nil => rfl
  | cons f fields ih =>
      rw [List.map_cons, List.foldl_cons, List.foldl_cons, mergeField_mapValues, ih]

theorem selectedFields_mapValues (typeName : String) (fragments : List FragmentDefinition)
    (selections : List Selection) :
    selectedFields typeName (fragments.map (FragmentDefinition.mapValues mask))
        (Selection.mapAll mask selections)
      = (selectedFields typeName fragments selections).map (List.map (Field.mapValues mask)) := by
  unfold selectedFields
  rw [collectFields_mapValues]
  cases collectFields typeName fragments selections with
  | error e => rfl
  | ok fields => exact congrArg Except.ok (foldl_mergeField_mapValues mask fields [])

end Collect

/-! ## Arguments -/

/-- What an argument that is no object says is its value. -/
theorem suppliedByArgument_of_not_object (index : Index) (declared : List ArgumentDescriptor)
    (name : String) {value : Json} (scalar : value.isObject = false) :
    suppliedByArgument index declared name value
      = if value.isNull || name == "options" || name == "limit" then .ok []
        else .ok [⟨name, ArgumentDescriptor.find? declared name, value⟩] := by
  cases value with
  | object members => cases scalar
  | _ => rfl

section Masked

variable {mask : Json → Json} (masks : Json.IsMask mask)
include masks

theorem suppliedByArgument_mapValues (index : Index) (declared : List ArgumentDescriptor)
    (name : String) (value : Json) :
    suppliedByArgument index declared name (mask value)
      = (suppliedByArgument index declared name value).map
          (List.map (Supplied.mapValues mask)) := by
  cases object : value.isObject with
  | false =>
      have object' : (mask value).isObject = false := by rw [masks.isObject, object]
      rw [suppliedByArgument_of_not_object index declared name object,
        suppliedByArgument_of_not_object index declared name object', masks.isNull]
      split <;> rfl
  | true =>
      cases value with
      | object members =>
          rw [masks.object]
          unfold suppliedByArgument
          dsimp only
          rw [show (Json.object (Table.mapValues mask members)).isNull
            = (Json.object members).isNull from rfl]
          split
          · rfl
          split
          · split
            · exact bind_map fun inputs _ =>
                congrArg Except.ok (Supplied.ofInput_mapValues masks inputs members)
            · exact congrArg Except.ok (Supplied.ofInput_mapValues masks [] members)
          · rw [← masks.object]
            rfl
      | _ => cases object

theorem suppliedByArguments_mapValues (index : Index) (declared : List ArgumentDescriptor)
    (arguments : Table Json) :
    suppliedByArguments index declared (arguments.mapValues mask)
      = (suppliedByArguments index declared arguments).map
          (List.map (Supplied.mapValues mask)) := by
  induction arguments with
  | nil => rfl
  | cons entry rest ih =>
      obtain ⟨name, value⟩ := entry
      rw [Table.mapValues] at ih ⊢
      rw [List.map_cons, suppliedByArguments, suppliedByArguments,
        suppliedByArgument_mapValues masks, ih]
      refine map_bind_map fun first _ => map_bind_map fun more _ => ?_
      rw [← List.map_append]
      rfl

theorem filterFor_mapValues (b : Builder) (path : String) (identity? : Option String)
    (supplied : List Supplied) :
    filterFor (b.mapValues mask) path identity? (supplied.map (Supplied.mapValues mask))
      = ((filterFor b path identity? supplied).1.mapValues mask,
          (filterFor b path identity? supplied).2.mapValues mask) := by
  unfold filterFor
  rw [b.referAll_mapValues masks]
  dsimp only
  rw [List.filter_map, List.filter_map]
  rfl

/-- Limits are numbers, which a mask leaves as they are. -/
theorem limitOf?_mapValues (arguments : Table Json) :
    limitOf? (arguments.mapValues mask) = limitOf? arguments := by
  unfold limitOf?
  rw [Table.get?_mapValues, Table.get?_mapValues]
  have options : ((arguments.get? "options").map mask).bind (·.member? "limit")
      = ((arguments.get? "options").bind (·.member? "limit")).map mask := by
    cases arguments.get? "options" with
    | none => rfl
    | some options => exact masks.member? options "limit"
  dsimp only
  rw [options]
  cases (arguments.get? "options").bind (·.member? "limit") with
  | some limit => exact masks.natural? limit
  | none =>
      cases arguments.get? "limit" with
      | none => rfl
      | some limit => exact masks.natural? limit

/-! ## Projection -/

variable {ctx : Context} (plain : ctx.index.isPlain = true)

/-- What a compilation works against, with the values in fragments changed. -/
def Context.mapValues (mask : Json → Json) (ctx : Context) : Context :=
  { ctx with fragments := ctx.fragments.map (FragmentDefinition.mapValues mask) }

theorem inlineRelationship_mapValues (edgeType : String) (direction : Direction) (label : String)
    (identity? : Option String) (supplied : List Supplied) (parent child : String) (b : Builder) :
    inlineRelationship edgeType direction label identity?
        (supplied.map (Supplied.mapValues mask)) parent child (b.mapValues mask)
      = (inlineRelationship edgeType direction label identity? supplied parent child b).mapValues
          mask := by
  unfold inlineRelationship
  rw [filterFor_mapValues masks]
  obtain ⟨filter, b⟩ := filterFor b child identity? supplied
  exact Builder.addClause_mapValues mask b (.reach parent _ ⟨child, label, filter⟩)

theorem reachObject_mapValues {d : FieldDescriptor}
    (mapped : ∀ fragment, d.mapping ≠ .overridden fragment) (field : Field)
    (parent child : String) (b : Builder) :
    reachObject (ctx.mapValues mask) d (field.mapValues mask) parent child (b.mapValues mask)
      = (reachObject ctx d field parent child b).map (Builder.mapValues mask) := by
  unfold reachObject
  refine bind_map fun label _ => ?_
  split
  · rename_i edgeType direction _
    rw [show (field.mapValues mask).arguments = field.arguments.mapValues mask from rfl,
      show (ctx.mapValues mask).index = ctx.index from rfl, suppliedByArguments_mapValues masks,
      mapError_map]
    refine map_bind_map fun supplied _ => ?_
    exact congrArg Except.ok (inlineRelationship_mapValues masks ..)
  · rename_i fragment overridden
    exact absurd overridden (mapped fragment)
  · rfl
  · rfl

theorem closingOf_mapValues (d : FieldDescriptor) (field : Field) :
    closingOf d (field.mapValues mask) = closingOf d field := by
  unfold closingOf
  rw [show (field.mapValues mask).arguments = field.arguments.mapValues mask from rfl,
    limitOf?_mapValues masks]

/-- An object field projects alike behind a mask, if its selections do. -/
theorem projectObject_mapValues {inner inner' : Projects}
    (deeper : ∀ typeName path frame selections b,
      inner' typeName path frame (Selection.mapAll mask selections) (b.mapValues mask)
        = (inner typeName path frame selections b).map (Builder.mapValues mask))
    {d : FieldDescriptor} (mapped : ∀ fragment, d.mapping ≠ .overridden fragment) (field : Field)
    (parent : String) (frame : Nat) (b : Builder) :
    projectObject (ctx.mapValues mask) inner' d (field.mapValues mask) parent frame
        (b.mapValues mask)
      = (projectObject ctx inner d field parent frame b).map (Builder.mapValues mask) := by
  unfold projectObject
  dsimp only
  rw [reachObject_mapValues masks mapped, closingOf_mapValues masks]
  refine map_bind_map fun reached _ => ?_
  rw [Builder.openFrame_mapValues]
  exact (congrArg (· >>= _) (deeper d.graphType _ _ field.selections _)).trans
    (map_bind_map fun closed _ => rfl)

omit masks in
theorem projectScalar_mapValues (config : Config) {d : FieldDescriptor}
    (mapped : ∀ fragment, d.mapping ≠ .overridden fragment) (field : Field) (path : String)
    (frame : Nat) (b : Builder) :
    projectScalar config d (field.mapValues mask) path frame (b.mapValues mask)
      = (projectScalar config d field path frame b).map fun made =>
          (made.1, made.2.mapValues mask) := by
  unfold projectScalar
  split
  · rfl
  · rfl
  · rfl
  · rename_i fragment overridden
    exact absurd overridden (mapped fragment)

theorem projectField_mapValues (plain : ctx.index.isPlain = true) {inner inner' : Projects}
    (deeper : ∀ typeName path frame selections b,
      inner' typeName path frame (Selection.mapAll mask selections) (b.mapValues mask)
        = (inner typeName path frame selections b).map (Builder.mapValues mask))
    (typeName path : String) (frame : Nat) (b : Builder) (field : Field) :
    projectField (ctx.mapValues mask) inner' typeName path frame (b.mapValues mask)
        (field.mapValues mask)
      = (projectField ctx inner typeName path frame b field).map (Builder.mapValues mask) := by
  unfold projectField
  rw [show (field.mapValues mask).name = field.name from rfl,
    show (ctx.mapValues mask).index = ctx.index from rfl]
  split
  · rfl
  refine bind_map fun d looked => ?_
  have mapped := Index.field_ne_overridden plain (eq_ok_of_mapError looked)
  split
  · exact projectObject_mapValues masks deeper mapped field path frame b
  · rw [show (ctx.mapValues mask).config = ctx.config from rfl, projectScalar_mapValues _ mapped,
      mapError_map]
    exact map_bind_map fun made _ => rfl

/-- Selections project alike behind a mask, however deep. -/
theorem projectSelection_mapValues (plain : ctx.index.isPlain = true) (levels : Nat)
    (typeName path : String) (frame : Nat) (selections : List Selection) (b : Builder) :
    projectSelection (ctx.mapValues mask) levels typeName path frame
        (Selection.mapAll mask selections) (b.mapValues mask)
      = (projectSelection ctx levels typeName path frame selections b).map
          (Builder.mapValues mask) := by
  induction levels generalizing typeName path frame selections b with
  | zero => rfl
  | succ levels ih =>
      rw [projectSelection, projectSelection,
        show (ctx.mapValues mask).fragments = ctx.fragments.map (FragmentDefinition.mapValues mask)
          from rfl, selectedFields_mapValues, mapError_map]
      refine map_bind_map fun fields _ => foldlM_map_map (fun b field => ?_) fields b
      exact projectField_mapValues masks plain ih typeName path frame b field

/-! ## Reading statements -/

/-- A plan whose statement refers to changed values. -/
def Plan.mapValues (mask : Json → Json) : Plan → Plan
  | .traversal script aliases? => .traversal script aliases?
  | .verbatim fragment => .verbatim fragment
  | .projecting b => .projecting (b.mapValues mask)
  | .returning b expression => .returning (b.mapValues mask) expression

/-- A statement with the values of its parameters changed. -/
def Compiled.mapValues (mask : Json → Json) (c : Compiled) : Compiled :=
  { c with parameters := c.parameters.mapValues mask }

omit masks in
/-- The text of a statement does not depend on the values of its parameters. -/
theorem compiled_mapValues (plan : Plan) :
    (plan.mapValues mask).compiled = plan.compiled.mapValues mask := by
  cases plan with
  | traversal script aliases? => rfl
  | verbatim fragment => rfl
  | projecting b =>
      unfold Plan.compiled Plan.mapValues
      dsimp only
      rw [Builder.text_mapValues]
      rfl
  | returning b expression =>
      unfold Plan.compiled Plan.mapValues
      dsimp only
      rw [Builder.textReturning_mapValues]
      rfl

theorem projectRoot_mapValues (plain : ctx.index.isPlain = true) (root : Root) (field : Field)
    (b : Builder) :
    projectRoot (ctx.mapValues mask) root (field.mapValues mask) (b.mapValues mask)
      = (projectRoot ctx root field b).map (Plan.mapValues mask) := by
  have limited : limitRows (b.mapValues mask) root = (limitRows b root).mapValues mask := by
    unfold limitRows
    split
    · exact Builder.addClause_mapValues mask b (.limit root.path _)
    · rfl
  unfold projectRoot
  dsimp only
  rw [limited, Builder.openFrame_mapValues]
  exact (congrArg (· >>= _) (projectSelection_mapValues masks plain ..)).trans
    (map_bind_map fun b _ => rfl)

theorem planRead_mapValues (plain : ctx.index.isPlain = true) (root : Root) (field : Field) :
    planRead (ctx.mapValues mask) root (field.mapValues mask)
      = (planRead ctx root field).map (Plan.mapValues mask) := by
  unfold planRead
  rw [show (field.mapValues mask).selections.isEmpty = field.selections.isEmpty from
      Selection.isEmpty_mapAll mask field.selections,
    show (ctx.mapValues mask).index = ctx.index from rfl,
    show (field.mapValues mask).arguments = field.arguments.mapValues mask from rfl,
    suppliedByArguments_mapValues masks, mapError_map]
  dsimp only
  split
  · rfl
  split
  · rfl
  refine map_bind_map fun supplied _ => ?_
  have filtered := filterFor_mapValues masks {} root.path
    (ctx.index.identityField? root.returnType) supplied
  rw [Builder.mapValues_empty] at filtered
  rw [filtered]
  obtain ⟨filter, b⟩ := filterFor {} root.path (ctx.index.identityField? root.returnType) supplied
  dsimp only
  rw [← projectRoot_mapValues masks plain, ← Builder.addClause_mapValues]
  rfl

/-! ## Writing statements -/

/-- The arguments of a mutation, changed. -/
def Given.mapValues (mask : Json → Json) (g : Given) : Given :=
  ⟨g.field.mapValues mask, g.declared, g.input.map (Supplied.mapValues mask)⟩

theorem Given.ofField_mapValues (index : Index) (root : Root) (field : Field) :
    Given.ofField index root (field.mapValues mask)
      = (Given.ofField index root field).map (Given.mapValues mask) := by
  unfold Given.ofField
  rw [show (field.mapValues mask).arguments = field.arguments.map fun entry =>
    (entry.1, mask entry.2) from rfl, List.find?_map]
  simp only [Function.comp_def, masks.isObject]
  cases found : field.arguments.find? fun entry => entry.2.isObject with
  | none => rfl
  | some entry =>
      obtain ⟨name, value⟩ := entry
      have members : (mask value).object?.getD []
          = Table.mapValues mask (value.object?.getD []) := by
        rw [masks.object?]
        cases value.object? <;> rfl
      dsimp only [Option.map_some]
      rw [members]
      generalize (ArgumentDescriptor.find? root.arguments name).filter _ = declared?
      have given (inputs : List ArgumentDescriptor) := congrArg
        (fun input =>
          (.ok ⟨field.mapValues mask, root.arguments, input⟩ : Except SchemaError Given))
        (Supplied.ofInput_mapValues masks inputs (value.object?.getD []))
      cases declared? with
      | none => exact given []
      | some a => exact bind_map fun inputs _ => given inputs

theorem Given.scalar?_mapValues (g : Given) (a : ArgumentDescriptor) :
    (g.mapValues mask).scalar? a = (g.scalar? a).map mask := by
  unfold Given.scalar?
  rw [show (g.mapValues mask).field = g.field.mapValues mask from rfl, Field.argument?_mapValues]
  cases g.field.argument? a.name with
  | none => rfl
  | some value =>
      rw [Option.map_some, Option.filter_some, Option.filter_some, masks.isNull, masks.isObject]
      split <;> rfl

theorem Given.ownId?_mapValues (g : Given) :
    (g.mapValues mask).ownId? = g.ownId?.map (Supplied.mapValues mask) := by
  have supplied : (g.declared.filterMap fun a => ((g.mapValues mask).scalar? a).map fun value =>
        (a, value))
      = (g.declared.filterMap fun a => (g.scalar? a).map fun value => (a, value)).map
          fun entry => (entry.1, mask entry.2) := by
    rw [List.map_filterMap]
    congr 1
    funext a
    rw [scalar?_mapValues masks]
    cases g.scalar? a <;> rfl
  unfold Given.ownId?
  dsimp only
  rw [show (g.mapValues mask).declared = g.declared from rfl, supplied, List.find?_map,
    List.find?_map, ← map_orElse, Option.map_map, Option.map_map]
  rfl

omit masks in
theorem Given.inputId?_mapValues (g : Given) (identity? : Option String) :
    (g.mapValues mask).inputId? identity?
      = (g.inputId? identity?).map (Supplied.mapValues mask) := by
  unfold Given.inputId?
  rw [show (g.mapValues mask).input = g.input.map (Supplied.mapValues mask) from rfl,
    List.find?_map, List.find?_map, List.find?_map, ← map_orElse, ← map_orElse]
  rfl

theorem Given.firstValue?_mapValues (g : Given) :
    (g.mapValues mask).firstValue? = g.firstValue?.map (Supplied.mapValues mask) := by
  unfold Given.firstValue?
  rw [show (g.mapValues mask).field.arguments = g.field.arguments.map fun entry =>
    (entry.1, mask entry.2) from rfl, List.find?_map]
  simp only [Function.comp_def, masks.isNull]
  cases g.field.arguments.find? fun entry => !entry.2.isNull with
  | none => rfl
  | some entry =>
      obtain ⟨name, value⟩ := entry
      have kept := masks.isObject value
      cases value with
      | object members =>
          rw [Option.map_some, Option.map_some, Option.map_some, masks.object]
          dsimp only
          rw [Table.mapValues, List.map_map, show (Prod.snd ∘ fun entry : String × Json =>
            (entry.1, mask entry.2)) = mask ∘ Prod.snd from rfl, ← List.map_map, List.find?_map]
          simp only [Function.comp_def, masks.isNull]
          cases (members.map Prod.snd).find? fun member => !member.isNull with
          | none =>
              exact congrArg (fun value => some (⟨name, none, value⟩ : Supplied)) masks.null.symm
          | some member => rfl
      | _ =>
          dsimp only [Option.map_some, Supplied.mapValues]
          generalize mask _ = masked at kept ⊢
          cases masked with
          | object members => cases kept
          | _ => rfl

theorem Given.nodeId_mapValues (g : Given) (index : Index) (root : Root) (fallBack : Bool) :
    (g.mapValues mask).nodeId index root fallBack
      = (g.nodeId index root fallBack).map (Supplied.mapValues mask) := by
  have fallen : (if fallBack then (g.mapValues mask).firstValue? else none)
      = (if fallBack then g.firstValue? else none).map (Supplied.mapValues mask) := by
    rw [firstValue?_mapValues masks]
    cases fallBack <;> rfl
  unfold Given.nodeId
  dsimp only
  rw [ownId?_mapValues masks, inputId?_mapValues, fallen, ← map_orElse, ← map_orElse]
  cases (g.ownId? <|> g.inputId? (index.identityField? root.returnType)
    <|> if fallBack then g.firstValue? else none) <;> rfl

theorem Given.named?_mapValues (g : Given) (word : String) :
    (g.mapValues mask).named? word = (g.named? word).map (Supplied.mapValues mask) := by
  unfold Given.named?
  rw [show (g.mapValues mask).field.arguments = g.field.arguments.map fun entry =>
    (entry.1, mask entry.2) from rfl, List.find?_map]
  simp only [Function.comp_def, masks.isNull, masks.isObject, Option.map_map]
  rfl

theorem Given.otherIds_mapValues (g : Given) :
    (g.mapValues mask).otherIds = g.otherIds.map (Supplied.mapValues mask) := by
  unfold Given.otherIds
  dsimp only
  rw [show (g.mapValues mask).declared = g.declared from rfl,
    show (g.mapValues mask).field = g.field.mapValues mask from rfl]
  generalize g.declared.filter _ = others
  have supplied : (others.filterMap fun a => ((g.field.mapValues mask).argument? a.name).map
        fun value => (⟨a.name, some a, value⟩ : Supplied))
      = (others.filterMap fun a => (g.field.argument? a.name).map
        fun value => (⟨a.name, some a, value⟩ : Supplied)).map (Supplied.mapValues mask) := by
    rw [List.map_filterMap]
    congr 1
    funext a
    rw [Field.argument?_mapValues]
    cases g.field.argument? a.name <;> rfl
  rw [supplied, List.filter_map]
  simp only [Function.comp_def, Supplied.mapValues, masks.isNull]

theorem Given.endpoints_mapValues (g : Given) (root : Root) :
    (g.mapValues mask).endpoints root
      = (g.endpoints root).map fun ends => (ends.1.mapValues mask, ends.2.mapValues mask) := by
  unfold Given.endpoints
  rw [otherIds_mapValues masks, named?_mapValues masks, named?_mapValues masks, Option.isSome_map]
  dsimp only
  rw [List.head?_map, ← map_orElse, ← List.map_drop,
    ← apply_ite (List.map (Supplied.mapValues mask)), List.head?_map, ← map_orElse]
  generalize (g.named? "from" <|> g.otherIds.head?) = source?
  generalize (g.named? "to" <|> _) = target?
  cases source? <;> cases target? <;> rfl

theorem bindInput_mapValues (b : Builder) (path : String) (input : List Supplied) :
    bindInput (b.mapValues mask) path (input.map (Supplied.mapValues mask))
      = ((bindInput b path input).1.map (Reference.mapValues mask),
          (bindInput b path input).2.mapValues mask) := by
  unfold bindInput
  rw [List.filter_map]
  exact b.referAll_mapValues masks path _

theorem setClause_mapValues (b : Builder) (path : String) (input : List Supplied)
    (skipped? : Option String) :
    setClause (b.mapValues mask) path (input.map (Supplied.mapValues mask)) skipped?
      = (setClause b path input skipped?).mapValues mask := by
  have names : (fun s : Supplied => some s.name != skipped?) ∘ Supplied.mapValues mask
      = fun s => some s.name != skipped? := rfl
  unfold setClause
  rw [List.filter_map, names, bindInput_mapValues masks]
  obtain ⟨bound, b⟩ := bindInput b path (input.filter fun s => some s.name != skipped?)
  dsimp only
  rw [List.isEmpty_map]
  cases bound.isEmpty with
  | true => rfl
  | false => exact Builder.addClause_mapValues mask b (.set path bound)

theorem bindEndpoints_mapValues (b : Builder) (path : String) (ends : Supplied × Supplied) :
    bindEndpoints (b.mapValues mask) path (ends.1.mapValues mask, ends.2.mapValues mask)
      = (((bindEndpoints b path ends).1.1.mapValues mask,
          (bindEndpoints b path ends).1.2.mapValues mask),
          (bindEndpoints b path ends).2.mapValues mask) := by
  unfold bindEndpoints
  rw [b.refer_mapValues masks]
  dsimp only
  rw [Builder.refer_mapValues _ masks]

theorem bindEdge_mapValues (g : Given) (root : Root) (b : Builder) :
    bindEdge (g.mapValues mask) root (b.mapValues mask)
      = (bindEdge g root b).map fun found => (found.1.mapValues mask, found.2.mapValues mask) := by
  unfold bindEdge
  rw [Given.endpoints_mapValues masks, Given.ownId?_mapValues masks]
  cases g.endpoints root with
  | ok ends =>
      dsimp only [Except.map]
      rw [bindEndpoints_mapValues masks]
      rfl
  | error missing =>
      dsimp only [Except.map]
      cases g.ownId? with
      | none => rfl
      | some id =>
          dsimp only [Option.map_some]
          rw [Builder.refer_mapValues _ masks]
          rfl

theorem matchNode_mapValues (b : Builder) (path : String) (id : Supplied) :
    matchNode (b.mapValues mask) path (id.mapValues mask)
      = (matchNode b path id).mapValues mask := by
  unfold matchNode
  rw [b.refer_mapValues masks]
  obtain ⟨reference, b⟩ := b.refer (path ++ "_whereId") id
  exact Builder.addClause_mapValues mask b (.findNode path reference)

theorem projectWritten_mapValues (plain : ctx.index.isPlain = true) (root : Root) (field : Field)
    (b : Builder) :
    projectWritten (ctx.mapValues mask) root (field.mapValues mask) (b.mapValues mask)
      = (projectWritten ctx root field b).map (Plan.mapValues mask) := by
  unfold projectWritten
  rw [show (field.mapValues mask).selections.isEmpty = field.selections.isEmpty from
      Selection.isEmpty_mapAll mask field.selections, Builder.openFrame_mapValues]
  dsimp only
  split
  · rfl
  refine (congrArg (· >>= _) (projectSelection_mapValues masks plain ..)).trans
    (map_bind_map fun projected _ => ?_)
  have written : (b.mapValues mask).clauses.length = b.clauses.length := List.length_map _
  have later : (projected.mapValues mask).clauses.length = projected.clauses.length :=
    List.length_map _
  rw [written, later]
  by_cases more : b.clauses.length < projected.clauses.length
  · rw [if_pos more, if_pos more]
    exact congrArg (fun b => (Except.ok (Plan.projecting b) : Except Error Plan))
      (Builder.insertClause_mapValues mask projected b.clauses.length (.keep root.path))
  · rw [if_neg more, if_neg more]
    rfl

section Templates

variable (plain : ctx.index.isPlain = true) (root : Root) (field : Field) (g : Given)
  (typeName : String)
include plain

theorem createNode_mapValues :
    createNode (ctx.mapValues mask) root (field.mapValues mask) (g.mapValues mask) typeName
      = (createNode ctx root field g typeName).map (Plan.mapValues mask) := by
  have bound : bindInput {} root.path (g.mapValues mask).input = _ :=
    bindInput_mapValues masks {} root.path g.input
  unfold createNode
  rw [bound]
  obtain ⟨bound, b⟩ := bindInput {} root.path g.input
  dsimp only
  rw [← projectWritten_mapValues masks plain, ← Builder.addClause_mapValues]
  rfl

theorem updateNode_mapValues :
    updateNode (ctx.mapValues mask) root (field.mapValues mask) (g.mapValues mask)
      = (updateNode ctx root field g).map (Plan.mapValues mask) := by
  unfold updateNode
  rw [show (ctx.mapValues mask).index = ctx.index from rfl, Given.nodeId_mapValues masks,
    mapError_map]
  refine map_bind_map fun id _ => ?_
  have matched : matchNode {} root.path (id.mapValues mask) = _ :=
    matchNode_mapValues masks {} root.path id
  rw [← projectWritten_mapValues masks plain, ← setClause_mapValues masks, matched]
  rfl

omit plain in
theorem deleteNode_mapValues :
    deleteNode (ctx.mapValues mask) root (g.mapValues mask)
      = (deleteNode ctx root g).map (Plan.mapValues mask) := by
  unfold deleteNode
  rw [show (ctx.mapValues mask).index = ctx.index from rfl, Given.nodeId_mapValues masks,
    mapError_map]
  refine map_bind_map fun id _ => ?_
  have matched : matchNode {} root.path (id.mapValues mask) = _ :=
    matchNode_mapValues masks {} root.path id
  rw [matched]
  exact congrArg (fun b => (Except.ok (Plan.returning b .truth) : Except Error Plan))
    (Builder.addClause_mapValues mask _ (.deleteNode root.path))

theorem connectEdge_mapValues :
    connectEdge (ctx.mapValues mask) root (field.mapValues mask) (g.mapValues mask) typeName
      = (connectEdge ctx root field g typeName).map (Plan.mapValues mask) := by
  unfold connectEdge
  rw [Given.endpoints_mapValues masks, mapError_map]
  refine map_bind_map fun ends _ => ?_
  have ended : bindEndpoints {} root.path (ends.1.mapValues mask, ends.2.mapValues mask) = _ :=
    bindEndpoints_mapValues masks {} root.path ends
  rw [ended]
  obtain ⟨⟨source, target⟩, b⟩ := bindEndpoints {} root.path ends
  dsimp only
  have found : (b.mapValues mask).addClause
      (.findEnds root.path (source.mapValues mask) (target.mapValues mask)) = _ :=
    Builder.addClause_mapValues mask b (.findEnds root.path source target)
  rw [found, show (g.mapValues mask).input = g.input.map (Supplied.mapValues mask) from rfl,
    bindInput_mapValues masks]
  obtain ⟨bound, b⟩ := bindInput (b.addClause (.findEnds root.path source target)) root.path g.input
  dsimp only
  rw [← projectWritten_mapValues masks plain, ← Builder.addClause_mapValues]
  rfl

theorem updateEdge_mapValues :
    updateEdge (ctx.mapValues mask) root (field.mapValues mask) (g.mapValues mask) typeName
      = (updateEdge ctx root field g typeName).map (Plan.mapValues mask) := by
  have keyed : bindEdge (g.mapValues mask) root {} = _ := bindEdge_mapValues masks g root {}
  unfold updateEdge
  rw [keyed, mapError_map]
  refine map_bind_map fun found _ => ?_
  obtain ⟨key, b⟩ := found
  dsimp only
  rw [← projectWritten_mapValues masks plain, ← setClause_mapValues masks,
    ← Builder.addClause_mapValues]
  rfl

omit plain in
theorem deleteEdge_mapValues :
    deleteEdge (ctx.mapValues mask) root (g.mapValues mask) typeName
      = (deleteEdge ctx root g typeName).map (Plan.mapValues mask) := by
  have keyed : bindEdge (g.mapValues mask) root {} = _ := bindEdge_mapValues masks g root {}
  unfold deleteEdge
  rw [keyed, mapError_map]
  refine map_bind_map fun found _ => ?_
  obtain ⟨key, b⟩ := found
  have deleted := Builder.addClause_mapValues mask
    (b.addClause (.findEdge root.path (writtenLabel ctx.index typeName) key))
    (.deleteEdge root.path)
  rw [← Builder.addClause_mapValues] at deleted
  exact congrArg (fun b => (Except.ok (Plan.returning b .truth) : Except Error Plan)) deleted

theorem planWrite_mapValues :
    planWrite (ctx.mapValues mask) root (field.mapValues mask)
      = (planWrite ctx root field).map (Plan.mapValues mask) := by
  unfold planWrite
  split
  · rfl
  rename_i shape typeName _
  rw [show (ctx.mapValues mask).index = ctx.index from rfl, Given.ofField_mapValues masks,
    mapError_map]
  refine map_bind_map fun g _ => ?_
  cases shape with
  | createNode => exact createNode_mapValues masks plain root field g typeName
  | updateNode => exact updateNode_mapValues masks plain root field g
  | deleteNode => exact deleteNode_mapValues masks root g
  | connectEdge => exact connectEdge_mapValues masks plain root field g typeName
  | updateEdge => exact updateEdge_mapValues masks plain root field g typeName
  | deleteEdge => exact deleteEdge_mapValues masks root g typeName

end Templates

/-! ## Documents -/

/-- A root field without an override compiles alike behind a mask. -/
theorem compileRoot_mapValues (plain : ctx.index.isPlain = true) {root : Root}
    (own : root.fragment? = none) (field : Field) :
    Compiler.compileRoot (ctx.mapValues mask) root (field.mapValues mask)
      = (Compiler.compileRoot ctx root field).map (Compiled.mapValues mask) := by
  have planned : Compiler.planRoot (ctx.mapValues mask) root (field.mapValues mask)
      = (Compiler.planRoot ctx root field).map (Plan.mapValues mask) := by
    unfold Compiler.planRoot
    rw [own]
    cases root.kind with
    | mutation => exact planWrite_mapValues masks plain root field
    | query => exact planRead_mapValues masks plain root field
  unfold Compiler.compileRoot
  rw [planned]
  cases Compiler.planRoot ctx root field with
  | error e => rfl
  | ok plan => exact congrArg Except.ok (compiled_mapValues plan)

/-- A document compiles alike behind a mask. -/
theorem compileDocument_mapValues (c : Compiler) (plain : c.index.isPlain = true)
    (document : Operation.Document) (name? : Option String) :
    c.compileDocument (document.mapValues mask) name?
      = (c.compileDocument document name?).map (Compiled.mapValues mask) := by
  have chosen : (document.mapValues mask).operation? name?
      = (document.operation? name?).map (GraphBridge.Operation.mapValues mask) := by
    cases name? with
    | none => exact List.head?_map
    | some name => exact List.find?_map
  unfold Compiler.compileDocument
  rw [chosen]
  cases document.operation? name? with
  | none => rfl
  | some operation =>
      have first : (operation.mapValues mask).rootField?
          = operation.rootField?.map (Field.mapValues mask) :=
        firstField?_mapValues mask operation.fragments operation.selections
      dsimp only [Option.map_some]
      rw [first]
      cases operation.rootField? with
      | none => rfl
      | some field =>
          refine bind_map fun root looked => ?_
          have own := Index.root_fragment?_eq_none plain (eq_ok_of_mapError looked)
          rw [show (field.mapValues mask).arguments = field.arguments.mapValues mask from rfl,
            limitOf?_mapValues masks]
          exact @compileRoot_mapValues _ masks ⟨c.index, c.config, operation.fragments⟩ plain
            { root with limit? := limitOf? field.arguments } own field

end Masked

/-- Strings of an operation never reach the text of a statement: changing the strings in the values
of all arguments one to one changes the strings in the values of the parameters, and nothing
else. -/
theorem compileDocument_mapStrings (c : Compiler) (plain : c.index.isPlain = true)
    (document : Operation.Document) (name? : Option String) {change : String → String}
    (injective : Function.Injective change) :
    c.compileDocument (document.mapValues (Json.mapStrings change)) name?
      = (c.compileDocument document name?).map fun compiled =>
          { compiled with
            parameters := compiled.parameters.mapValues (Json.mapStrings change) } :=
  compileDocument_mapValues (Json.isMask_mapStrings injective) c plain document name?

/-- Persons who can be created and who have friends of a name. -/
def membersIndex : Index := ⟨⟨[
  ⟨"Person", .object, [], [
    ⟨"name", ⟨"String", false, false⟩, [], []⟩,
    ⟨"friends", ⟨"Person", true, false⟩, [⟨"name", ⟨"String", false, false⟩, none, []⟩],
      [⟨"relationship", [("type", .string "knows")]⟩]⟩]⟩,
  ⟨"NewPerson", .inputObject, [], [
    ⟨"name", ⟨"String", false, false⟩, [], []⟩,
    ⟨"tags", ⟨"String", true, false⟩, [], []⟩]⟩,
  ⟨"Mutation", .object, [], [
    ⟨"createNodePerson", ⟨"Person", false, false⟩,
      [⟨"input", ⟨"NewPerson", false, false⟩, none, []⟩], []⟩]⟩]⟩⟩

/-- Creates a person and asks for the friends of a name, through a fragment. -/
def memberDocument : Operation.Document := ⟨[
  ⟨none, .mutation,
    [.field none "createNodePerson"
      [("input", .object [("name", .string "Ann"), ("tags", .array [.string "a", .string "b"])])]
      [.spread "Known"]],
    [⟨"Known", "Person",
      [.field none "friends" [("name", .string "Bob")] [.field none "name" [] []]]⟩]⟩]⟩

theorem compileDocument_mapStrings_members :
    let c : Compiler := ⟨membersIndex, {}⟩
    let change := Json.mapStrings fun text => "x" ++ text
    ∃ compiled, c.index.isPlain = true ∧ c.compileDocument memberDocument none = .ok compiled
      ∧ compiled.parameters.keys = ["createNodePerson_Person_name", "createNodePerson_Person_tags",
          "createNodePerson_Person_friends_name"]
      ∧ c.compileDocument (memberDocument.mapValues change) none
          = .ok { compiled with parameters := compiled.parameters.mapValues change } := by
  intro c change
  have injective : Function.Injective fun text : String => "x" ++ text :=
    fun _ _ same => String.append_right_inj _ |>.1 same
  have plain : c.index.isPlain = true := by decide +kernel
  have shape : (c.compileDocument memberDocument none).toOption.any (fun compiled =>
      compiled.parameters.keys == ["createNodePerson_Person_name", "createNodePerson_Person_tags",
        "createNodePerson_Person_friends_name"]) = true := by decide +kernel
  obtain ⟨compiled, done, keys⟩ := exists_ok_of_any shape
  refine ⟨compiled, plain, done, eq_of_beq keys, ?_⟩
  rw [compileDocument_mapStrings c plain memberDocument none injective, done]
  rfl

end GraphBridge.Compile
