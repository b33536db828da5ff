import GraphBridge.Proofs.Emission

/-!
# The names in documents

Whatever a document reader takes for a name is one: it starts with a letter or an underscore and
goes on with letters, digits and underscores. So the names of types, fields and arguments in a
schema that comes from text are names, and so are the response names, field names and argument names
in an operation.
-/

namespace GraphBridge.Grammar

/-- Whether a text is a name of the document language. -/
def isName (text : String) : Bool :=
  match text.toList with
  | [] => false
  | c :: rest => isNameStart c && rest.all isNamePart

/-! ## What a reader yields -/

/-- Whatever a reader takes off the input has a property. -/
def Yields {α : Type} (p : Parser α) (holds : α → Prop) : Prop :=
  ∀ input a rest, p input = some (a, rest) → holds a

namespace Yields

variable {α β : Type} {p q : Parser α} {holds : α → Prop} {after : β → Prop}

theorem trivial (p : Parser α) : Yields p fun _ => True :=
  fun _ _ _ _ => .intro

theorem mono {weaker : α → Prop} (first : Yields p holds) (implies : ∀ a, holds a → weaker a) :
    Yields p weaker :=
  fun input a rest read => implies a (first input a rest read)

theorem pure {a : α} (known : holds a) : Yields (Pure.pure a : Parser α) holds := by
  intro input b rest read
  cases read
  exact known

theorem failure : Yields (Alternative.failure : Parser α) holds := by
  intro input a rest read
  cases read

theorem bind {f : α → Parser β} (first : Yields p holds)
    (second : ∀ a, holds a → Yields (f a) after) : Yields (p >>= f) after := by
  intro input b rest read
  simp only [Bind.bind, StateT.bind, Option.bind_eq_some_iff] at read
  obtain ⟨⟨a, between⟩, front, back⟩ := read
  exact second a (first input a between front) between b rest back

/-- A reader whose result is not used. -/
theorem next {f : α → Parser β} (second : ∀ a, Yields (f a) after) : Yields (p >>= f) after :=
  (trivial p).bind fun a _ => second a

theorem orElse (first : Yields p holds) (second : Yields q holds) : Yields (p <|> q) holds := by
  intro input a rest read
  have either : (p input <|> q input) = some (a, rest) := read
  cases front : p input with
  | none =>
      rw [front] at either
      exact second input a rest either
  | some found =>
      rw [front] at either
      exact first input a rest (front.trans either)

/-- A reader that looks at the length of its input to bound its depth. -/
theorem bounded {within : Nat → Parser α} (each : ∀ depth, Yields (within depth) holds) :
    Yields (fun input => within (input.length + 1) input) holds :=
  fun input => each (input.length + 1) input

theorem token (inner : Yields p holds) : Yields (token p) holds :=
  fun input => inner (skip input)

theorem many (part : Yields p holds) : Yields (many p) fun parts => ∀ a ∈ parts, holds a := by
  have all (input : List Char) : ∀ a ∈ (repeated p input).1, holds a := by
    fun_induction repeated p input with
    | case1 input stop => simp
    | case2 input first rest read shorter more last others ih =>
        intro a mem
        rcases List.mem_cons.1 mem with rfl | later
        · exact part input a rest read
        · exact ih a (by rw [others]; exact later)
    | case3 input first rest read stuck =>
        intro a mem
        obtain rfl := List.mem_singleton.1 mem
        exact part input a rest read
  intro input parts rest read
  have taken : (repeated p input).1 = parts := congrArg Prod.fst (Option.some.inj read)
  exact taken ▸ all input

theorem some1 (part : Yields p holds) : Yields (some1 p) fun parts => ∀ a ∈ parts, holds a :=
  part.bind fun _ known => part.many.bind fun _ others =>
    pure (List.forall_mem_cons.2 ⟨known, others⟩)

theorem orEmpty {p : Parser (List α)} (part : Yields p fun parts => ∀ a ∈ parts, holds a) :
    Yields (orEmpty p) fun parts => ∀ a ∈ parts, holds a :=
  part.orElse (pure (List.forall_mem_nil _))

theorem optional (part : Yields p holds) :
    Yields (optional p) fun found? => ∀ a ∈ found?, holds a := by
  have found : Yields (some <$> p) fun found? => ∀ a ∈ found?, holds a := by
    intro input found? rest read
    simp only [Functor.map, StateT.map, Option.bind_eq_some_iff, Bind.bind] at read
    obtain ⟨⟨a, between⟩, front, made⟩ := read
    cases made
    intro b mem
    obtain rfl := Option.some.inj mem
    exact part input a between front
  exact found.orElse (pure (by intro a mem; cases mem))

end Yields

theorem yields_bareName : Yields bareName fun text => isName text = true := by
  intro input text rest read
  unfold bareName at read
  split at read
  · rename_i c after
    split at read
    · rename_i start
      cases read
      simp [isName, start, List.all_takeWhile]
    · cases read
  · cases read

theorem yields_name : Yields name fun text => isName text = true :=
  yields_bareName.token

theorem yields_named {α : Type} (value : Parser α) :
    Yields (named value) fun entry => isName entry.1 = true :=
  yields_name.bind fun _ isName => .next fun _ => .next fun _ => .pure isName

/-- The arguments that are read have names. -/
theorem yields_arguments {α : Type} (value : Parser α) :
    Yields (arguments value) fun entries => ∀ entry ∈ entries, isName entry.1 = true :=
  .next fun _ => (yields_named _).some1.bind fun _ named => .next fun _ => .pure named

end GraphBridge.Grammar

/-! ## Schemas -/

namespace GraphBridge.Schema

open Grammar

/-- The names in the definition of a field are names. -/
structure FieldDefinition.IsNamed (f : FieldDefinition) : Prop where
  name : isName f.name = true
  type : isName f.type.name = true
  arguments : ∀ a ∈ f.arguments, isName a.name = true

/-- The names in the definition of a type are names. -/
structure TypeDefinition.IsNamed (t : TypeDefinition) : Prop where
  name : isName t.name = true
  fields : ∀ f ∈ t.fields, f.IsNamed

/-- The names in the definition of a type are names; other definitions leave nothing behind. -/
def Definition.IsNamed : Definition → Prop
  | .type _ definition _ => definition.IsNamed
  | .schema .. | .directive .. => True

theorem yields_bareTypeRef (depth : Nat) :
    Yields (bareTypeRef depth) fun type => isName type.name = true := by
  induction depth with
  | zero => exact .failure
  | succ depth ih =>
      have front : Yields ((do return (← bareName, false)) <|> (do
          exactly ['[']
          let inner ← bareTypeRef depth
          exactly [']']
          return (inner.name, true)) : Parser (String × Bool)) fun pair => isName pair.1 = true :=
        .orElse (yields_bareName.bind fun _ isName => .pure isName)
          (.next fun _ => ih.bind fun _ isName => .next fun _ => .pure isName)
      exact front.bind fun _ isName => .next fun _ => .pure isName

theorem yields_typeRef : Yields typeRef fun type => isName type.name = true :=
  (Yields.bounded yields_bareTypeRef).token

theorem yields_argumentDefinition :
    Yields argumentDefinition fun a => isName a.name = true ∧ isName a.type.name = true :=
  .next fun _ => yields_name.bind fun _ name => .next fun _ => yields_typeRef.bind fun _ type =>
    .next fun _ => .next fun _ => .pure ⟨name, type⟩

theorem yields_argumentDefinitions :
    Yields argumentDefinitions fun arguments => ∀ a ∈ arguments, isName a.name = true :=
  .next fun _ => (yields_argumentDefinition.mono fun _ named => named.1).some1.bind fun _ named =>
    .next fun _ => .pure named

theorem yields_fieldDefinition : Yields fieldDefinition FieldDefinition.IsNamed :=
  .next fun _ => yields_name.bind fun _ name =>
    yields_argumentDefinitions.orEmpty.bind fun _ arguments => .next fun _ =>
      yields_typeRef.bind fun _ type => .next fun _ => .pure ⟨name, type, arguments⟩

section Bodies

variable {α : Type} {part : Parser α} {body : Parser (List α)} {holds : α → Prop}

theorem yields_braced (inner : Yields part holds) :
    Yields (braced part) fun parts => ∀ a ∈ parts, holds a :=
  .next fun _ => inner.some1.bind fun _ all => .next fun _ => .pure all

theorem yields_directivesAndBody (inner : Yields body fun parts => ∀ a ∈ parts, holds a) :
    Yields (directivesAndBody body) fun parts => ∀ a ∈ parts.2, holds a :=
  .next fun _ => inner.orEmpty.bind fun _ all => .pure all

theorem yields_directivesOrBody (inner : Yields body fun parts => ∀ a ∈ parts, holds a) :
    Yields (directivesOrBody body) fun parts => ∀ a ∈ parts.2, holds a :=
  .orElse (.next fun _ => inner.bind fun _ all => .pure all)
    (.next fun _ => .pure (List.forall_mem_nil _))

/-- A definition or an extension of a type, whose body yields what it is made of. -/
theorem yields_typeRule {keyword : String} {definition extension : Parser α}
    {make : Bool → String → α → Definition} (first : Yields definition holds)
    (second : Yields extension holds)
    (made : ∀ isExtension name a, isName name = true → holds a
      → (make isExtension name a).IsNamed) :
    Yields (typeRule keyword definition extension make) Definition.IsNamed :=
  .orElse
    (.next fun _ => .next fun _ => yields_name.bind fun _ name => first.bind fun _ known =>
      .pure (made false _ _ name known))
    (.next fun _ => .next fun _ => yields_name.bind fun _ name => second.bind fun _ known =>
      .pure (made true _ _ name known))

end Bodies

theorem yields_outputBody : Yields outputBody fun parts => ∀ f ∈ parts.2, f.IsNamed :=
  .next fun _ => yields_directivesAndBody (yields_braced yields_fieldDefinition)

theorem yields_outputExtension : Yields outputExtension fun parts => ∀ f ∈ parts.2, f.IsNamed :=
  .next fun _ => yields_directivesOrBody (yields_braced yields_fieldDefinition)

theorem yields_inputBodies :
    Yields (directivesAndBody (braced argumentDefinition))
        (fun parts => ∀ a ∈ parts.2, isName a.name = true ∧ isName a.type.name = true)
      ∧ Yields (directivesOrBody (braced argumentDefinition))
        (fun parts => ∀ a ∈ parts.2, isName a.name = true ∧ isName a.type.name = true) :=
  ⟨yields_directivesAndBody (yields_braced yields_argumentDefinition),
    yields_directivesOrBody (yields_braced yields_argumentDefinition)⟩

/-- A kind of type that has no fields. -/
theorem yields_typeRule_fieldless {α : Type} {keyword : String} {definition extension : Parser α}
    {make : Bool → String → α → Definition}
    (made : ∀ isExtension name a, isName name = true → (make isExtension name a).IsNamed) :
    Yields (typeRule keyword definition extension make) Definition.IsNamed :=
  yields_typeRule (.trivial _) (.trivial _) fun isExtension name a isName _ =>
    made isExtension name a isName

theorem yields_definition : Yields definition Definition.IsNamed := by
  have output (kind : TypeKind) (isExtension : Bool) (name : String)
      (parts : List Directive × List FieldDefinition) (isName : isName name = true)
      (fields : ∀ f ∈ parts.2, f.IsNamed) : (outputType kind isExtension name parts).IsNamed :=
    ⟨isName, fields⟩
  refine .orElse ?schema (.orElse ?scalar (.orElse ?object (.orElse ?interface (.orElse ?union
    (.orElse ?enum (.orElse ?input ?directive))))))
  case schema =>
    exact .orElse (.next fun _ => .next fun _ => .next fun _ => .pure .intro)
      (.next fun _ => .next fun _ => .next fun _ => .pure .intro)
  case scalar => exact yields_typeRule_fieldless fun _ _ _ name => ⟨name, List.forall_mem_nil _⟩
  case object =>
    exact yields_typeRule yields_outputBody
      (.orElse yields_outputExtension (.next fun _ => .pure (List.forall_mem_nil _)))
      (output .object)
  case interface =>
    exact yields_typeRule yields_outputBody yields_outputExtension (output .interface)
  case union => exact yields_typeRule_fieldless fun _ _ _ name => ⟨name, List.forall_mem_nil _⟩
  case enum => exact yields_typeRule_fieldless fun _ _ _ name => ⟨name, List.forall_mem_nil _⟩
  case input =>
    refine yields_typeRule yields_inputBodies.1 yields_inputBodies.2 ?_
    intro isExtension name parts isName fields
    refine ⟨isName, fun f mem => ?_⟩
    obtain ⟨a, known, rfl⟩ := List.mem_map.1 mem
    exact ⟨(fields a known).1, (fields a known).2, List.forall_mem_nil _⟩
  case directive =>
    exact .next fun _ => .next fun _ => .next fun _ => .next fun _ => .next fun _ =>
      .next fun _ => .next fun _ => .next fun _ => .pure .intro

namespace TypeDefinition

variable {t : TypeDefinition}

theorem IsNamed.tidy (named : t.IsNamed) : t.tidy.IsNamed := by
  refine ⟨named.name, fun f mem => ?_⟩
  obtain ⟨f, known, rfl⟩ := List.mem_map.1 mem
  refine ⟨(named.fields f known).name, (named.fields f known).type, fun a mem => ?_⟩
  obtain ⟨a, declared, rfl⟩ := List.mem_map.1 mem
  exact (named.fields f known).arguments a declared

theorem IsNamed.extend {extension : TypeDefinition} (named : t.IsNamed)
    (added : extension.IsNamed) : (t.extend extension).IsNamed :=
  ⟨named.name, List.forall_mem_append.2 ⟨named.fields, added.fields⟩⟩

end TypeDefinition

theorem isNamed_mergeExtension {extension : TypeDefinition} (added : extension.IsNamed)
    {types merged : List TypeDefinition} (named : ∀ t ∈ types, t.IsNamed)
    (done : mergeExtension extension types = .ok merged) : ∀ t ∈ merged, t.IsNamed := by
  induction types generalizing merged with
  | nil => cases done
  | cons base rest ih =>
      obtain ⟨first, others⟩ := List.forall_mem_cons.1 named
      rw [mergeExtension] at done
      split at done
      · cases done
        exact List.forall_mem_cons.2 ⟨first.extend added, others⟩
      · cases later : mergeExtension extension rest with
        | error e => simp [later, Except.map] at done
        | ok more =>
            rw [later] at done
            cases done
            exact List.forall_mem_cons.2 ⟨first, ih others later⟩

theorem isNamed_mergeExtensions {extensions types merged : List TypeDefinition}
    (added : ∀ t ∈ extensions, t.IsNamed) (named : ∀ t ∈ types, t.IsNamed)
    (done : mergeExtensions types extensions = .ok merged) : ∀ t ∈ merged, t.IsNamed := by
  induction extensions generalizing types with
  | nil =>
      cases done
      exact named
  | cons extension rest ih =>
      obtain ⟨first, others⟩ := List.forall_mem_cons.1 added
      rw [mergeExtensions] at done
      split at done
      · rename_i between one
        exact ih others (isNamed_mergeExtension first named one) done
      · cases done

/-- The types of a document made of named definitions are named. -/
theorem isNamed_ofDefinitions {definitions : List Definition} {document : Document}
    (named : ∀ d ∈ definitions, d.IsNamed)
    (made : Document.ofDefinitions definitions = .ok document) :
    ∀ t ∈ document.types, t.IsNamed := by
  have base : ∀ t ∈ definitions.filterMap Definition.baseType?, t.IsNamed := by
    intro t mem
    obtain ⟨d, known, found⟩ := List.mem_filterMap.1 mem
    unfold Definition.baseType? at found
    split at found
    · cases found
      exact (named _ known).tidy
    · cases found
  have extension : ∀ t ∈ definitions.filterMap Definition.extension?, t.IsNamed := by
    intro t mem
    obtain ⟨d, known, found⟩ := List.mem_filterMap.1 mem
    unfold Definition.extension? at found
    split at found
    · cases found
      exact (named _ known).tidy
    · cases found
  unfold Document.ofDefinitions at made
  split at made
  · cases made
  cases merged : mergeExtensions (definitions.filterMap Definition.baseType?)
      (definitions.filterMap Definition.extension?) with
  | error e => simp [merged, Except.map] at made
  | ok types =>
      rw [merged] at made
      cases made
      exact isNamed_mergeExtensions extension base merged

/-- The definitions of a schema text that an index is made of. -/
theorem Index.ofText_eq_ok {text : String} {index : Index} (read : Index.ofText text = .ok index) :
    ∃ definitions rest, Schema.definitions text.toList = some (definitions, rest)
      ∧ Document.ofDefinitions definitions = .ok index.document := by
  obtain ⟨document, spelled, indexed⟩ := Compile.mapError_bind_eq_ok read
  obtain rfl : index = ⟨document⟩ := by
    have made := Compile.eq_ok_of_mapError indexed
    unfold ofDocument at made
    dsimp only at made
    split at made
    · cases made
    · exact (Except.ok.inj made).symm
  unfold Document.ofText at spelled
  split at spelled
  · next definitions rest known => exact ⟨definitions, rest, known, spelled⟩
  · cases spelled

/-- The names in a schema are names. -/
def Index.IsNamed (index : Index) : Prop :=
  ∀ t ∈ index.document.types, t.IsNamed

/-- The names in a schema that comes from text are names. -/
theorem Index.isNamed_ofText {text : String} {index : Index}
    (read : Index.ofText text = .ok index) : index.IsNamed := by
  obtain ⟨found, rest, taken, made⟩ := Index.ofText_eq_ok read
  have named : Yields definitions fun found => ∀ d ∈ found, d.IsNamed :=
    yields_definition.some1.bind fun _ all => .next fun _ => .pure all
  exact isNamed_ofDefinitions (named _ _ _ taken) made

end GraphBridge.Schema

/-! ## Operations -/

namespace GraphBridge.Operation

open Grammar

mutual

/-- The fields of a selection at any depth. -/
def Selection.fields : Selection → List Field
  | .field given? name arguments selections =>
      ⟨given?, name, arguments, selections⟩ :: fieldsOf selections
  | .spread _ => []
  | .inlined _ selections => fieldsOf selections

/-- The fields of selections at any depth. -/
def fieldsOf : List Selection → List Field
  | [] => []
  | first :: rest => first.fields ++ fieldsOf rest

end

theorem fieldsOf_append (first second : List Selection) :
    fieldsOf (first ++ second) = fieldsOf first ++ fieldsOf second := by
  induction first with
  | nil => rfl
  | cons s rest ih => rw [List.cons_append, fieldsOf, fieldsOf, ih, List.append_assoc]

theorem fields_subset_fieldsOf {s : Selection} {selections : List Selection}
    (mem : s ∈ selections) : s.fields ⊆ fieldsOf selections := by
  induction selections with
  | nil => cases mem
  | cons first rest ih =>
      rw [fieldsOf]
      rcases List.mem_cons.1 mem with rfl | later
      · exact List.subset_append_left _ _
      · exact List.Subset.trans (ih later) (List.subset_append_right _ _)

/-- The names in a selected field are names. -/
structure Field.IsNamed (f : Field) : Prop where
  given : ∀ given ∈ f.given?, isName given = true
  name : isName f.name = true
  arguments : ∀ entry ∈ f.arguments, isName entry.1 = true

/-- The fields that an operation and its fragments select at any depth. -/
def fields (o : Operation) : List Field :=
  fieldsOf o.selections ++ o.fragments.flatMap fun f => fieldsOf f.selections

namespace Source

mutual

/-- The names in a written selection are names, at any depth. -/
def Selection.IsNamed : Selection → Prop
  | .field given? name arguments _ selections =>
      (∀ given ∈ given?, isName given = true) ∧ isName name = true
        ∧ (∀ entry ∈ arguments, isName entry.1 = true) ∧ AreNamed selections
  | .spread _ _ => True
  | .inlined _ _ selections => AreNamed selections

/-- The names in written selections are names, at any depth. -/
def AreNamed : List Selection → Prop
  | [] => True
  | first :: rest => first.IsNamed ∧ AreNamed rest

end

theorem areNamed_of_forall {selections : List Selection} (each : ∀ s ∈ selections, s.IsNamed) :
    AreNamed selections := by
  induction selections with
  | nil => exact .intro
  | cons first rest ih =>
      obtain ⟨named, others⟩ := List.forall_mem_cons.1 each
      exact ⟨named, ih others⟩

theorem yields_selectionsWithin (depth : Nat) : Yields (selectionsWithin depth) AreNamed := by
  induction depth with
  | zero => exact .failure
  | succ depth ih =>
      have nested : Yields (orEmpty (selectionsWithin depth)) AreNamed := .orElse ih (.pure .intro)
      have given : Yields givenName fun given => isName given = true :=
        yields_name.bind fun _ named => .next fun _ => .pure named
      refine .next fun _ => Yields.bind (Yields.some1 (.orElse ?field (.orElse ?inlined ?spread)))
        fun _ each => .next fun _ => .pure (areNamed_of_forall each)
      case field =>
        exact given.optional.bind fun _ given => yields_name.bind fun _ name =>
          (yields_arguments value).orEmpty.bind fun _ arguments => .next fun _ =>
            nested.bind fun _ selections => .pure ⟨given, name, arguments, selections⟩
      case inlined =>
        exact .next fun _ => .next fun _ => .next fun _ => ih.bind fun _ selections =>
          .pure selections
      case spread => exact .next fun _ => .next fun _ => .next fun _ => .next fun _ => .pure .intro

/-- The names in the selections of a definition are names. -/
def Definition.IsNamed : Definition → Prop
  | .operation o => AreNamed o.selections
  | .fragment f => AreNamed f.selections

theorem yields_definition : Yields definition Definition.IsNamed := by
  have selections : Yields selectionSet AreNamed := .bounded yields_selectionsWithin
  have operation : Yields operationDefinition fun o => AreNamed o.selections :=
    .orElse
      (.next fun _ => .next fun _ => .next fun _ => .next fun _ => selections.bind fun _ named =>
        .pure named)
      (selections.bind fun _ named => .pure named)
  have fragment : Yields fragmentDefinition fun f => AreNamed f.selections :=
    .next fun _ => .next fun _ => .next fun _ => .next fun _ => selections.bind fun _ named =>
      .pure named
  exact .orElse (operation.bind fun _ named => .pure named)
    (fragment.bind fun _ named => .pure named)

theorem key_resolveMembers {lookup : String → Json} {members : List (String × Value)}
    {entry : String × Json} (mem : entry ∈ Value.resolveMembers lookup members) :
    ∃ written ∈ members, written.1 = entry.1 := by
  induction members with
  | nil => cases mem
  | cons first rest ih =>
      obtain ⟨name, value⟩ := first
      rw [Value.resolveMembers] at mem
      rcases List.mem_cons.1 mem with rfl | later
      · exact ⟨_, List.mem_cons_self, rfl⟩
      · obtain ⟨written, known, same⟩ := ih later
        exact ⟨written, List.mem_cons_of_mem _ known, same⟩

mutual

theorem isNamed_resolveSelection (lookup : String → Json) (s : Selection) (named : s.IsNamed) :
    ∀ f ∈ fieldsOf (resolveSelection lookup s), f.IsNamed := by
  match s with
  | .field given? name arguments directives selections =>
      obtain ⟨given, isName, entries, inner⟩ := named
      rw [resolveSelection]
      split
      · rw [fieldsOf, fieldsOf, List.append_nil, Operation.Selection.fields]
        refine List.forall_mem_cons.2 ⟨⟨given, isName, fun entry mem => ?_⟩,
          isNamed_resolveSelections lookup selections inner⟩
        obtain ⟨written, known, same⟩ := key_resolveMembers (Table.mem_of_mem_ofList mem)
        rw [← same]
        exact entries written known
      · exact List.forall_mem_nil _
  | .spread fragment directives =>
      rw [resolveSelection]
      split <;> exact List.forall_mem_nil _
  | .inlined condition? directives selections =>
      rw [resolveSelection]
      split
      · rw [fieldsOf, fieldsOf, List.append_nil, Operation.Selection.fields]
        exact isNamed_resolveSelections lookup selections named
      · exact List.forall_mem_nil _

/-- Resolving variables leaves the names of fields and arguments. -/
theorem isNamed_resolveSelections (lookup : String → Json) (selections : List Selection)
    (named : AreNamed selections) :
    ∀ f ∈ fieldsOf (resolveSelections lookup selections), f.IsNamed := by
  match selections with
  | [] => exact List.forall_mem_nil _
  | first :: rest =>
      rw [resolveSelections, fieldsOf_append]
      exact List.forall_mem_append.2 ⟨isNamed_resolveSelection lookup first named.1,
        isNamed_resolveSelections lookup rest named.2⟩

end

/-- The fields of an operation of which the selections and fragments are named. -/
theorem isNamed_resolve {o : OperationDefinition} {fragments : List FragmentDefinition}
    {values : Table Json} {operation : Operation} (named : AreNamed o.selections)
    (others : ∀ f ∈ fragments, AreNamed f.selections)
    (resolved : o.resolve fragments values = .ok operation) :
    ∀ f ∈ fields operation, f.IsNamed := by
  obtain ⟨kind, -, made⟩ := Compile.bind_eq_ok resolved
  cases made
  refine List.forall_mem_append.2 ⟨isNamed_resolveSelections _ _ named, fun f mem => ?_⟩
  obtain ⟨fragment, known, inside⟩ := List.mem_flatMap.1 mem
  rw [OperationDefinition.sortFragments, List.mem_mergeSort] at known
  obtain ⟨written, defined, rfl⟩ := List.mem_map.1 known
  exact isNamed_resolveSelections _ _ (others written defined) f inside

end Source

/-- The fields of the operations of a document that comes from text have names. -/
theorem Document.isNamed_ofText {text : String} {values : Table Json} {document : Document}
    (read : Document.ofText text values = .ok document) :
    ∀ o ∈ document.operations, ∀ f ∈ fields o, f.IsNamed := by
  have yields : Yields Source.definitions fun found => ∀ d ∈ found, d.IsNamed :=
    Source.yields_definition.some1.bind fun _ all => .next fun _ => .pure all
  unfold Document.ofText at read
  split at read
  · rename_i definitions rest taken
    have named := yields _ _ _ taken
    unfold Document.ofDefinitions at read
    split at read
    · cases read
    split at read
    · cases read
    dsimp only at read
    split at read
    · cases read
    obtain ⟨resolved, found, made⟩ := Compile.bind_eq_ok read
    cases made
    suffices all : ∀ o ∈ resolved, ∀ f ∈ fields o, f.IsNamed by
      intro o mem
      rw [Source.sortOperations, List.mem_mergeSort] at mem
      exact all o mem
    refine Compile.forall_mem_of_mapM ?_ found
    intro written defined o resolved
    obtain ⟨d, known, isOperation⟩ := List.mem_filterMap.1 defined
    refine Source.isNamed_resolve ?_ (fun f mem => ?_) resolved
    · cases d with
      | operation o =>
          cases isOperation
          exact named _ known
      | fragment f => cases isOperation
    · obtain ⟨d, known, isFragment⟩ := List.mem_filterMap.1 mem
      cases d with
      | operation o => cases isFragment
      | fragment f =>
          cases isFragment
          exact named _ known
  · cases read

end GraphBridge.Operation
