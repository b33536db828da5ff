import GraphBridge.Proofs.Plain
import GraphBridge.Proofs.Reading
import GraphBridge.Proofs.Wording
import Mathlib.Data.List.Basic

/-!
# Where names and values come from

Every field that is projected stands somewhere in the operation, every value that is bound stands
among the arguments of such a field, and every name in a statement is put together from names of the
operation and of the schema. If the schema stores things under bare identifiers, all of these are
bare identifiers.
-/

namespace GraphBridge.Text

open Grammar Query

/-- A name of the document language is a bare identifier. -/
theorem isIdentifier_of_isName {text : String} (named : isName text = true) :
    isIdentifier text = true := by
  have ascii {c : Char} (part : isNamePart c = true) : c.toNat < 128 := by
    unfold isNamePart Char.isAlphanum Char.isAlpha Char.isUpper Char.isLower Char.isDigit at part
    simp only [Bool.or_eq_true, Bool.and_eq_true, decide_eq_true_eq, beq_iff_eq] at part
    show c.val.toNat < 128
    rcases part with ((upper | lower) | digit) | rfl
    · exact Nat.lt_of_le_of_lt (UInt32.le_iff_toNat_le.1 upper.2) (by decide)
    · exact Nat.lt_of_le_of_lt (UInt32.le_iff_toNat_le.1 lower.2) (by decide)
    · exact Nat.lt_of_le_of_lt (UInt32.le_iff_toNat_le.1 digit.2) (by decide)
    · decide
  have start {c : Char} (first : isNameStart c = true) : isIdentifierStart c = true := by
    have part : isNamePart c = true := by
      simp only [isNameStart, isNamePart, Char.isAlphanum, Bool.or_eq_true] at first ⊢
      rcases first with letter | underscore
      · exact .inl (.inl letter)
      · exact .inr underscore
    have found := forall_ascii (fun c => !isNameStart c || isIdentifierStart c) (by decide +kernel)
      (ascii part)
    simpa [first] using found
  have follow {c : Char} (part : isNamePart c = true) : isIdentifierPart c = true := by
    have found := forall_ascii (fun c => !isNamePart c || isIdentifierPart c) (by decide +kernel)
      (ascii part)
    simpa [part] using found
  unfold isName at named
  unfold isIdentifier
  split at named
  · cases named
  rename_i c rest shape
  rw [Bool.and_eq_true, List.all_eq_true] at named
  rw [shape, spellsIdentifier, start named.1, Bool.true_and, List.all_eq_true]
  exact fun c mem => follow (named.2 c mem)

/-- Identifiers joined with an underscore are one. -/
theorem isIdentifier_join {first second : String} (front : isIdentifier first = true)
    (back : isIdentifier second = true) : isIdentifier (first ++ "_" ++ second) = true := by
  have underscore : isIdentifier (first ++ "_") = true :=
    Statement.isIdentifier_append front (by decide +kernel)
  exact Statement.isIdentifier_append underscore (all_isIdentifierPart back)

end GraphBridge.Text

/-! ## Names of the schema -/

namespace GraphBridge.Schema

open Grammar Text

namespace FieldDefinition

/-- The type of the edges that a field follows. -/
def edgeType? (f : FieldDefinition) : Option String := do
  let d ← Directive.find? f.directives "relationship"
  d.stringArgument? "type" <|> d.stringArgument? "edgeType"

/-- Whether a field, its edges and its arguments are stored under bare identifiers. -/
def storesIdentifiers (f : FieldDefinition) : Bool :=
  (storedName? f.directives).all isIdentifier && f.edgeType?.all isIdentifier
    && f.arguments.all fun a => (storedName? a.directives).all isIdentifier

end FieldDefinition

theorem edgeType?_of_mappingOf {location edgeType : String} {f : FieldDefinition}
    {direction : Direction}
    (found : mappingOf location f = .ok (.relationship edgeType direction)) :
    f.edgeType? = some edgeType := by
  unfold mappingOf at found
  split at found
  · unfold fragmentOf at found
    split at found <;> cases found
  split at found
  · rename_i d known
    simp only [FieldDefinition.edgeType?, known, bind, Option.bind]
    unfold relationshipOf at found
    split at found
    · cases found
    rename_i written given
    rw [given]
    split at found
    · cases found
      rfl
    split at found
    · cases found
      rfl
    · cases found
  · split at found <;> cases found

/-- The name that a thing is stored under, its own if no other is given. -/
theorem isIdentifier_stored {stored? : Option String} {name : String}
    (stored : stored?.all isIdentifier = true) (named : isName name = true) :
    isIdentifier (stored?.getD name) = true := by
  cases stored? with
  | none => exact isIdentifier_of_isName named
  | some other => exact stored

/-- A descriptor with usable names and no fragment. -/
structure FieldDescriptor.IsBare (d : FieldDescriptor) : Prop where
  name : isName d.name = true
  graphType : isName d.graphType = true
  stored : isIdentifier d.stored = true
  arguments : ∀ a ∈ d.arguments, isIdentifier a.property = true
  edgeType : ∀ edgeType direction, d.mapping = .relationship edgeType direction →
    isIdentifier edgeType = true
  plain : ∀ fragment, d.mapping ≠ .overridden fragment

/-- A root field with usable names and no fragment. -/
structure Root.IsBare (root : Root) : Prop where
  name : isName root.name = true
  path : isIdentifier root.path = true
  label : isIdentifier root.label = true
  arguments : ∀ a ∈ root.arguments, isIdentifier a.property = true
  plain : root.fragment? = none

namespace Index

/-- Whether types, fields, edges and arguments are stored under bare identifiers. -/
def storesIdentifiers (index : Index) : Bool :=
  index.document.types.all fun t =>
    (storedName? t.directives).all isIdentifier && t.fields.all (·.storesIdentifiers)

/-- A schema with usable names and no fragment. -/
structure IsBare (index : Index) : Prop where
  named : index.IsNamed
  stored : index.storesIdentifiers = true
  plain : index.isPlain = true

namespace IsBare

variable {index : Index} {t : TypeDefinition} {f : FieldDefinition}

theorem storedType (bare : index.IsBare) (type : t ∈ index.document.types) :
    isIdentifier ((storedName? t.directives).getD t.name) = true := by
  have stored := List.all_eq_true.1 bare.stored t type
  rw [Bool.and_eq_true] at stored
  exact isIdentifier_stored stored.1 (bare.named t type).name

theorem storedField (bare : index.IsBare) (type : t ∈ index.document.types)
    (field : f ∈ t.fields) : f.storesIdentifiers = true := by
  have stored := List.all_eq_true.1 bare.stored t type
  rw [Bool.and_eq_true] at stored
  exact List.all_eq_true.1 stored.2 f field

theorem label (bare : index.IsBare) {typeName label : String}
    (found : index.label typeName = .ok label) : isIdentifier label = true := by
  obtain ⟨t, known, made⟩ := Compile.bind_eq_ok found
  cases made
  exact bare.storedType (mem_of_type? (requireType_eq_ok known))

theorem describe (bare : index.IsBare) (type : t ∈ index.document.types) (field : f ∈ t.fields)
    {d : FieldDescriptor} (found : index.describe t f = .ok d) : d.IsBare := by
  have stored := bare.storedField type field
  simp only [FieldDefinition.storesIdentifiers, Bool.and_eq_true, List.all_eq_true] at stored
  obtain ⟨⟨own, edges⟩, arguments⟩ := stored
  have named := (bare.named t type).fields f field
  have mapped := describe_mapping found
  have plain := mappingOf_ne_overridden (hasOverride_of_mem bare.plain type field) mapped
  obtain ⟨mapping, -, made⟩ := Compile.bind_eq_ok found
  cases made
  refine ⟨named.name, named.type, isIdentifier_stored own named.name, fun a mem => ?_,
    fun edgeType direction relationship => ?_, plain⟩
  · obtain ⟨a, declared, rfl⟩ := List.mem_map.1 mem
    exact isIdentifier_stored (arguments a declared) (named.arguments a declared)
  · rw [relationship] at mapped
    rw [edgeType?_of_mappingOf mapped] at edges
    exact edges

theorem field (bare : index.IsBare) {typeName fieldName : String} {d : FieldDescriptor}
    (found : index.field typeName fieldName = .ok d) : d.IsBare := by
  obtain ⟨t, f, type, field, described⟩ := field_eq_ok found
  exact bare.describe (mem_of_type? type) (mem_of_field? field) described

theorem root (bare : index.IsBare) {fieldName : String} {root : Root}
    (found : index.root fieldName = .ok root) : root.IsBare := by
  have plain := root_fragment?_eq_none bare.plain found
  obtain ⟨kind, t, f, type, field, made⟩ := root_eq_ok found
  obtain ⟨d, label, described, labelled, rfl⟩ := rootOf_eq_ok made
  have isBare := bare.describe (mem_of_type? type) (mem_of_field? field) described
  refine ⟨isBare.name, ?_, ?_, isBare.arguments, plain⟩
  · exact isIdentifier_join (isIdentifier_of_isName isBare.name)
      (isIdentifier_of_isName isBare.graphType)
  · split at labelled
    · exact bare.label labelled
    · cases labelled
      exact isIdentifier_of_isName isBare.graphType

theorem inputArguments (bare : index.IsBare) {typeName : String}
    {inputs : List ArgumentDescriptor} (found : index.inputArguments typeName = .ok inputs) :
    ∀ a ∈ inputs, isIdentifier a.property = true := by
  obtain ⟨t, known, made⟩ := Compile.bind_eq_ok found
  cases made
  intro a mem
  obtain ⟨f, field, rfl⟩ := List.mem_map.1 mem
  have type := mem_of_type? (requireType_eq_ok known)
  have stored := bare.storedField type field
  simp only [FieldDefinition.storesIdentifiers, Bool.and_eq_true] at stored
  exact isIdentifier_stored stored.1.1 ((bare.named t type).fields f field).name

end IsBare

end Index

end GraphBridge.Schema

/-! ## Fields of the operation -/

namespace GraphBridge.Compile

open Grammar Operation Schema Statement Text

/-- A field is among selections, perhaps inside of fragments. -/
inductive Selects (fragments : List FragmentDefinition) : List Selection → Field → Prop where
  | field {given? : Option String} {name : String} {arguments : Table Json}
      {inner selections : List Selection} (mem : .field given? name arguments inner ∈ selections) :
      Selects fragments selections ⟨given?, name, arguments, inner⟩
  | spread {f : FragmentDefinition} {selections : List Selection} {field : Field}
      (mem : .spread f.name ∈ selections) (defined : f ∈ fragments)
      (inside : Selects fragments f.selections field) : Selects fragments selections field
  | inlined {condition? : Option String} {inner selections : List Selection} {field : Field}
      (mem : .inlined condition? inner ∈ selections) (inside : Selects fragments inner field) :
      Selects fragments selections field

namespace Selects

variable {fragments : List FragmentDefinition} {selections : List Selection} {f : Field}

theorem mono {more : List FragmentDefinition} {others : List Selection} (known : fragments ⊆ more)
    (part : selections ⊆ others) (selected : Selects fragments selections f) :
    Selects more others f := by
  induction selected generalizing others with
  | field mem => exact .field (part mem)
  | spread mem defined _ ih => exact .spread (part mem) (known defined) (ih (List.Subset.refl _))
  | inlined mem _ ih => exact .inlined (part mem) (ih (List.Subset.refl _))

/-- A field is selected by one of the selections. -/
theorem exists_mem (selected : Selects fragments selections f) :
    ∃ s ∈ selections, Selects fragments [s] f := by
  cases selected with
  | field mem => exact ⟨_, mem, .field List.mem_cons_self⟩
  | spread mem defined inside => exact ⟨_, mem, .spread List.mem_cons_self defined inside⟩
  | inlined mem inside => exact ⟨_, mem, .inlined List.mem_cons_self inside⟩

theorem of_mem {s : Selection} (mem : s ∈ selections) (selected : Selects fragments [s] f) :
    Selects fragments selections f :=
  selected.mono (List.Subset.refl _) (List.cons_subset.2 ⟨mem, List.nil_subset _⟩)

theorem of_rest {first : Selection} (selected : Selects fragments selections f) :
    Selects fragments (first :: selections) f :=
  selected.mono (List.Subset.refl _) (List.subset_cons_self _ _)

/-- What a fragment selects without itself is selected where it stands. -/
theorem of_found {name : String} {d : FragmentDefinition}
    (found : FragmentDefinition.find? fragments name = some d)
    (selected : Selects (FragmentDefinition.without fragments name) d.selections f) :
    Selects fragments (.spread name :: selections) f := by
  have named : d.name = name := by simpa using List.find?_some found
  subst named
  exact .spread List.mem_cons_self (List.mem_of_find?_eq_some found)
    (selected.mono List.filter_sublist.subset (List.Subset.refl _))

theorem of_collectFields {typeName : String} {fields : List Field}
    (collected : collectFields typeName fragments selections = .ok fields) :
    ∀ f ∈ fields, Selects fragments selections f := by
  fun_induction collectFields typeName fragments selections generalizing fields with
  | case1 fragments =>
      cases collected
      exact List.forall_mem_nil _
  | case2 fragments given? name arguments selections rest ih =>
      obtain ⟨more, later, made⟩ := bind_eq_ok collected
      cases made
      exact List.forall_mem_cons.2
        ⟨.field List.mem_cons_self, fun f mem => (ih later f mem).of_rest⟩
  | case3 fragments name rest missing => cases collected
  | case4 fragments name rest d found _ fits ihRest =>
      rename_i ihInner
      obtain ⟨inner, expanded, others⟩ := bind_eq_ok collected
      obtain ⟨more, later, made⟩ := bind_eq_ok others
      cases made
      exact List.forall_mem_append.2 ⟨fun f mem => of_found found (ihInner expanded f mem),
        fun f mem => (ihRest later f mem).of_rest⟩
  | case5 fragments name rest d found _ misfits =>
      rename_i ih
      obtain ⟨inner, unexpanded, others⟩ := bind_eq_ok collected
      obtain ⟨more, later, made⟩ := bind_eq_ok others
      cases unexpanded
      cases made
      exact fun f mem => (ih later f mem).of_rest
  | case6 fragments condition? selections rest _ fits ihRest =>
      rename_i ihInner
      obtain ⟨inner, expanded, others⟩ := bind_eq_ok collected
      obtain ⟨more, later, made⟩ := bind_eq_ok others
      cases made
      exact List.forall_mem_append.2
        ⟨fun f mem => .inlined List.mem_cons_self (ihInner expanded f mem),
          fun f mem => (ihRest later f mem).of_rest⟩
  | case7 fragments condition? selections rest _ misfits =>
      rename_i ih
      obtain ⟨inner, unexpanded, others⟩ := bind_eq_ok collected
      obtain ⟨more, later, made⟩ := bind_eq_ok others
      cases unexpanded
      cases made
      exact fun f mem => (ih later f mem).of_rest

theorem of_firstField? (found : firstField? fragments selections = some f) :
    Selects fragments selections f := by
  fun_induction firstField? fragments selections with
  | case1 => cases found
  | case2 fragments given? name arguments selections rest =>
      cases found
      exact .field List.mem_cons_self
  | case3 fragments name rest d defined g first ih =>
      rw [first] at ih
      exact of_found defined (ih found)
  | case4 fragments name rest d defined none ih₁ ih₂ => exact (ih₂ found).of_rest
  | case5 fragments name rest missing ih => exact (ih found).of_rest
  | case6 fragments condition? selections rest g first ih =>
      rw [first] at ih
      exact .inlined List.mem_cons_self (ih found)
  | case7 fragments condition? selections rest none ih₁ ih₂ => exact (ih₂ found).of_rest

/-- The fields at any depth hold what is selected and all that is selected on it. -/
theorem mem_fieldsOf {all : List Field} (known : ∀ d ∈ fragments, fieldsOf d.selections ⊆ all)
    (inside : fieldsOf selections ⊆ all) (selected : Selects fragments selections f) :
    f ∈ all ∧ fieldsOf f.selections ⊆ all := by
  induction selected with
  | field mem =>
      have own := List.Subset.trans (fields_subset_fieldsOf mem) inside
      rwa [Selection.fields, List.cons_subset] at own
  | spread mem defined _ ih => exact ih (known _ defined)
  | inlined mem _ ih =>
      have own := List.Subset.trans (fields_subset_fieldsOf mem) inside
      rw [Selection.fields] at own
      exact ih own

end Selects

/-- The root field of an operation, with the fragments of the operation and the variable of the
root node. -/
structure Origin where
  fragments : List FragmentDefinition
  path : String
  root : Field

/-- Which fields stand at a variable: the root field at the root node, and a field that is selected
on another one below it, under its response key. -/
inductive Origin.Stands (o : Origin) : String → Field → Prop where
  | root : o.Stands o.path o.root
  | inner {path : String} {f g : Field} (outer : o.Stands path f)
      (selected : Selects o.fragments f.selections g) : o.Stands (path ++ "_" ++ g.responseKey) g

/-- All that stands somewhere is among the fields of the operation. -/
theorem Origin.Stands.mem_fields {operation : Operation} {root f : Field} {path place : String}
    (first : operation.rootField? = some root)
    (stands : Origin.Stands ⟨operation.fragments, path, root⟩ place f) :
    f ∈ fields operation ∧ fieldsOf f.selections ⊆ fields operation := by
  have known : ∀ d ∈ operation.fragments, fieldsOf d.selections ⊆ fields operation :=
    fun d mem _ inside => List.mem_append_right _ (List.mem_flatMap.2 ⟨d, mem, inside⟩)
  induction stands with
  | root => exact (Selects.of_firstField? first).mem_fieldsOf known (List.subset_append_left _ _)
  | inner outer selected ih => exact selected.mem_fieldsOf known ih.2

/-- A field stands at a variable, perhaps with other selections, and so do the fields selected on it
below. -/
structure Occurs (o : Origin) (path : String) (f : Field) : Prop where
  standing : ∃ g, o.Stands path g ∧ g.given? = f.given? ∧ g.name = f.name
    ∧ g.arguments = f.arguments
  inner : ∀ g, Selects o.fragments f.selections g → o.Stands (path ++ "_" ++ g.responseKey) g

section Occurs

variable {o : Origin} {path : String}

theorem Origin.Stands.occurs {f : Field} (stands : o.Stands path f) : Occurs o path f where
  standing := ⟨f, stands, rfl, rfl, rfl⟩
  inner _ selected := .inner stands selected

/-- Fields of one response key are merged where they stand. -/
theorem occurs_groupFields {fields : List Field}
    (each : ∀ f ∈ fields, Occurs o (path ++ "_" ++ f.responseKey) f) :
    ∀ f ∈ groupFields fields, Occurs o (path ++ "_" ++ f.responseKey) f := by
  fun_induction groupFields fields with
  | case1 => exact List.forall_mem_nil _
  | case2 f rest ih =>
      obtain ⟨first, others⟩ := List.forall_mem_cons.1 each
      refine List.forall_mem_cons.2 ⟨⟨first.standing, ?_⟩,
        ih fun g mem => others g ((List.mem_filter.1 mem).1)⟩
      intro g selected
      obtain ⟨s, mem, selected⟩ := selected.exists_mem
      rcases List.mem_append.1 mem with own | absorbed
      · exact first.inner g (.of_mem own selected)
      · obtain ⟨other, kept, mem⟩ := List.mem_flatMap.1 absorbed
        obtain ⟨later, same⟩ := List.mem_filter.1 kept
        rw [responseKey_absorb, eq_of_beq same]
        exact (others other later).inner g (.of_mem mem selected)

end Occurs

/-! ## Supplied values -/

/-- What the arguments of a field supply under a name. -/
inductive Supplies (arguments : Table Json) : String → Json → Prop where
  /-- The value of an argument. -/
  | argument {name : String} {value : Json} (given : (name, value) ∈ arguments) :
      Supplies arguments name value
  /-- A member of an input object. -/
  | member {argument name : String} {members : Table Json} {value : Json}
      (given : (argument, .object members) ∈ arguments) (entry : (name, value) ∈ members) :
      Supplies arguments name value
  /-- The first member of an input object that is not null, under the name of the argument: what a
  deletion falls back on. -/
  | first {name key : String} {before after : Table Json} {value : Json}
      (given : (name, .object (before ++ (key, value) :: after)) ∈ arguments)
      (nulls : ∀ entry ∈ before, entry.2.isNull = true) (present : value.isNull = false) :
      Supplies arguments name value
  /-- Null, where a deletion falls back on an input object that has nothing else. -/
  | nothing {name : String} {members : Table Json} (given : (name, .object members) ∈ arguments)
      (empty : ∀ entry ∈ members, entry.2.isNull = true) : Supplies arguments name .null

/-- Whether the keys of all input objects of a field are names. -/
def hasNamedInputs (f : Field) : Bool :=
  f.arguments.all fun entry => (entry.2.object?.getD []).all fun member => isName member.1

/-- The names in all fields of an operation, and the keys of their input objects, are names. -/
def Origin.IsUsable (o : Origin) : Prop :=
  ∀ path f, o.Stands path f → f.IsNamed ∧ hasNamedInputs f = true

/-- Arguments with usable names, also inside of input objects. -/
structure AreUsable (arguments : Table Json) : Prop where
  named : ∀ entry ∈ arguments, isName entry.1 = true
  inputs : ∀ entry ∈ arguments, ∀ member ∈ entry.2.object?.getD [], isName member.1 = true

/-- A value that arguments supply, with usable names. -/
structure ComesFrom (arguments : Table Json) (s : Supplied) : Prop where
  supplies : Supplies arguments s.name s.value
  name : isName s.name = true
  property : isIdentifier s.property = true

theorem Origin.IsUsable.arguments {o : Origin} (usable : o.IsUsable) {path : String} {f : Field}
    (stands : o.Stands path f) : AreUsable f.arguments where
  named := (usable path f stands).1.arguments
  inputs entry mem := List.all_eq_true.1 (List.all_eq_true.1 (usable path f stands).2 entry mem)

section Supplied

variable {arguments : Table Json}

theorem isIdentifier_property {s : Supplied} (named : isName s.name = true)
    (declared : ∀ a ∈ s.declared?, isIdentifier a.property = true) :
    isIdentifier s.property = true := by
  unfold Supplied.property
  split
  · rename_i a known
    exact declared a known
  · exact isIdentifier_of_isName named

theorem find?_bare {declared : List ArgumentDescriptor}
    (bare : ∀ a ∈ declared, isIdentifier a.property = true) (name : String) :
    ∀ a ∈ ArgumentDescriptor.find? declared name, isIdentifier a.property = true :=
  fun a found => bare a (List.mem_of_find?_eq_some found)

/-- A value supplied under the name of an argument. -/
theorem comesFrom_of_argument (usable : AreUsable arguments) {s : Supplied} {value : Json}
    (given : (s.name, value) ∈ arguments) (supplies : Supplies arguments s.name s.value)
    (declared : ∀ a ∈ s.declared?, isIdentifier a.property = true) : ComesFrom arguments s := by
  have named := usable.named (s.name, value) given
  exact ⟨supplies, named, isIdentifier_property named declared⟩

/-- The members of an input object. -/
theorem comesFrom_ofInput (usable : AreUsable arguments) {argument : String}
    {members : Table Json} (given : (argument, .object members) ∈ arguments)
    {declared : List ArgumentDescriptor} (bare : ∀ a ∈ declared, isIdentifier a.property = true) :
    ∀ s ∈ Supplied.ofInput declared members, ComesFrom arguments s := by
  intro s mem
  obtain ⟨⟨name, value⟩, kept, rfl⟩ := List.mem_map.1 mem
  have entry := (List.mem_filter.1 kept).1
  have named := usable.inputs _ given (name, value) entry
  exact ⟨.member given entry, named, isIdentifier_property named (find?_bare bare name)⟩

theorem comesFrom_suppliedByArgument (usable : AreUsable arguments) {index : Index}
    (schema : index.IsBare) {declared : List ArgumentDescriptor}
    (bare : ∀ a ∈ declared, isIdentifier a.property = true) {name : String} {value : Json}
    (given : (name, value) ∈ arguments) {supplied : List Supplied}
    (found : suppliedByArgument index declared name value = .ok supplied) :
    ∀ s ∈ supplied, ComesFrom arguments s := by
  have whole : ∀ s ∈ [(⟨name, ArgumentDescriptor.find? declared name, value⟩ : Supplied)],
      ComesFrom arguments s := by
    intro s mem
    obtain rfl := List.mem_singleton.1 mem
    exact comesFrom_of_argument usable given (.argument given) (find?_bare bare name)
  unfold suppliedByArgument at found
  split at found
  · cases found
    exact List.forall_mem_nil _
  dsimp only at found
  split at found
  · rename_i members
    split at found
    · split at found
      · rename_i a known
        obtain ⟨inputs, declaredInputs, made⟩ := bind_eq_ok found
        cases made
        exact comesFrom_ofInput usable given (schema.inputArguments declaredInputs)
      · cases found
        exact comesFrom_ofInput usable given (List.forall_mem_nil _)
    · cases found
      exact whole
  · cases found
    exact whole

/-- What the arguments of a field say about its node. -/
theorem comesFrom_suppliedByArguments (usable : AreUsable arguments) {index : Index}
    (schema : index.IsBare) {declared : List ArgumentDescriptor}
    (bare : ∀ a ∈ declared, isIdentifier a.property = true) {some : Table Json}
    (given : some ⊆ arguments) {supplied : List Supplied}
    (found : suppliedByArguments index declared some = .ok supplied) :
    ∀ s ∈ supplied, ComesFrom arguments s := by
  induction some generalizing supplied with
  | nil =>
      cases found
      exact List.forall_mem_nil _
  | cons entry rest ih =>
      obtain ⟨name, value⟩ := entry
      rw [List.cons_subset] at given
      rw [suppliedByArguments] at found
      obtain ⟨first, here, others⟩ := bind_eq_ok found
      obtain ⟨more, later, made⟩ := bind_eq_ok others
      cases made
      exact List.forall_mem_append.2
        ⟨comesFrom_suppliedByArgument usable schema bare given.1 here, ih given.2 later⟩

end Supplied

/-! ## Arguments of mutations -/

theorem orElse_cases {α : Type} {first second : Option α} {a : α}
    (found : (first <|> second) = some a) : first = some a ∨ second = some a := by
  cases first with
  | none => exact .inr found
  | some b => exact .inl found

namespace Given

/-- What is known of the arguments has usable names. -/
structure IsUsable (arguments : Table Json) (g : Given) : Prop where
  given : g.field.arguments = arguments
  usable : AreUsable arguments
  declared : ∀ a ∈ g.declared, isIdentifier a.property = true
  input : ∀ s ∈ g.input, ComesFrom arguments s

variable {arguments : Table Json} {g : Given} {s : Supplied}

theorem isUsable_ofField {index : Index} (schema : index.IsBare) {root : Root} (bare : root.IsBare)
    {field : Field} (usable : AreUsable field.arguments)
    (found : ofField index root field = .ok g) : g.IsUsable field.arguments := by
  unfold ofField at found
  split at found
  · cases found
    exact ⟨rfl, usable, bare.arguments, List.forall_mem_nil _⟩
  rename_i name value object
  have shape : ∃ inputs : List ArgumentDescriptor, (∀ a ∈ inputs, isIdentifier a.property = true)
      ∧ g = ⟨field, root.arguments, Supplied.ofInput inputs (value.object?.getD [])⟩ := by
    dsimp only at found
    split at found
    · obtain ⟨inputs, declared, made⟩ := bind_eq_ok found
      exact ⟨inputs, schema.inputArguments declared, (Except.ok.inj made).symm⟩
    · exact ⟨[], List.forall_mem_nil _, (Except.ok.inj found).symm⟩
  obtain ⟨inputs, declared, rfl⟩ := shape
  refine ⟨rfl, usable, bare.arguments, ?_⟩
  have given := List.mem_of_find?_eq_some object
  cases value with
  | object members => exact comesFrom_ofInput usable given declared
  | null | bool | number | string | array => exact List.forall_mem_nil _

/-- A value of a declared argument, under its name. -/
theorem comesFrom_declared (known : g.IsUsable arguments) {a : ArgumentDescriptor}
    (declared : a ∈ g.declared) {value : Json} (given : g.field.argument? a.name = some value) :
    ComesFrom arguments ⟨a.name, some a, value⟩ := by
  have entry : (a.name, value) ∈ arguments := known.given ▸ Table.mem_of_get? given
  refine comesFrom_of_argument known.usable entry (.argument entry) ?_
  rintro a ⟨⟩
  exact known.declared a declared

/-- An identity among the arguments themselves is the value of a declared one. -/
theorem ownId?_eq_some (found : g.ownId? = some s) :
    ∃ a ∈ g.declared, ∃ value, g.scalar? a = some value ∧ s = ⟨a.name, some a, value⟩ := by
  obtain ⟨⟨a, value⟩, chosen, rfl⟩ := Option.map_eq_some_iff.1 found
  have mem : (a, value) ∈ g.declared.filterMap fun a => (g.scalar? a).map fun value =>
      (a, value) := by
    rcases orElse_cases chosen with marked | typed
    · exact List.mem_of_find?_eq_some marked
    · exact List.mem_of_find?_eq_some typed
  obtain ⟨b, declared, made⟩ := List.mem_filterMap.1 mem
  obtain ⟨v, scalar, same⟩ := Option.map_eq_some_iff.1 made
  cases same
  exact ⟨a, declared, value, scalar, rfl⟩

theorem comesFrom_ownId? (known : g.IsUsable arguments) (found : g.ownId? = some s) :
    ComesFrom arguments s := by
  obtain ⟨a, declared, value, scalar, rfl⟩ := ownId?_eq_some found
  exact comesFrom_declared known declared (Option.filter_eq_some_iff.1 scalar).1

theorem mem_input_of_inputId? {identity? : Option String}
    (found : g.inputId? identity? = some s) : s ∈ g.input := by
  rcases orElse_cases found with marked | other
  · exact List.mem_of_find?_eq_some marked
  rcases orElse_cases other with named | typed
  · exact List.mem_of_find?_eq_some named
  · exact List.mem_of_find?_eq_some typed

/-- The first value among members that is not null, or null. -/
theorem supplies_firstMember {name : String} {members : Table Json}
    (given : (name, .object members) ∈ arguments) :
    Supplies arguments name
      (((members.map Prod.snd).find? fun member => !member.isNull).getD .null) := by
  rw [List.find?_map]
  cases chosen : members.find? ((fun member => !member.isNull) ∘ Prod.snd) with
  | none =>
      refine .nothing given fun entry mem => ?_
      simpa using List.find?_eq_none.1 chosen entry mem
  | some entry =>
      obtain ⟨present, before, after, rfl, nulls⟩ := List.find?_eq_some_iff_append.1 chosen
      refine .first given (fun other mem => ?_) (by simpa using present)
      simpa using nulls other mem

theorem comesFrom_firstValue? (known : g.IsUsable arguments) (found : g.firstValue? = some s) :
    ComesFrom arguments s := by
  obtain ⟨⟨name, value⟩, first, rfl⟩ := Option.map_eq_some_iff.1 found
  have entry : (name, value) ∈ arguments := known.given ▸ List.mem_of_find?_eq_some first
  cases value with
  | object members =>
      exact comesFrom_of_argument known.usable entry (supplies_firstMember entry) (by rintro a ⟨⟩)
  | null | bool | number | string | array =>
      exact comesFrom_of_argument known.usable entry (.argument entry) (by rintro a ⟨⟩)

/-- Where the identity of a written node can be found. -/
theorem nodeId_cases {index : Index} {root : Root} {fallBack : Bool}
    (found : g.nodeId index root fallBack = .ok s) :
    g.ownId? = some s ∨ g.inputId? (index.identityField? root.returnType) = some s
      ∨ g.ownId? = none ∧ g.inputId? (index.identityField? root.returnType) = none
        ∧ fallBack = true ∧ g.firstValue? = some s := by
  unfold nodeId at found
  dsimp only at found
  cases own : g.ownId? with
  | some id =>
      rw [own] at found
      cases found
      exact .inl rfl
  | none =>
      cases inside : g.inputId? (index.identityField? root.returnType) with
      | some id =>
          rw [own, inside] at found
          cases found
          exact .inr (.inl rfl)
      | none =>
          rw [own, inside] at found
          cases fallBack with
          | false => cases found
          | true =>
              cases last : g.firstValue? with
              | none =>
                  rw [last] at found
                  cases found
              | some id =>
                  rw [last] at found
                  cases found
                  exact .inr (.inr ⟨rfl, rfl, rfl, rfl⟩)

/-- The identity of a written node is a value that the arguments supply. -/
theorem comesFrom_nodeId (known : g.IsUsable arguments) {index : Index} {root : Root}
    {fallBack : Bool} (found : g.nodeId index root fallBack = .ok s) : ComesFrom arguments s := by
  obtain own | inside | ⟨-, -, -, last⟩ := nodeId_cases found
  · exact comesFrom_ownId? known own
  · exact known.input s (mem_input_of_inputId? inside)
  · exact comesFrom_firstValue? known last

theorem comesFrom_named? (known : g.IsUsable arguments) {word : String}
    (found : g.named? word = some s) : ComesFrom arguments s := by
  obtain ⟨⟨name, value⟩, first, rfl⟩ := Option.map_eq_some_iff.1 found
  have entry : (name, value) ∈ arguments := known.given ▸ List.mem_of_find?_eq_some first
  exact comesFrom_of_argument known.usable entry (.argument entry) (by rintro a ⟨⟩)

theorem comesFrom_otherIds (known : g.IsUsable arguments) :
    ∀ s ∈ g.otherIds, ComesFrom arguments s := by
  intro s mem
  obtain ⟨a, other, made⟩ := List.mem_filterMap.1 (List.mem_filter.1 mem).1
  obtain ⟨value, given, rfl⟩ := Option.map_eq_some_iff.1 made
  exact comesFrom_declared known (List.mem_filter.1 other).1 given

/-- Where the identities of the ends of a written edge can be found. -/
theorem endpoints_cases {root : Root} {ends : Supplied × Supplied}
    (found : g.endpoints root = .ok ends) :
    ((∃ word, g.named? word = some ends.1) ∨ ends.1 ∈ g.otherIds)
      ∧ ((∃ word, g.named? word = some ends.2) ∨ ends.2 ∈ g.otherIds) := by
  have chosen {word : String} {others : List Supplied} (sub : others ⊆ g.otherIds) {s : Supplied}
      (found : (g.named? word <|> others.head?) = some s) :
      (∃ word, g.named? word = some s) ∨ s ∈ g.otherIds := by
    rcases orElse_cases found with named | next
    · exact .inl ⟨word, named⟩
    · exact .inr (sub (List.mem_of_head? next))
  unfold endpoints at found
  dsimp only at found
  split at found
  · rename_i source target first second
    cases found
    refine ⟨chosen (List.Subset.refl _) first, chosen ?_ second⟩
    split
    · exact List.Subset.refl _
    · exact List.drop_subset 1 _
  · cases found
  · cases found

/-- The identities of the ends of a written edge are values that the arguments supply. -/
theorem comesFrom_endpoints (known : g.IsUsable arguments) {root : Root}
    {ends : Supplied × Supplied} (found : g.endpoints root = .ok ends) :
    ComesFrom arguments ends.1 ∧ ComesFrom arguments ends.2 := by
  have supplied {s : Supplied} (source : (∃ word, g.named? word = some s) ∨ s ∈ g.otherIds) :
      ComesFrom arguments s := by
    obtain ⟨word, named⟩ | other := source
    · exact comesFrom_named? known named
    · exact comesFrom_otherIds known s other
  exact ⟨supplied (endpoints_cases found).1, supplied (endpoints_cases found).2⟩

end Given

/-! ## Names of mutations -/

namespace MutationName

theorem cut?_subset {marker chars before after : List Char}
    (found : cut? marker chars = some (before, after)) : before ⊆ chars ∧ after ⊆ chars := by
  induction chars generalizing before after with
  | nil =>
      rw [cut?] at found
      split at found
      · cases found
        exact ⟨List.Subset.refl _, List.Subset.refl _⟩
      · cases found
  | cons c rest ih =>
      rw [cut?] at found
      split at found
      · rename_i behind split
        cases found
        have whole := List.isPrefixOf?_eq_some_iff_append_eq.1 split
        exact ⟨List.nil_subset _, whole ▸ List.subset_append_right _ _⟩
      · obtain ⟨⟨b, a⟩, later, same⟩ := Option.map_eq_some_iff.1 found
        cases same
        have inner := ih later
        exact ⟨List.cons_subset.2 ⟨List.mem_cons_self,
          List.subset_cons_of_subset c inner.1⟩, List.subset_cons_of_subset c inner.2⟩

theorem connectedType?_subset {words type : List Char} (found : connectedType? words = some type) :
    type ⊆ words := by
  unfold connectedType? at found
  split at found
  · rename_i before c rest split
    cases found
    exact (cut?_subset split).2
  · cases found

theorem edgeType_subset (words : List Char) : edgeType words ⊆ words := by
  unfold edgeType
  split
  · exact List.Subset.refl _
  · split
    · rename_i before after split
      exact List.cons_subset.2 ⟨List.mem_cons_self,
        List.subset_cons_of_subset _ (cut?_subset split).1⟩
    · exact List.Subset.refl _

theorem shaped?_words {shape : MutationShape} {verb : String}
    {typeOf : List Char → Option (List Char)} {name : List Char} {found : MutationName}
    (part : ∀ words type, typeOf words = some type → type ⊆ words)
    (shaped : shaped? shape verb typeOf name = some found) :
    ∀ c ∈ found.typeName.toList, isWord c = true := by
  obtain ⟨words, after, cutting⟩ := Option.bind_eq_some_iff.1 shaped
  obtain ⟨type, cut, made⟩ := Option.bind_eq_some_iff.1 cutting
  cases made
  intro c mem
  rw [String.toList_ofList] at mem
  unfold wordsAfter? at after
  split at after
  · split at after
    · rename_i all
      cases after
      exact List.all_eq_true.1 all c (part _ _ cut mem)
    · cases after
  · cases after

/-- The type that a mutation name gives is made of word characters. -/
theorem classify_words {name : String} {found : MutationName} (known : classify name = some found) :
    ∀ c ∈ found.typeName.toList, isWord c = true := by
  have whole : ∀ words type : List Char, some words = some type → type ⊆ words := by
    rintro words type ⟨⟩
    exact List.Subset.refl _
  have edge : ∀ words type, (some ∘ edgeType) words = some type → type ⊆ words := by
    rintro words type ⟨⟩
    exact edgeType_subset words
  unfold classify at known
  dsimp only at known
  rcases orElse_cases known with first | known
  · exact shaped?_words whole first
  rcases orElse_cases known with second | known
  · exact shaped?_words whole second
  rcases orElse_cases known with third | known
  · exact shaped?_words whole third
  rcases orElse_cases known with fourth | known
  · exact shaped?_words (fun _ _ => connectedType?_subset) fourth
  rcases orElse_cases known with fifth | sixth
  · exact shaped?_words edge fifth
  · exact shaped?_words edge sixth

end MutationName

/-- The label of a written type may stand between back quotes. -/
theorem quotable_writtenLabel {index : Index} (schema : index.IsBare) {name : String}
    {found : MutationName} (known : MutationName.classify name = some found) :
    Quotable (writtenLabel index found.typeName) := by
  unfold writtenLabel
  split
  · rename_i t type
    exact Quotable.of_isIdentifier (schema.storedType (Index.mem_of_type? type))
  · intro mem
    exact absurd (MutationName.classify_words known _ mem) (by decide +kernel)

/-! ## Resolved selections -/

/-- A scalar field with a usable name and without an override. -/
def Scalar.IsBare : Scalar → Prop
  | .typeName _ | .identity => True
  | .property stored => isIdentifier stored = true
  | .override .. => False

/-- A relationship with usable names, filtered by values that arguments supply. -/
def Reach.IsBare (arguments : Table Json) : Reach → Prop
  | .relationship edgeType _ label _ supplied =>
      isIdentifier edgeType = true ∧ isIdentifier label = true
        ∧ ∀ s ∈ supplied, ComesFrom arguments s
  | .override .. => False

mutual

/-- An entry with usable names below a variable, which is filtered by the arguments of the field
that stands there. -/
def Entry.IsBare (o : Origin) (path : String) : Entry → Prop
  | .scalar key value => isName key = true ∧ value.IsBare
  | .object key reach _ entries => isName key = true
      ∧ (∃ f, o.Stands (path ++ "_" ++ key) f ∧ reach.IsBare f.arguments)
      ∧ AreBare o (path ++ "_" ++ key) entries

/-- Entries with usable names below a variable. -/
def AreBare (o : Origin) (path : String) : List Entry → Prop
  | [] => True
  | e :: rest => e.IsBare o path ∧ AreBare o path rest

end

section Resolved

variable {o : Origin} {path : String}

theorem areBare_of_forall {entries : List Entry} (each : ∀ e ∈ entries, e.IsBare o path) :
    AreBare o path entries := by
  induction entries with
  | nil => exact .intro
  | cons e rest ih =>
      obtain ⟨first, others⟩ := List.forall_mem_cons.1 each
      exact ⟨first, ih others⟩

theorem isName_responseKey (usable : o.IsUsable) {f : Field} (occurs : Occurs o path f) :
    isName f.responseKey = true := by
  obtain ⟨g, standing, given, name, -⟩ := occurs.standing
  have named := (usable path g standing).1
  unfold Field.responseKey
  cases shape : f.given? with
  | none => exact name ▸ named.name
  | some other => exact named.given other (given.trans shape)

theorem isBare_resolveScalar {d : FieldDescriptor} (bare : d.IsBare) {field : Field}
    {value : Scalar} (found : resolveScalar d field = .ok value) : value.IsBare := by
  obtain rfl | rfl | ⟨text, fragment, parts, overridden, -⟩ := resolveScalar_cases found
  · exact .intro
  · exact bare.stored
  · exact absurd overridden (bare.plain text)

theorem isBare_resolveReach {ctx : Context} (schema : ctx.index.IsBare) {d : FieldDescriptor}
    (bare : d.IsBare) {field : Field} (usable : AreUsable field.arguments) {reach : Reach}
    (found : resolveReach ctx d field = .ok reach) : reach.IsBare field.arguments := by
  obtain ⟨edgeType, direction, label, supplied, mapped, labelled, given, rfl⟩ | ⟨text, fragment,
    parts, returned, overridden, -⟩ := resolveReach_cases found
  · exact ⟨bare.edgeType edgeType direction mapped, schema.label labelled,
      comesFrom_suppliedByArguments usable schema bare.arguments (List.Subset.refl _) given⟩
  · exact absurd overridden (bare.plain text)

/-- Every entry that a selection of the operation comes to has usable names and takes its values
from the field that stands at its variable. -/
theorem areBare_resolve (usable : o.IsUsable) {ctx : Context} (schema : ctx.index.IsBare)
    (known : ctx.fragments = o.fragments) {levels : Nat} {typeName : String}
    {selections : List Selection}
    (inside : ∀ g, Selects o.fragments selections g → o.Stands (path ++ "_" ++ g.responseKey) g)
    {entries : List Entry} (found : resolve ctx levels typeName selections = .ok entries) :
    AreBare o path entries := by
  induction levels generalizing path typeName selections entries with
  | zero => cases found
  | succ levels ih =>
      obtain ⟨fields, collected, found⟩ := resolve_eq_ok found
      rw [known] at collected
      -- merged fields are not fields of the operation, but what they hold is
      have occurs := occurs_groupFields fun f mem =>
        (inside f (Selects.of_collectFields collected f mem)).occurs
      refine areBare_of_forall (forall_mem_of_mapM ?_ found)
      intro field grouped e resolved
      have key := isName_responseKey usable (occurs field grouped)
      obtain rfl | ⟨d, looked, ⟨value, valued, rfl⟩ | ⟨reach, inner, reached, selected, rfl⟩⟩ :=
        resolveField_cases resolved
      · exact ⟨key, .intro⟩
      · exact ⟨key, isBare_resolveScalar (schema.field looked) valued⟩
      · obtain ⟨g, standing, -, -, same⟩ := (occurs field grouped).standing
        refine ⟨key, ⟨g, standing, ?_⟩, ih (occurs field grouped).inner selected⟩
        rw [same]
        exact isBare_resolveReach schema (schema.field looked) (same ▸ usable.arguments standing)
          reached

end Resolved

end GraphBridge.Compile
