import GraphBridge.Proofs.DefinitionOrder
import GraphBridge.Proofs.Equality
import GraphBridge.Proofs.Reading

/-!
# Variables as substitution

An operation is resolved for the values of its variables in one pass, which reads arguments, decides
by directives which selections stay and does so again in every fragment. The same operation results
when each reference in the document is first replaced by a constant that denotes the value of its
variable, and the document is then resolved without any values. What a constant denotes is said
apart from the two ways in which constants are read, as defaults and as values. Replacing happens
where references are, at any depth, and touches nothing else: what was wrong with the document still
is, names and types stay, and the other operations keep their places.
-/

namespace GraphBridge

/-- Items are related one by one to what a function makes of them. -/
theorem forall₂_iff_map_eq {α β : Type} {related : α → β → Prop} {f : α → β} {items : List α}
    (each : ∀ a ∈ items, ∀ b, related a b ↔ f a = b) {values : List β} :
    List.Forall₂ related items values ↔ items.map f = values := by
  induction items generalizing values with
  | nil => simp [eq_comm]
  | cons a rest ih =>
      obtain ⟨own, others⟩ := List.forall_mem_cons.1 each
      cases values with
      | nil => simp
      | cons b values => rw [List.forall₂_cons, own, ih others, List.map_cons, List.cons.injEq]

namespace Constant

/-! ## What a constant denotes -/

/-- The value that a constant stands for. An enumeration token stands for its name. An object has
the names of its members in the order in which they come first, and under each name what the last
member of that name denotes. -/
inductive Denotes : Constant → Json → Prop where
  | null : Denotes .null .null
  | number (value : Json.Number) : Denotes (.number value) (.number value)
  | string (value : String) : Denotes (.string value) (.string value)
  | boolean (value : Bool) : Denotes (.boolean value) (.bool value)
  | enum (name : String) : Denotes (.enum name) (.string name)
  | list {items : List Constant} {values : List Json} (each : List.Forall₂ Denotes items values) :
      Denotes (.list items) (.array values)
  | object {members : List (String × Constant)} {values : Table Json}
      (names : values.map Prod.fst = (members.map Prod.fst).eraseDups)
      (last : ∀ name constant value, Table.last? members name = some constant →
        (name, value) ∈ values → Denotes constant value) :
      Denotes (.object members) (.object values)

/-- An induction over a constant. -/
@[elab_as_elim]
theorem induction {motive : Constant → Prop} (null : motive .null)
    (number : ∀ n, motive (.number n)) (string : ∀ s, motive (.string s))
    (boolean : ∀ b, motive (.boolean b)) (enum : ∀ name, motive (.enum name))
    (list : ∀ items, (∀ item ∈ items, motive item) → motive (.list items))
    (object : ∀ members, (∀ entry ∈ members, motive entry.2) → motive (.object members))
    (constant : Constant) : motive constant := by
  cases constant with
  | null => exact null
  | number n => exact number n
  | string s => exact string s
  | boolean b => exact boolean b
  | enum name => exact enum name
  | list items =>
      exact list items fun item _ => induction null number string boolean enum list object item
  | object members =>
      exact object members fun entry _ =>
        induction null number string boolean enum list object entry.2
termination_by sizeOf constant
decreasing_by
  · next inside =>
      have smaller := List.sizeOf_lt_of_mem inside
      simp only [Constant.list.sizeOf_spec]
      omega
  · next inside =>
      have smaller := List.sizeOf_lt_of_mem inside
      obtain ⟨name, constant⟩ := entry
      simp only [Prod.mk.sizeOf_spec, Constant.object.sizeOf_spec] at smaller ⊢
      omega

theorem writtenItems_eq (items : List Constant) : writtenItems items = items.map written := by
  induction items with
  | nil => rfl
  | cons item rest ih => rw [writtenItems, ih, List.map_cons]

theorem writtenMembers_eq (members : List (String × Constant)) :
    writtenMembers members = members.map fun entry => (entry.1, entry.2.written) := by
  induction members with
  | nil => rfl
  | cons entry rest ih => rw [writtenMembers, ih, List.map_cons]

theorem toJson_list (items : List Constant) : (list items).toJson = .array (items.map toJson) := by
  rw [toJson, written, Json.tidy, Json.tidyItems_eq, writtenItems_eq, List.map_map]
  rfl

theorem toJson_object (members : List (String × Constant)) :
    (object members).toJson
      = .object (Table.ofList (members.map fun entry => (entry.1, entry.2.toJson))) := by
  rw [toJson, written, Json.tidy, Json.tidyMembers_eq, writtenMembers_eq, List.map_map]
  rfl

/-- Members that are read one after the other make the object that they denote: the names are the
same in the same order, and each name has one value. -/
theorem ofList_eq_iff {members : List (String × Constant)} {values : Table Json} :
    Table.ofList (members.map fun entry => (entry.1, entry.2.toJson)) = values
      ↔ values.map Prod.fst = (members.map Prod.fst).eraseDups
        ∧ ∀ name constant value, Table.last? members name = some constant →
            (name, value) ∈ values → constant.toJson = value := by
  have names : (Table.ofList (members.map fun entry => (entry.1, entry.2.toJson))).map Prod.fst
      = (members.map Prod.fst).eraseDups := by
    have keys := Table.keys_ofList (members.map fun entry => (entry.1, entry.2.toJson))
    rw [Table.keys, Table.keys, List.map_map] at keys
    exact keys
  have found {name : String} {value : Json}
      (mem : (name, value) ∈ Table.ofList (members.map fun entry => (entry.1, entry.2.toJson))) :
      (Table.last? members name).map toJson = some value := by
    rw [← Table.last?_map, ← Table.get?_ofList]
    exact (Table.get?_eq_some_iff (Table.nodup_keys_ofList _)).2 mem
  constructor
  · rintro rfl
    refine ⟨names, fun name constant value last mem => ?_⟩
    have same := found mem
    rw [last] at same
    exact Option.some.inj same
  · rintro ⟨names', last⟩
    refine Table.ext (names.trans names'.symm) fun name a b mem mem' => ?_
    obtain ⟨constant, known, rfl⟩ := Option.map_eq_some_iff.1 (found mem)
    exact last name constant b known mem'

/-- A constant denotes the value that it is read as, and no other. -/
theorem denotes_iff {constant : Constant} {value : Json} :
    constant.Denotes value ↔ constant.toJson = value := by
  induction constant using induction generalizing value with
  | null | number _ | string _ | boolean _ | enum _ =>
      constructor
      · rintro ⟨⟩
        rfl
      · rintro rfl
        constructor
  | list items ih =>
      have each {values : List Json} :
          List.Forall₂ Denotes items values ↔ items.map toJson = values :=
        forall₂_iff_map_eq fun item mem _ => ih item mem
      rw [toJson_list]
      constructor
      · rintro (_ | _ | _ | _ | _ | inside)
        rw [each.1 inside]
      · rintro rfl
        exact .list (each.2 rfl)
  | object members ih =>
      have own {name : String} {constant : Constant}
          (last : Table.last? members name = some constant) {value : Json} :
          constant.Denotes value ↔ constant.toJson = value :=
        ih _ (Table.mem_of_last? last)
      rw [toJson_object]
      constructor
      · rintro (_ | _ | _ | _ | _ | _ | ⟨names, last⟩)
        refine congrArg Json.object (ofList_eq_iff.2 ⟨names, ?_⟩)
        exact fun name constant value found mem => (own found).1 (last name constant value found mem)
      · rintro rfl
        obtain ⟨names, last⟩ := ofList_eq_iff.1 rfl
        exact .object names fun name constant value found mem =>
          (own found).2 (last name constant value found mem)

/-! ## Constants for values -/

mutual

/-- A JSON value written out as a constant. -/
def ofJson : Json → Constant
  | .null => .null
  | .bool value => .boolean value
  | .number value => .number value
  | .string value => .string value
  | .array items => .list (ofItems items)
  | .object members => .object (ofMembers members)

/-- Each item written out. -/
def ofItems : List Json → List Constant
  | [] => []
  | item :: rest => ofJson item :: ofItems rest

/-- Each member written out. -/
def ofMembers : List (String × Json) → List (String × Constant)
  | [] => []
  | (name, value) :: rest => (name, ofJson value) :: ofMembers rest

end

mutual

theorem written_ofJson (value : Json) : (ofJson value).written = value := by
  match value with
  | .null | .bool _ | .number _ | .string _ => rfl
  | .array items => rw [ofJson, written, writtenItems_ofItems items]
  | .object members => rw [ofJson, written, writtenMembers_ofMembers members]

theorem writtenItems_ofItems (items : List Json) : writtenItems (ofItems items) = items := by
  match items with
  | [] => rfl
  | item :: rest => rw [ofItems, writtenItems, written_ofJson item, writtenItems_ofItems rest]

theorem writtenMembers_ofMembers (members : List (String × Json)) :
    writtenMembers (ofMembers members) = members := by
  match members with
  | [] => rfl
  | (name, value) :: rest =>
      rw [ofMembers, writtenMembers, written_ofJson value, writtenMembers_ofMembers rest]

end

theorem isFinite_ofJson (value : Json) : (ofJson value).isFinite = value.isFinite := by
  rw [isFinite, written_ofJson]

/-- A value that can be read is denoted by what it is written out as. -/
theorem denotes_ofJson {value : Json} (proper : value.IsProper) : (ofJson value).Denotes value := by
  rw [denotes_iff, toJson, written_ofJson, proper.2]

end Constant

namespace Value

/-! ## Replacing references -/

mutual

/-- Reading a constant as a value is reading it as a constant. -/
theorem resolve_ofConstant (lookup : String → Json) (constant : Constant) :
    (ofConstant constant).resolve lookup = constant.toJson := by
  match constant with
  | .null | .number _ | .string _ | .boolean _ | .enum _ => rfl
  | .list items =>
      rw [ofConstant, resolve, resolveItems_ofItems lookup items, Constant.toJson_list]
  | .object members =>
      rw [ofConstant, resolve, resolveMembers_ofMembers lookup members, Constant.toJson_object]

theorem resolveItems_ofItems (lookup : String → Json) (items : List Constant) :
    resolveItems lookup (ofItems items) = items.map Constant.toJson := by
  match items with
  | [] => rfl
  | item :: rest =>
      rw [ofItems, resolveItems, List.map_cons, resolve_ofConstant lookup item,
        resolveItems_ofItems lookup rest]

theorem resolveMembers_ofMembers (lookup : String → Json) (members : List (String × Constant)) :
    resolveMembers lookup (ofMembers members)
      = members.map fun entry => (entry.1, entry.2.toJson) := by
  match members with
  | [] => rfl
  | (name, value) :: rest =>
      rw [ofMembers, resolveMembers, List.map_cons, resolve_ofConstant lookup value,
        resolveMembers_ofMembers lookup rest]

end

mutual

theorem isFinite_ofConstant (constant : Constant) :
    (ofConstant constant).isFinite = constant.isFinite := by
  match constant with
  | .null | .number _ | .string _ | .boolean _ | .enum _ => rfl
  | .list items => exact areFinite_ofItems items
  | .object members => exact haveFinite_ofMembers members

theorem areFinite_ofItems (items : List Constant) :
    areFinite (ofItems items) = Json.areFinite (Constant.writtenItems items) := by
  match items with
  | [] => rfl
  | item :: rest =>
      rw [ofItems, areFinite, Constant.writtenItems, Json.areFinite, isFinite_ofConstant item,
        areFinite_ofItems rest, Constant.isFinite]

theorem haveFinite_ofMembers (members : List (String × Constant)) :
    haveFinite (ofMembers members) = Json.haveFinite (Constant.writtenMembers members) := by
  match members with
  | [] => rfl
  | (name, value) :: rest =>
      rw [ofMembers, haveFinite, Constant.writtenMembers, Json.haveFinite,
        isFinite_ofConstant value, haveFinite_ofMembers rest, Constant.isFinite]

end

variable {constants : String → Constant}

mutual

/-- A value with every reference replaced by the constant for its variable. -/
def replace (constants : String → Constant) : Value → Value
  | .reference name => ofConstant (constants name)
  | .list items => .list (replaceItems constants items)
  | .object members => .object (replaceMembers constants members)
  | other => other

/-- Items with every reference replaced. -/
def replaceItems (constants : String → Constant) : List Value → List Value
  | [] => []
  | item :: rest => replace constants item :: replaceItems constants rest

/-- Members with every reference replaced. -/
def replaceMembers (constants : String → Constant) :
    List (String × Value) → List (String × Value)
  | [] => []
  | (name, value) :: rest => (name, replace constants value) :: replaceMembers constants rest

end

section Resolve

variable {lookup other : String → Json}

mutual

theorem resolve_replace (same : ∀ name, (constants name).toJson = lookup name) (v : Value) :
    (v.replace constants).resolve other = v.resolve lookup := by
  match v with
  | .reference name => exact (resolve_ofConstant other _).trans (same name)
  | .null | .number _ | .string _ | .boolean _ | .enum _ => rfl
  | .list items => rw [replace, resolve, resolve, resolveItems_replace same items]
  | .object members => rw [replace, resolve, resolve, resolveMembers_replace same members]

theorem resolveItems_replace (same : ∀ name, (constants name).toJson = lookup name)
    (items : List Value) :
    resolveItems other (replaceItems constants items) = resolveItems lookup items := by
  match items with
  | [] => rfl
  | item :: rest =>
      rw [replaceItems, resolveItems, resolveItems, resolve_replace same item,
        resolveItems_replace same rest]

theorem resolveMembers_replace (same : ∀ name, (constants name).toJson = lookup name)
    (members : List (String × Value)) :
    resolveMembers other (replaceMembers constants members) = resolveMembers lookup members := by
  match members with
  | [] => rfl
  | (name, value) :: rest =>
      rw [replaceMembers, resolveMembers, resolveMembers, resolve_replace same value,
        resolveMembers_replace same rest]

end

end Resolve

mutual

theorem isFinite_replace (finite : ∀ name, (constants name).isFinite = true) (v : Value) :
    (v.replace constants).isFinite = v.isFinite := by
  match v with
  | .reference name => exact (isFinite_ofConstant _).trans (finite name)
  | .null | .number _ | .string _ | .boolean _ | .enum _ => rfl
  | .list items => exact areFinite_replace finite items
  | .object members => exact haveFinite_replace finite members

theorem areFinite_replace (finite : ∀ name, (constants name).isFinite = true)
    (items : List Value) : areFinite (replaceItems constants items) = areFinite items := by
  match items with
  | [] => rfl
  | item :: rest =>
      rw [replaceItems, areFinite, areFinite, isFinite_replace finite item,
        areFinite_replace finite rest]

theorem haveFinite_replace (finite : ∀ name, (constants name).isFinite = true)
    (members : List (String × Value)) :
    haveFinite (replaceMembers constants members) = haveFinite members := by
  match members with
  | [] => rfl
  | (name, value) :: rest =>
      rw [replaceMembers, haveFinite, haveFinite, isFinite_replace finite value,
        haveFinite_replace finite rest]

end

end Value

end GraphBridge

namespace GraphBridge.Operation.Source

variable {constants : String → Constant}

/-- A directive with every reference in its arguments replaced. -/
def replaceDirective (constants : String → Constant) (d : DirectiveUse) : DirectiveUse :=
  { d with arguments := Value.replaceMembers constants d.arguments }

/-- Directives with every reference replaced. -/
def replaceDirectives (constants : String → Constant) (directives : List DirectiveUse) :
    List DirectiveUse :=
  directives.map (replaceDirective constants)

mutual

/-- A selection with every reference replaced. -/
def Selection.replace (constants : String → Constant) : Selection → Selection
  | .field given? name arguments directives selections =>
      .field given? name (Value.replaceMembers constants arguments)
        (replaceDirectives constants directives) (Selection.replaceAll constants selections)
  | .spread fragment directives => .spread fragment (replaceDirectives constants directives)
  | .inlined condition? directives selections =>
      .inlined condition? (replaceDirectives constants directives)
        (Selection.replaceAll constants selections)

/-- Selections with every reference replaced. -/
def Selection.replaceAll (constants : String → Constant) : List Selection → List Selection
  | [] => []
  | first :: rest => Selection.replace constants first :: Selection.replaceAll constants rest

end

/-- A variable definition with every reference in its directives replaced. -/
def VariableDefinition.replace (constants : String → Constant) (v : VariableDefinition) :
    VariableDefinition :=
  { v with directives := replaceDirectives constants v.directives }

/-- An operation with every reference replaced; what it declares stays. -/
def OperationDefinition.replace (constants : String → Constant) (o : OperationDefinition) :
    OperationDefinition :=
  { o with
    declared := o.declared.map (·.replace constants)
    directives := replaceDirectives constants o.directives
    selections := Selection.replaceAll constants o.selections }

/-- A fragment with every reference replaced. -/
def FragmentDefinition.replace (constants : String → Constant) (f : FragmentDefinition) :
    FragmentDefinition :=
  { f with
    directives := replaceDirectives constants f.directives
    selections := Selection.replaceAll constants f.selections }

/-- A definition with every reference replaced. -/
def Definition.replace (constants : String → Constant) : Definition → Definition
  | .operation o => .operation (o.replace constants)
  | .fragment f => .fragment (f.replace constants)

/-! ## What replacing resolves to -/

section Resolve

variable {lookup other : String → Json}

/-- A directive reads its condition off its resolved arguments. -/
theorem condition?_eq (lookup : String → Json) (d : DirectiveUse) :
    condition? lookup d
      = ((Value.resolveMembers lookup d.arguments).find? fun entry => entry.1 == "if").bind
          fun entry => entry.2.bool? := by
  obtain ⟨directive, arguments⟩ := d
  unfold condition?
  dsimp only
  induction arguments with
  | nil => rfl
  | cons entry rest ih =>
      obtain ⟨name, value⟩ := entry
      rw [Value.resolveMembers, List.find?_cons, List.find?_cons]
      cases name == "if" with
      | true => rfl
      | false => exact ih

theorem isIncluded_replace (same : ∀ name, (constants name).toJson = lookup name)
    (directives : List DirectiveUse) :
    isIncluded other (replaceDirectives constants directives) = isIncluded lookup directives := by
  have condition (d : DirectiveUse) :
      condition? other (replaceDirective constants d) = condition? lookup d := by
    rw [condition?_eq, condition?_eq, replaceDirective, Value.resolveMembers_replace same]
  unfold isIncluded replaceDirectives
  rw [List.all_map]
  congr 1
  funext d
  rw [Function.comp_apply, condition d]
  rfl

mutual

theorem resolveSelection_replace (same : ∀ name, (constants name).toJson = lookup name)
    (s : Selection) :
    resolveSelection other (s.replace constants) = resolveSelection lookup s := by
  match s with
  | .field given? name arguments directives selections =>
      rw [Selection.replace, resolveSelection, resolveSelection, isIncluded_replace same,
        Value.resolveMembers_replace same, resolveSelections_replace same selections]
  | .spread fragment directives =>
      rw [Selection.replace, resolveSelection, resolveSelection, isIncluded_replace same]
  | .inlined condition? directives selections =>
      rw [Selection.replace, resolveSelection, resolveSelection, isIncluded_replace same,
        resolveSelections_replace same selections]

theorem resolveSelections_replace (same : ∀ name, (constants name).toJson = lookup name)
    (selections : List Selection) :
    resolveSelections other (Selection.replaceAll constants selections)
      = resolveSelections lookup selections := by
  match selections with
  | [] => rfl
  | first :: rest =>
      rw [Selection.replaceAll, resolveSelections, resolveSelections,
        resolveSelection_replace same first, resolveSelections_replace same rest]

end

end Resolve

/-! ## What is wrong with a document -/

section Fault

theorem argumentsFault?_replace (finite : ∀ name, (constants name).isFinite = true)
    (arguments : List (String × Value)) :
    argumentsFault? (Value.replaceMembers constants arguments) = argumentsFault? arguments := by
  rw [argumentsFault?, argumentsFault?, Value.haveFinite_replace finite]

theorem directivesFault?_replace (finite : ∀ name, (constants name).isFinite = true)
    (directives : List DirectiveUse) :
    directivesFault? (replaceDirectives constants directives) = directivesFault? directives := by
  have each (d : DirectiveUse) : (replaceDirective constants d).isFinite = d.isFinite :=
    Value.haveFinite_replace finite d.arguments
  have same : DirectiveUse.isFinite ∘ replaceDirective constants = DirectiveUse.isFinite :=
    funext each
  rw [directivesFault?, directivesFault?, replaceDirectives, List.all_map, same]

mutual

theorem selectionFault?_replace (finite : ∀ name, (constants name).isFinite = true)
    (levels : Nat) (s : Selection) :
    selectionFault? levels (s.replace constants) = selectionFault? levels s := by
  match s, levels with
  | .field given? name arguments directives [], _ =>
      rw [Selection.replace, Selection.replaceAll, selectionFault?, selectionFault?,
        argumentsFault?_replace finite, directivesFault?_replace finite]
  | .field given? name arguments directives (first :: rest), 0 =>
      rw [Selection.replace, Selection.replaceAll, selectionFault?, selectionFault?,
        argumentsFault?_replace finite, directivesFault?_replace finite]
  | .field given? name arguments directives (first :: rest), levels + 1 =>
      rw [Selection.replace, Selection.replaceAll, selectionFault?, selectionFault?,
        argumentsFault?_replace finite, directivesFault?_replace finite,
        selectionFault?_replace finite levels first, selectionsFault?_replace finite levels rest]
  | .spread fragment directives, _ =>
      rw [Selection.replace, selectionFault?, selectionFault?, directivesFault?_replace finite]
  | .inlined condition? directives selections, 0 =>
      rw [Selection.replace, selectionFault?, selectionFault?, directivesFault?_replace finite]
  | .inlined condition? directives selections, levels + 1 =>
      rw [Selection.replace, selectionFault?, selectionFault?, directivesFault?_replace finite,
        selectionsFault?_replace finite levels selections]

theorem selectionsFault?_replace (finite : ∀ name, (constants name).isFinite = true)
    (levels : Nat) (selections : List Selection) :
    selectionsFault? levels (Selection.replaceAll constants selections)
      = selectionsFault? levels selections := by
  match selections with
  | [] => rfl
  | first :: rest =>
      rw [Selection.replaceAll, selectionsFault?, selectionsFault?,
        selectionFault?_replace finite levels first, selectionsFault?_replace finite levels rest]

end

theorem VariableDefinition.fault?_replace (finite : ∀ name, (constants name).isFinite = true)
    (v : VariableDefinition) : (v.replace constants).fault? = v.fault? := by
  unfold fault? VariableDefinition.replace
  rw [directivesFault?_replace finite]

/-- Replacing references by constants in range puts nothing right and nothing wrong. -/
theorem Definition.fault?_replace (finite : ∀ name, (constants name).isFinite = true)
    (d : Definition) : (d.replace constants).fault? = d.fault? := by
  cases d with
  | operation o =>
      have declared : (o.declared.map (·.replace constants)).findSome? VariableDefinition.fault?
          = o.declared.findSome? VariableDefinition.fault? := by
        rw [List.findSome?_map]
        congr 1
        funext v
        exact VariableDefinition.fault?_replace finite v
      unfold fault? Definition.replace OperationDefinition.replace
      dsimp only
      rw [declared, directivesFault?_replace finite, selectionsFault?_replace finite]
  | fragment f =>
      unfold fault? Definition.replace FragmentDefinition.replace
      dsimp only
      rw [directivesFault?_replace finite, selectionsFault?_replace finite]

theorem Definition.findSome?_fault?_replace (finite : ∀ name, (constants name).isFinite = true)
    (definitions : List Definition) :
    (definitions.map (·.replace constants)).findSome? fault? = definitions.findSome? fault? := by
  rw [List.findSome?_map]
  congr 1
  funext d
  exact fault?_replace finite d

theorem Definition.clash?_replace (constants : String → Constant) (operations : List (Option String))
    (fragments : List String) (definitions : List Definition) :
    clash? operations fragments (definitions.map (·.replace constants))
      = clash? operations fragments definitions := by
  induction definitions generalizing operations fragments with
  | nil => rfl
  | cons d rest ih =>
      rw [List.map_cons]
      cases d with
      | operation o =>
          rw [Definition.replace, clash?, clash?]
          cases named : o.name? with
          | none =>
              rw [show (o.replace constants).name? = none from named]
              dsimp only
              rw [ih]
          | some name =>
              rw [show (o.replace constants).name? = some name from named]
              dsimp only
              rw [ih]
      | fragment f =>
          rw [Definition.replace, clash?, clash?, ih]
          rfl

end Fault

theorem operationsOf_replace (constants : String → Constant) (definitions : List Definition) :
    operationsOf (definitions.map (·.replace constants))
      = (operationsOf definitions).map (·.replace constants) := by
  unfold operationsOf
  rw [List.filterMap_map, List.map_filterMap]
  congr 1
  funext d
  cases d <;> rfl

theorem fragmentsOf_replace (constants : String → Constant) (definitions : List Definition) :
    fragmentsOf (definitions.map (·.replace constants))
      = (fragmentsOf definitions).map (·.replace constants) := by
  unfold fragmentsOf
  rw [List.filterMap_map, List.map_filterMap]
  congr 1
  funext d
  cases d <;> rfl

/-! ## An operation among the others of its document -/

/-- The default that an operation declares for a variable: the last one, if there are several. -/
def OperationDefinition.lastDefault? (o : OperationDefinition) (name : String) : Option Constant :=
  o.declared.reverse.findSome? fun v => if v.name = name then v.default? else none

/-- Constants that denote what the variables of an operation are: the value given, also if it is
null, else what the declared default denotes, else null. -/
structure OperationDefinition.Inlines (o : OperationDefinition) (values : Table Json)
    (constants : String → Constant) : Prop where
  finite : ∀ name, (constants name).isFinite = true
  given : ∀ name value, values.get? name = some value → (constants name).Denotes value
  declared : ∀ name constant value, values.get? name = none → o.lastDefault? name = some constant →
    constant.Denotes value → (constants name).Denotes value
  absent : ∀ name, values.get? name = none → o.lastDefault? name = none →
    (constants name).Denotes .null

namespace OperationDefinition

variable {o : OperationDefinition} {values : Table Json}

/-- The default that is found for a variable is the last one that is declared. -/
theorem get?_defaults (o : OperationDefinition) (name : String) :
    o.defaults.get? name = (o.lastDefault? name).map Constant.toJson := by
  unfold defaults lastDefault?
  rw [Table.get?_ofList]
  induction o.declared using List.reverseRecOn with
  | nil => rfl
  | append_singleton declared v ih =>
      rw [List.filterMap_append, List.reverse_concat, List.findSome?_cons]
      cases default? : v.default? with
      | none => simpa [default?] using ih
      | some constant =>
          simp only [List.filterMap_cons, default?, Option.map_some, List.filterMap_nil]
          rw [Table.last?_concat]
          by_cases same : v.name = name
          · simp [same]
          · simpa [same] using ih

/-- The constants that inline an operation denote what its variables are looked up as. -/
theorem Inlines.toJson_eq (inlines : o.Inlines values constants) (name : String) :
    (constants name).toJson = o.lookup values name := by
  rw [← Constant.denotes_iff, lookup, get?_defaults]
  cases given : values.get? name with
  | some value => exact inlines.given name value given
  | none =>
      cases declared : o.lastDefault? name with
      | some constant =>
          exact inlines.declared name constant _ given declared (Constant.denotes_iff.2 rfl)
      | none => exact inlines.absent name given declared

theorem kind_replace (constants : String → Constant) (o : OperationDefinition) :
    (o.replace constants).kind = o.kind := by
  obtain ⟨type, name?, declared, directives, selections⟩ := o
  cases type <;> rfl

/-- Whatever constants are put in for references, an operation resolves or fails as before. -/
theorem sameOutcome_replace (constants : String → Constant) (o : OperationDefinition)
    (fragments : List FragmentDefinition) (values : Table Json) :
    SameOutcome id (fun _ _ => True)
      ((o.replace constants).resolve (fragments.map (·.replace constants)) [])
      (o.resolve fragments values) := by
  unfold resolve
  rw [kind_replace]
  cases o.kind with
  | error e => exact .error rfl
  | ok kind => exact .ok trivial

/-- An operation resolves to what it resolves to, without any values, once constants stand for its
variables in it and in the fragments. -/
theorem resolve_replace (inlines : o.Inlines values constants)
    (fragments : List FragmentDefinition) :
    (o.replace constants).resolve (fragments.map (·.replace constants)) []
      = o.resolve fragments values := by
  have same (name : String) : (constants name).toJson = o.lookup values name :=
    inlines.toJson_eq name
  have fragment (f : FragmentDefinition) :
      (f.replace constants).resolve ((o.replace constants).lookup [])
        = f.resolve (o.lookup values) := by
    unfold FragmentDefinition.resolve FragmentDefinition.replace
    rw [resolveSelections_replace same]
  have fragments : (fragments.map (·.replace constants)).map
        (·.resolve ((o.replace constants).lookup []))
      = fragments.map (·.resolve (o.lookup values)) := by
    rw [List.map_map]
    congr 1
    funext f
    exact fragment f
  have selections : resolveSelections ((o.replace constants).lookup [])
        (o.replace constants).selections
      = resolveSelections (o.lookup values) o.selections := resolveSelections_replace same _
  unfold resolve
  dsimp only
  rw [fragments, selections, kind_replace]
  rfl

end OperationDefinition

/-- An operation of which the name is apart from the others is found under it among sorted
operations; without a name it is the only one, and the first. -/
theorem operation?_sortOperations {operations : List Operation}
    (apart : (operations.map (·.name?)).Pairwise AreApart) {found : Operation}
    (mem : found ∈ operations) :
    Document.operation? ⟨sortOperations operations⟩ found.name? = some found := by
  cases named : found.name? with
  | none =>
      have alone : operations = [found] := by
        match operations with
        | [] => cases mem
        | [only] => rw [List.mem_singleton.1 mem]
        | first :: second :: rest =>
            -- of two operations that are apart each has a name
            have named' : ∀ o ∈ first :: second :: rest, o.name? ≠ none := by
              rw [List.map_cons, List.pairwise_cons] at apart
              have first_named := (apart.1 second.name? (by simp)).1
              refine List.forall_mem_cons.2 ⟨first_named, fun o later => ?_⟩
              exact (apart.1 o.name? (List.mem_map_of_mem later)).2.1
            exact absurd named (named' found mem)
      rw [alone, sortOperations, List.mergeSort_singleton]
      rfl
  | some name =>
      have distinct : (operations.map (·.name?)).Nodup := apart.imp fun apart => apart.2.2
      have sorted : found ∈ sortOperations operations := List.mem_mergeSort.2 mem
      unfold Document.operation?
      dsimp only
      cases looked : (sortOperations operations).find? fun o => o.name? == some name with
      | none =>
          have missed := List.find?_eq_none.1 looked found sorted
          simp [named] at missed
      | some other =>
          have same : other.name? = some name := by
            have hit := List.find?_some looked
            simpa using hit
          have other_mem : other ∈ operations :=
            List.mem_mergeSort.1 (List.mem_of_find?_eq_some looked)
          rw [List.inj_on_of_nodup_map distinct other_mem mem (same.trans named.symm)]

/-- Replacing the references of a whole document by what they stand for in one operation, and
resolving without values, gives that operation as the values do; whatever is wrong stays wrong. -/
theorem OperationDefinition.ofDefinitions_replace {definitions : List Definition}
    {o : OperationDefinition} {values : Table Json} (written : .operation o ∈ definitions)
    (inlines : o.Inlines values constants) :
    (Document.ofDefinitions (definitions.map (·.replace constants)) []).map
        (·.operation? o.name?)
      = (Document.ofDefinitions definitions values).map (·.operation? o.name?) := by
  have finite := inlines.finite
  unfold Document.ofDefinitions
  rw [Definition.findSome?_fault?_replace finite, Definition.clash?_replace]
  split
  · rfl
  · split
    · rfl
    · next apart =>
      obtain ⟨⟨apart, -⟩, -⟩ := clash?_eq_none_iff.1 apart
      have mem : o ∈ operationsOf definitions := List.mem_filterMap.2 ⟨_, written, rfl⟩
      have some_operation : (operationsOf definitions).isEmpty = false :=
        List.isEmpty_eq_false_iff.2 (List.ne_nil_of_mem mem)
      dsimp only
      rw [← operationsOf, ← operationsOf, ← fragmentsOf, ← fragmentsOf, operationsOf_replace,
        fragmentsOf_replace, List.isEmpty_map, some_operation, List.mapM_map,
        if_neg Bool.false_ne_true, if_neg Bool.false_ne_true]
      have outcome : SameOutcome id (List.Forall₂ fun _ _ => True) _ _ :=
        SameOutcome.mapM fun p (_ : p ∈ operationsOf definitions) =>
          sameOutcome_replace constants p (fragmentsOf definitions) values
      refine SameOutcome.eq (.map ?_ fun _ _ same => same)
      refine outcome.bind fun resolved resolved' found found' _ => ?_
      have names := Compile.map_eq_of_mapM (fun _ _ => resolve_name?) found
      have names' := Compile.map_eq_of_mapM (fun _ _ => resolve_name?) found'
      obtain ⟨converted, among, looked⟩ := Compile.exists_mem_of_mapM found mem
      obtain ⟨converted', among', looked'⟩ := Compile.exists_mem_of_mapM found' mem
      rw [resolve_replace inlines, looked'] at looked
      cases looked
      refine .ok ?_
      rw [← resolve_name? looked', operation?_sortOperations _ among,
        operation?_sortOperations _ among']
      · rw [names']
        exact apart
      · rw [names]
        exact apart

namespace OperationDefinition

/-- A constant for a variable: the value given, written out, else the default that is declared. -/
def constantFor (o : OperationDefinition) (values : Table Json) (name : String) : Constant :=
  match values.get? name with
  | some value => .ofJson value
  | none => (o.lastDefault? name).getD .null

/-- For values that can be read and defaults whose numbers are in range there are such constants. -/
theorem inlines_constantFor {o : OperationDefinition} {values : Table Json}
    (given : ∀ entry ∈ values, entry.2.IsProper)
    (declared : ∀ v ∈ o.declared, v.default?.all Constant.isFinite = true) :
    o.Inlines values (o.constantFor values) where
  finite name := by
    unfold constantFor
    split
    · next value found =>
      exact (Constant.isFinite_ofJson value).trans (given _ (Table.mem_of_get? found)).1
    · cases known : o.lastDefault? name with
      | none => rfl
      | some constant =>
          obtain ⟨v, mem, own⟩ := List.exists_of_findSome?_eq_some known
          split at own
          · have finite := declared v (List.mem_reverse.1 mem)
            rwa [own] at finite
          · cases own
  given name value found := by
    rw [constantFor, found]
    exact Constant.denotes_ofJson (given _ (Table.mem_of_get? found))
  declared name constant value missing known denotes := by
    rw [constantFor, missing, known]
    exact denotes
  absent name missing missing' := by
    rw [constantFor, missing, missing']
    exact .null

/-- Inlining variables is substitution: an operation resolves for given values, among the fragments
of its document, to what it resolves to without any once constants stand for its variables in the
whole document, and it is what the document of the constants holds in its place. -/
theorem inlining_eq_replacing {definitions : List Definition} {o : OperationDefinition}
    (written : .operation o ∈ definitions) {values : Table Json}
    (inlines : o.Inlines values constants) :
    (o.replace constants).resolve (fragmentsOf (definitions.map (·.replace constants))) []
        = o.resolve (fragmentsOf definitions) values
      ∧ (Document.ofDefinitions (definitions.map (·.replace constants)) []).map
          (·.operation? o.name?)
        = (Document.ofDefinitions definitions values).map (·.operation? o.name?) := by
  constructor
  · rw [fragmentsOf_replace]
    exact resolve_replace inlines _
  · exact ofDefinitions_replace written inlines

/-- An operation with a default, in which directives and nested values refer to variables. -/
def peopleOperation : OperationDefinition :=
  ⟨.query, some "People", [⟨"brief", [], some (.boolean true)⟩], [],
    [.field none "people" [("tags", .list [.reference "tag", .object [("or", .reference "none")]])]
      [⟨"skip", [("if", .reference "hidden")]⟩] [.spread "Person" []]]⟩

/-- A fragment whose only field is there unless the operation says otherwise. -/
def personFragment : FragmentDefinition :=
  ⟨"Person", "Person", [], [.field none "name" [] [⟨"include", [("if", .reference "brief")]⟩] []]⟩

theorem inlining_eq_replacing_people :
    ∃ (definitions : List Definition) (values : Table Json) (constants : String → Constant),
      definitions = [.operation peopleOperation, .fragment personFragment]
      ∧ values = [("tag", .array [.string "a"]), ("hidden", .null)]
      ∧ (constants "tag", constants "hidden", constants "brief", constants "none")
          = (.list [.string "a"], .null, .boolean true, .null)
      ∧ peopleOperation.Inlines values constants
      ∧ (peopleOperation.replace constants).resolve
            (fragmentsOf (definitions.map (·.replace constants))) []
          = peopleOperation.resolve (fragmentsOf definitions) values
      ∧ (Document.ofDefinitions (definitions.map (·.replace constants)) []).map
            (·.operation? (some "People"))
          = (Document.ofDefinitions definitions values).map (·.operation? (some "People")) := by
  have inlines := @inlines_constantFor peopleOperation
    [("tag", .array [.string "a"]), ("hidden", .null)]
    (by simp [Json.IsProper, Json.isFinite, Json.areFinite, Json.tidy, Json.tidyItems])
    (by simp [peopleOperation, Constant.isFinite, Constant.written, Json.isFinite])
  have written : .operation peopleOperation
      ∈ [.operation peopleOperation, Definition.fragment personFragment] := List.mem_cons_self
  exact ⟨_, _, _, rfl, rfl, rfl, inlines, inlining_eq_replacing written inlines⟩

end OperationDefinition

end GraphBridge.Operation.Source
