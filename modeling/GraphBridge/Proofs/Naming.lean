import GraphBridge.Proofs.Rendering
import GraphBridge.Proofs.Scope
import Mathlib.Data.List.Nodup

/-!
# The names of variables

Every variable that a read introduces has a name of parts that are joined with underscores behind
the variable of the root field: response keys, edge types, and the names that override fragments
bind. This module lists the variables of a statement and says exactly when their names are distinct.
They need not be. Parts may hold underscores themselves, and an edge type may be the response key of
a field below.
-/

namespace GraphBridge.Compile

open Operation Query Schema Statement

/-! ## Variables of a statement -/

/-- What a variable stands for. -/
inductive Role where
  /-- The root, or an object field. -/
  | node
  /-- The edges of a relationship. -/
  | edge
  /-- The value of an override that aggregates or is a subquery. -/
  | value
  /-- A variable of an override fragment under a new name. -/
  | renamed
  deriving DecidableEq, Repr

/-- A variable that the compiler introduces, with the parts of its name behind the variable of the
node that it belongs to. -/
structure Element where
  role : Role
  parts : List String
  deriving DecidableEq, Repr

namespace Element

/-- The name of a variable. -/
def name (root : String) (e : Element) : String :=
  e.parts.foldl (fun path part => path ++ "_" ++ part) root

/-- A variable that belongs to a field of a node, seen from the node. -/
def under (key : String) (e : Element) : Element :=
  { e with parts := key :: e.parts }

/-- The parts of a name, split at the underscores in them. -/
def words (e : Element) : List (List Char) :=
  e.parts.flatMap fun part => part.toList.splitOn '_'

/-- A name is split into the words of the root variable and those of its parts. -/
theorem splitOn_name (root : String) (e : Element) :
    (e.name root).toList.splitOn '_' = root.toList.splitOn '_' ++ e.words := by
  obtain ⟨role, parts⟩ := e
  induction parts generalizing root with
  | nil => exact (List.append_nil _).symm
  | cons part rest ih =>
      have joined : (root ++ "_" ++ part).toList = root.toList ++ '_' :: part.toList := by simp
      have split : (root ++ "_" ++ part).toList.splitOn '_'
          = root.toList.splitOn '_' ++ part.toList.splitOn '_' := by
        rw [joined, List.splitOn_append_cons_self]
      have later := ih (root ++ "_" ++ part)
      rw [split, List.append_assoc] at later
      exact later

/-- Two variables share a name exactly if their words are the same. -/
theorem name_eq_iff (root : String) (e e' : Element) :
    e.name root = e'.name root ↔ e.words = e'.words := by
  constructor
  · intro same
    have split := congrArg (fun name => name.toList.splitOn '_') same
    simp only [splitOn_name] at split
    exact List.append_cancel_left split
  · intro same
    have split : (e.name root).toList.splitOn '_' = (e'.name root).toList.splitOn '_' := by
      rw [splitOn_name, splitOn_name, same]
    have joined := congrArg (List.intercalate ['_']) split
    rw [List.intercalate_splitOn, List.intercalate_splitOn] at joined
    exact String.toList_inj.1 joined

/-- Parts without underscores are words. -/
theorem words_of_plain {e : Element} (plain : ∀ part ∈ e.parts, '_' ∉ part.toList) :
    e.words = e.parts.map String.toList := by
  obtain ⟨role, parts⟩ := e
  unfold words
  induction parts with
  | nil => rfl
  | cons part rest ih =>
      rw [List.flatMap_cons, ih (fun other mem => plain other (List.mem_cons_of_mem _ mem)),
        List.splitOn_eq_singleton (plain part List.mem_cons_self)]
      rfl

/-- Without underscores in parts, two variables share a name exactly if their parts are the same. -/
theorem name_eq_iff_of_plain (root : String) {e e' : Element}
    (plain : ∀ part ∈ e.parts, '_' ∉ part.toList) (plain' : ∀ part ∈ e'.parts, '_' ∉ part.toList) :
    e.name root = e'.name root ↔ e.parts = e'.parts := by
  rw [name_eq_iff, words_of_plain plain, words_of_plain plain']
  constructor
  · intro same
    exact List.map_inj_right (fun a b h => String.toList_inj.1 h) |>.1 same
  · intro same
    rw [same]

end Element

namespace Scalar

/-- Whether the value of a scalar field gets a variable of its own. -/
def isNamed (config : Config) : Scalar → Bool
  | .override _ _ tail => config.subqueryCalls || tail.isAggregate
  | _ => false

/-- The names that are bound for a scalar field and get new ones. -/
def bound : Scalar → List String
  | .override bound _ _ => bound
  | _ => []

/-- The variables of a scalar field, seen from the field. -/
def elements (config : Config) (value : Scalar) : List Element :=
  (if value.isNamed config then [⟨.value, []⟩] else [])
    ++ value.bound.map fun name => ⟨.renamed, [name]⟩

end Scalar

namespace Reach

/-- The variables that are needed to reach nodes, besides the one of the nodes: the edges of a
relationship, or what an override binds and does not return. -/
def elements : Reach → List Element
  | .relationship edgeType .. => [⟨.edge, [edgeType]⟩]
  | .override bound _ returned =>
      (bound.filter (· != returned)).map fun name => ⟨.renamed, [name]⟩

end Reach

/-- The variables of a node, seen from the node: its own, those that are needed to reach it, and
those of the fields selected on it. -/
def nodeElements (own fields : List Element) : List Element :=
  ⟨.node, []⟩ :: (own ++ fields)

mutual

/-- The variables of an entry, seen from the node it is selected on. -/
def Entry.elements (config : Config) : Entry → List Element
  | .scalar key value => (value.elements config).map (Element.under key)
  | .object key reach _ entries =>
      (nodeElements reach.elements (elementsOf config entries)).map (Element.under key)

/-- The variables of entries, seen from the node they are selected on. -/
def elementsOf (config : Config) : List Entry → List Element
  | [] => []
  | e :: rest => e.elements config ++ elementsOf config rest

end

/-! ## Clashes -/

/-- Whether the key of an entry is the last part of the name of a variable. -/
def Entry.isNamed (config : Config) : Entry → Bool
  | .scalar _ value => value.isNamed config
  | .object .. => true

/-- The keys of entries that are the last part of the name of a variable. -/
def namedKeys (config : Config) (entries : List Entry) : List String :=
  (entries.filter (·.isNamed config)).map Entry.key

/-- Whether no variable that belongs to a node itself has the name of a variable of a field selected
on it. -/
def isApart (config : Config) (own : List Element) (entries : List Entry) : Bool :=
  own.all fun e => (namedKeys config entries).all fun key => e.parts != [key]

mutual

/-- Whether no node in an entry has a variable with the name of one of a field selected on it. -/
def Entry.isClashFree (config : Config) : Entry → Bool
  | .scalar _ _ => true
  | .object _ reach _ entries =>
      isApart config reach.elements entries && areClashFree config entries

/-- Whether no node in entries has a variable with the name of one of a field selected on it. -/
def areClashFree (config : Config) : List Entry → Bool
  | [] => true
  | e :: rest => e.isClashFree config && areClashFree config rest

end

mutual

/-- Each level of an entry has one entry a key, and what belongs to a field itself is named once. -/
def Entry.WellKeyed : Entry → Prop
  | .scalar _ value => value.bound.Nodup
  | .object _ reach _ entries =>
      (reach.elements.map (·.parts)).Nodup ∧ (entries.map Entry.key).Nodup ∧ AllWellKeyed entries

/-- What `Entry.WellKeyed` says of an entry, of entries. -/
def AllWellKeyed : List Entry → Prop
  | [] => True
  | e :: rest => e.WellKeyed ∧ AllWellKeyed rest

end

theorem allWellKeyed_iff {entries : List Entry} :
    AllWellKeyed entries ↔ ∀ e ∈ entries, e.WellKeyed := by
  induction entries with
  | nil => simp [AllWellKeyed]
  | cons e rest ih => simp [AllWellKeyed, ih]

theorem parts_under (key : String) (elements : List Element) :
    (elements.map (Element.under key)).map (·.parts)
      = (elements.map (·.parts)).map (key :: ·) := by
  rw [List.map_map, List.map_map]
  rfl

/-- The variables of an entry start with its key. -/
theorem Entry.parts_elements {config : Config} {e : Entry} {parts : List String}
    (mem : parts ∈ (e.elements config).map (·.parts)) : ∃ rest, parts = e.key :: rest := by
  cases e with
  | scalar key value =>
      rw [Entry.elements, parts_under] at mem
      obtain ⟨rest, -, rfl⟩ := List.mem_map.1 mem
      exact ⟨rest, rfl⟩
  | object key reach closing entries =>
      rw [Entry.elements, parts_under] at mem
      obtain ⟨rest, -, rfl⟩ := List.mem_map.1 mem
      exact ⟨rest, rfl⟩

theorem parts_elementsOf {config : Config} {entries : List Entry} {parts : List String}
    (mem : parts ∈ (elementsOf config entries).map (·.parts)) :
    ∃ e ∈ entries, ∃ rest, parts = e.key :: rest := by
  induction entries with
  | nil => cases mem
  | cons e others ih =>
      rw [elementsOf, List.map_append, List.mem_append] at mem
      rcases mem with first | later
      · exact ⟨e, List.mem_cons_self, Entry.parts_elements first⟩
      · obtain ⟨other, known, rest, same⟩ := ih later
        exact ⟨other, List.mem_cons_of_mem _ known, rest, same⟩

theorem singleton_mem_map_cons {key own : String} {lists : List (List String)} :
    [key] ∈ lists.map (own :: ·) ↔ [] ∈ lists ∧ own = key := by
  constructor
  · intro mem
    obtain ⟨rest, known, same⟩ := List.mem_map.1 mem
    obtain ⟨rfl, rfl⟩ := List.cons_eq_cons.1 same
    exact ⟨known, rfl⟩
  · rintro ⟨known, rfl⟩
    exact List.mem_map.2 ⟨[], known, rfl⟩

/-- The name of an entry itself: its key, if that names a variable. -/
theorem Entry.singleton_mem_elements {config : Config} {e : Entry} {key : String} :
    [key] ∈ (e.elements config).map (·.parts) ↔ e.isNamed config = true ∧ e.key = key := by
  cases e with
  | scalar own value =>
      rw [Entry.elements, parts_under, singleton_mem_map_cons, Entry.isNamed, Entry.key,
        Scalar.elements]
      cases value.isNamed config <;> simp
  | object own reach closing entries =>
      rw [Entry.elements, parts_under, singleton_mem_map_cons, Entry.isNamed, Entry.key]
      simp [nodeElements]

/-- Which names of one part the variables of entries have. -/
theorem singleton_mem_elementsOf {config : Config} {entries : List Entry} {key : String} :
    [key] ∈ (elementsOf config entries).map (·.parts) ↔ key ∈ namedKeys config entries := by
  induction entries with
  | nil => simp [elementsOf, namedKeys]
  | cons e rest ih =>
      rw [elementsOf, List.map_append, List.mem_append, Entry.singleton_mem_elements, ih]
      simp only [namedKeys, List.mem_map, List.mem_filter, List.mem_cons]
      constructor
      · rintro (⟨named, same⟩ | ⟨other, ⟨known, named⟩, same⟩)
        · exact ⟨e, ⟨.inl rfl, named⟩, same⟩
        · exact ⟨other, ⟨.inr known, named⟩, same⟩
      · rintro ⟨other, ⟨rfl | known, named⟩, same⟩
        · exact .inl ⟨named, same⟩
        · exact .inr ⟨other, ⟨known, named⟩, same⟩

/-- The variables of a node have different parts exactly if its own are different from those of the
fields, and these are different among themselves. -/
theorem nodup_nodeElements_iff {config : Config} {own : List Element} {entries : List Entry}
    (distinct : (own.map (·.parts)).Nodup) (single : ∀ e ∈ own, ∃ part, e.parts = [part]) :
    ((nodeElements own (elementsOf config entries)).map (·.parts)).Nodup
      ↔ isApart config own entries = true
        ∧ ((elementsOf config entries).map (·.parts)).Nodup := by
  have nonempty : [] ∉ (own ++ elementsOf config entries).map (·.parts) := by
    intro mem
    rw [List.map_append, List.mem_append] at mem
    rcases mem with first | later
    · obtain ⟨e, known, same⟩ := List.mem_map.1 first
      obtain ⟨part, is⟩ := single e known
      rw [is] at same
      cases same
    · obtain ⟨e, -, rest, same⟩ := parts_elementsOf later
      cases same
  have apart : isApart config own entries = true
      ↔ ∀ a ∈ own.map (·.parts), ∀ b ∈ (elementsOf config entries).map (·.parts), a ≠ b := by
    simp only [isApart, List.all_eq_true, bne_iff_ne, ne_eq]
    constructor
    · intro apart parts mem other mem' same
      obtain ⟨e, known, rfl⟩ := List.mem_map.1 mem
      obtain ⟨part, is⟩ := single e known
      rw [← same, is, singleton_mem_elementsOf] at mem'
      exact apart e known part mem' is
    · intro apart e known key named same
      refine apart _ (List.mem_map.2 ⟨e, known, rfl⟩) [key] ?_ same
      exact singleton_mem_elementsOf.2 named
  rw [nodeElements, List.map_cons, List.nodup_cons, List.map_append, List.nodup_append, apart]
  rw [List.map_append] at nonempty
  constructor
  · rintro ⟨-, -, inner, disjoint⟩
    exact ⟨disjoint, inner⟩
  · rintro ⟨disjoint, inner⟩
    exact ⟨nonempty, distinct, inner, disjoint⟩

theorem Reach.parts_elements (reach : Reach) : ∀ e ∈ reach.elements, ∃ part, e.parts = [part] := by
  intro e mem
  cases reach with
  | relationship edgeType direction label identity? supplied =>
      obtain rfl := List.mem_singleton.1 mem
      exact ⟨edgeType, rfl⟩
  | override bound body returned =>
      obtain ⟨name, -, rfl⟩ := List.mem_map.1 mem
      exact ⟨name, rfl⟩

theorem nodup_map_cons (key : String) {lists : List (List String)} :
    (lists.map (key :: ·)).Nodup ↔ lists.Nodup :=
  List.nodup_map_iff fun _ _ same => (List.cons_eq_cons.1 same).2

/-- The variables of a scalar field have different parts. -/
theorem Scalar.nodup_elements (config : Config) {value : Scalar} (distinct : value.bound.Nodup) :
    ((value.elements config).map (·.parts)).Nodup := by
  have single : ((value.bound.map fun name => (⟨.renamed, [name]⟩ : Element)).map
      (·.parts)).Nodup := by
    rw [List.map_map]
    exact distinct.map fun _ _ same => (List.cons_eq_cons.1 same).1
  rw [Scalar.elements, List.map_append, List.nodup_append]
  refine ⟨?_, single, ?_⟩
  · split <;> simp
  · intro parts own other mem
    obtain ⟨e, known, rfl⟩ := List.mem_map.1 mem
    obtain ⟨name, -, rfl⟩ := List.mem_map.1 known
    split at own
    · obtain rfl := List.mem_singleton.1 own
      simp
    · cases own

mutual

/-- The variables of an entry have different parts exactly if it is free of clashes. -/
theorem Entry.nodup_elements_iff (config : Config) (e : Entry) (wellKeyed : e.WellKeyed) :
    ((e.elements config).map (·.parts)).Nodup ↔ e.isClashFree config = true := by
  match e with
  | .scalar key value =>
      rw [Entry.elements, parts_under, nodup_map_cons, Entry.isClashFree]
      exact iff_of_true (Scalar.nodup_elements config wellKeyed) rfl
  | .object key reach closing entries =>
      obtain ⟨own, keys, inner⟩ := wellKeyed
      rw [Entry.elements, parts_under, nodup_map_cons,
        nodup_nodeElements_iff own reach.parts_elements, nodup_elementsOf_iff config entries keys
        inner, Entry.isClashFree, Bool.and_eq_true]

/-- The variables of entries have different parts exactly if the entries are free of clashes. -/
theorem nodup_elementsOf_iff (config : Config) (entries : List Entry)
    (keys : (entries.map Entry.key).Nodup) (wellKeyed : AllWellKeyed entries) :
    ((elementsOf config entries).map (·.parts)).Nodup ↔ areClashFree config entries = true := by
  match entries with
  | [] => simp [elementsOf, areClashFree]
  | e :: rest =>
      rw [List.map_cons, List.nodup_cons] at keys
      have apart : ∀ a ∈ (e.elements config).map (·.parts),
          ∀ b ∈ (elementsOf config rest).map (·.parts), a ≠ b := by
        rintro a first b later rfl
        obtain ⟨parts, same⟩ := Entry.parts_elements first
        obtain ⟨other, known, parts', same'⟩ := parts_elementsOf later
        have equal : e.key = other.key := (List.cons_eq_cons.1 (same.symm.trans same')).1
        exact keys.1 (List.mem_map.2 ⟨other, known, equal.symm⟩)
      rw [elementsOf, List.map_append, List.nodup_append, Entry.nodup_elements_iff config e
        wellKeyed.1, nodup_elementsOf_iff config rest keys.2 wellKeyed.2, areClashFree,
        Bool.and_eq_true]
      constructor
      · rintro ⟨first, later, -⟩
        exact ⟨first, later⟩
      · rintro ⟨first, later⟩
        exact ⟨first, later, apart⟩

end

/-! ## Resolved selections -/

theorem nodup_foldl_distinct (names start : List String) (distinct : start.Nodup) :
    (names.foldl (fun bound name => if bound.contains name then bound else bound ++ [name])
      start).Nodup := by
  induction names generalizing start with
  | nil => exact distinct
  | cons name rest ih =>
      rw [List.foldl_cons]
      apply ih
      split
      · exact distinct
      · rename_i new
        refine List.nodup_append.2 ⟨distinct, List.nodup_singleton name, ?_⟩
        rintro other mem _ last rfl
        obtain rfl := List.mem_singleton.1 last
        exact new (by simpa using mem)

/-- A fragment is said to bind each of its variables once. -/
theorem nodup_boundVariables (f : Fragment) : f.boundVariables.Nodup :=
  nodup_foldl_distinct _ [] List.nodup_nil

theorem resolveScalar_bound {d : FieldDescriptor} {field : Field} {value : Scalar}
    (found : resolveScalar d field = .ok value) : value.bound.Nodup := by
  obtain rfl | rfl | ⟨text, fragment, parts, -, -, -, rfl⟩ := resolveScalar_cases found
  · exact List.nodup_nil
  · exact List.nodup_nil
  · exact nodup_boundVariables fragment

theorem resolveReach_elements {ctx : Context} {d : FieldDescriptor} {field : Field} {reach : Reach}
    (found : resolveReach ctx d field = .ok reach) :
    (reach.elements.map (·.parts)).Nodup := by
  obtain ⟨edgeType, direction, label, supplied, -, -, -, rfl⟩ | ⟨text, fragment, parts, returned, -,
    -, -, -, rfl⟩ := resolveReach_cases found
  · exact List.nodup_singleton [edgeType]
  · rw [Reach.elements, List.map_map]
    refine ((nodup_boundVariables fragment).filter _).map ?_
    intro a b same
    exact (List.cons_eq_cons.1 same).1

/-- Resolved selections have one entry a key on every level. -/
theorem resolve_wellKeyed {ctx : Context} {levels : Nat} {typeName : String}
    {selections : List Selection} {entries : List Entry}
    (found : resolve ctx levels typeName selections = .ok entries) :
    (entries.map Entry.key).Nodup ∧ AllWellKeyed entries := by
  induction levels generalizing typeName selections entries with
  | zero => cases found
  | succ levels ih =>
      obtain ⟨fields, -, found⟩ := resolve_eq_ok found
      have keys : entries.map Entry.key = (groupFields fields).map (·.responseKey) :=
        map_eq_of_mapM (fun field e resolved => key_resolveField resolved) found
      refine ⟨by rw [keys]; exact nodup_responseKeys fields, allWellKeyed_iff.2 ?_⟩
      refine forall_mem_of_mapM ?_ found
      intro field _ e resolved
      obtain rfl | ⟨d, -, ⟨value, valued, rfl⟩ | ⟨reach, inner, reached, selected, rfl⟩⟩ :=
        resolveField_cases resolved
      · exact List.nodup_nil
      · exact resolveScalar_bound valued
      · exact ⟨resolveReach_elements reached, ih selected⟩

/-! ## Nothing else is named -/

end GraphBridge.Compile

namespace GraphBridge.Statement

/-- The variables that a clause writes. Of an override fragment these are the ones that got new
names. -/
def Clause.variables : Clause → List String
  | .find node => [node.name]
  | .reach parent edge node => [parent, edge.name, node.name]
  | .inlined _ body => body.newNames
  | .aggregate scope value name => scope ++ value.newNames ++ [name]
  | .subquery path body value name => path :: body.newNames ++ value.newNames ++ [name]
  | .limit name _ | .keep name | .createNode name .. | .findNode name _ | .set name _
  | .deleteNode name | .deleteEdge name => [name]
  | .findEnds edge .. => [edge ++ "_from", edge ++ "_to"]
  | .createEdge name .. | .findEdge name .. => [name ++ "_from", name, name ++ "_to"]

/-- Every variable of the clauses and of the scope is among the given ones. -/
structure Builder.Covered (names : List String) (b : Builder) : Prop where
  clauses : ∀ clause ∈ b.clauses, ∀ name ∈ clause.variables, name ∈ names
  scope : ∀ name ∈ b.scope, name ∈ names

namespace Builder.Covered

variable {names : List String} {b : Builder}

theorem empty : Covered names {} :=
  ⟨by simp, by simp⟩

/-- Frames, threads and parameters have no part in it. -/
theorem of_eq {b' : Builder} (h : Covered names b) (clauses : b'.clauses = b.clauses)
    (scope : b'.scope = b.scope) : Covered names b' :=
  ⟨by rw [clauses]; exact h.clauses, by rw [scope]; exact h.scope⟩

theorem addClause (h : Covered names b) {clause : Clause}
    (known : ∀ name ∈ clause.variables, name ∈ names) : Covered names (b.addClause clause) where
  clauses other mem := by
    rcases List.mem_append.1 mem with before | last
    · exact h.clauses other before
    · obtain rfl := List.mem_singleton.1 last
      exact known
  scope := h.scope

theorem bindScope (h : Covered names b) {name : String} (known : name ∈ names) :
    Covered names (b.bindScope name) where
  clauses := by
    rw [clauses_bindScope]
    exact h.clauses
  scope other mem := by
    rcases (mem_scope_bindScope b).1 mem with before | rfl
    · exact h.scope other before
    · exact known

theorem openFrame (h : Covered names b) {carryOver : String} (known : carryOver ∈ names)
    (closing : Closing) : Covered names (b.openFrame carryOver closing) :=
  bindScope (b := { b with frames := b.frames ++ [⟨carryOver, [], closing⟩] })
    (h.of_eq rfl rfl) known

theorem referAll (h : Covered names b) (path : String) (supplied : List Supplied) :
    Covered names (b.referAll path supplied).2 :=
  h.of_eq (by simp) (by simp)

end Builder.Covered

end GraphBridge.Statement

namespace GraphBridge.Compile

open Operation Query Schema Statement

section Covered

variable {names : List String} {b : Builder}

theorem covered_keepFor (h : b.Covered names) (frame : Nat) {name : String}
    (known : name ∈ names) : (keepFor b frame name).Covered names :=
  (h.bindScope known).of_eq rfl rfl

theorem covered_keepMentioned (h : b.Covered names) (frame : Nat) (tail : Fragment)
    {kept : List String} (known : ∀ name ∈ kept, name ∈ names) :
    (keepMentioned frame tail kept b).Covered names := by
  unfold keepMentioned
  induction kept generalizing b with
  | nil => exact h
  | cons name rest ih =>
      rw [List.foldl_cons]
      have later := fun other mem => known other (List.mem_cons_of_mem _ mem)
      split
      · exact ih (covered_keepFor h frame (known name List.mem_cons_self)) later
      · exact ih h later

theorem variables_inlinedClause (config : Config) (body : Inlined) :
    (inlinedClause config body).variables = body.newNames := rfl

/-- The new names in an object override: the node at hand, the nodes that are reached, and what the
fragment binds besides. -/
theorem mem_newNames_object {parent child returned name : String} {bound : List String}
    {body : Fragment}
    (mem : name ∈ (Inlined.mk body (objectNames parent child returned bound)).newNames) :
    name = parent ∨ name = child
      ∨ ∃ old ∈ bound.filter (· != returned), name = child ++ "_" ++ old := by
  obtain ⟨old, -, renamed⟩ := List.mem_filterMap.1 mem
  simp only [objectNames, Table.get?] at renamed
  split at renamed
  · exact .inl (Option.some.inj renamed).symm
  split at renamed
  · exact .inr (.inl (Option.some.inj renamed).symm)
  · rename_i other
    obtain ⟨known, rfl⟩ := Table.eq_of_get?_map renamed
    refine .inr (.inr ⟨old, List.mem_filter.2 ⟨known, ?_⟩, rfl⟩)
    have apart : returned ≠ old := by simpa using other
    simpa using apart.symm

/-- Inlining a scalar override writes the variables of the field and of its node. -/
theorem covered_inlineScalar (h : b.Covered names) (config : Config) (bound : List String)
    (body tail : Fragment) (path key : String) (frame : Nat) (known : path ∈ names)
    (listed : ∀ e ∈ (Scalar.override bound body tail).elements config,
      e.name (path ++ "_" ++ key) ∈ names) :
    (inlineScalar config bound body tail path key frame b).2.Covered names := by
  have renamed : ∀ name ∈ bound.map (fun name => path ++ "_" ++ key ++ "_" ++ name),
      name ∈ names := by
    intro name mem
    obtain ⟨old, isBound, rfl⟩ := List.mem_map.1 mem
    exact listed ⟨.renamed, [old]⟩ (List.mem_append_right _ (List.mem_map.2 ⟨old, isBound, rfl⟩))
  have inlined (part : Fragment) : ∀ name ∈
      (Inlined.mk part (scalarNames path (path ++ "_" ++ key) bound)).newNames, name ∈ names := by
    intro name mem
    rcases mem_newNames mem with rfl | ⟨isRenamed, -⟩
    · exact known
    · exact renamed name isRenamed
  have named (isNamed : (Scalar.override bound body tail).isNamed config = true) :
      path ++ "_" ++ key ∈ names :=
    listed ⟨.value, []⟩ (by rw [Scalar.elements, if_pos isNamed]; exact List.mem_cons_self)
  simp only [inlineScalar]
  split
  · rename_i subquery
    have isKnown := named (by simp [Scalar.isNamed, subquery])
    refine covered_keepFor (h.addClause ?_) frame isKnown
    intro name mem
    simp only [Clause.variables, List.cons_append, List.mem_cons, List.mem_append,
      List.not_mem_nil, or_false] at mem
    rcases mem with rfl | (body | tail) | rfl
    · exact known
    · exact inlined _ name body
    · exact inlined _ name tail
    · exact isKnown
  · have added : (addBody config b ⟨body, scalarNames path (path ++ "_" ++ key) bound⟩).Covered
        names := by
      unfold addBody
      split
      · exact h
      · exact h.addClause (inlined body)
    split
    · rename_i aggregate
      rw [Inlined.renamed, Fragment.isAggregate_rename] at aggregate
      have isKnown := named (by simp [Scalar.isNamed, aggregate])
      refine covered_keepFor (added.addClause ?_) frame isKnown
      intro name mem
      simp only [Clause.variables, List.mem_append, List.mem_singleton] at mem
      rcases mem with (inScope | tail) | rfl
      · exact added.scope name inScope
      · exact inlined _ name tail
      · exact isKnown
    · exact covered_keepMentioned added frame _ renamed

/-- Reaching the nodes of an object field writes the variables of the field and of its node. -/
theorem covered_reach (h : b.Covered names) (config : Config) {parent child : String}
    (reach : Reach) (known : parent ∈ names) (new : child ∈ names)
    (listed : ∀ e ∈ reach.elements, e.name child ∈ names) :
    (reach.emit config parent child b).Covered names := by
  cases reach with
  | relationship edgeType direction label identity? supplied =>
      refine (h.referAll child supplied).addClause ?_
      intro name mem
      have edge : child ++ "_" ++ edgeType ∈ names :=
        listed ⟨.edge, [edgeType]⟩ List.mem_cons_self
      simp only [Clause.variables, List.mem_cons, List.not_mem_nil, or_false] at mem
      rcases mem with rfl | rfl | rfl
      · exact known
      · exact edge
      · exact new
  | override bound body returned =>
      refine h.addClause ?_
      intro name mem
      rw [variables_inlinedClause] at mem
      rcases mem_newNames_object mem with rfl | rfl | ⟨old, isBound, rfl⟩
      · exact known
      · exact new
      · exact listed ⟨.renamed, [old]⟩ (List.mem_map.2 ⟨old, isBound, rfl⟩)

mutual

/-- Projecting an entry writes no variables but those listed for it. -/
theorem emitEntry_covered (config : Config) (e : Entry) (path : String) (place : Nat)
    (outer : List (Nat × String)) (b : Builder) (h : b.Covered names) (known : path ∈ names)
    (listed : ∀ x ∈ e.elements config, x.name path ∈ names) :
    (emitEntry config path place outer b e).Covered names := by
  match e with
  | .scalar key value =>
      rw [emitEntry_scalar]
      have inner : ∀ x ∈ value.elements config, x.name (path ++ "_" ++ key) ∈ names :=
        fun x mem => listed (x.under key) (List.mem_map.2 ⟨x, mem, rfl⟩)
      have emitted : (value.emit config path key place b).2.Covered names := by
        cases value with
        | override bound body tail =>
            exact covered_inlineScalar h config bound body tail path key place known inner
        | typeName name => exact h
        | identity => exact h
        | property stored => exact h
      exact emitted.of_eq rfl rfl
  | .object key reach closing entries =>
      rw [emitEntry_object]
      have inner : ∀ x ∈ nodeElements reach.elements (elementsOf config entries),
          x.name (path ++ "_" ++ key) ∈ names :=
        fun x mem => listed (x.under key) (List.mem_map.2 ⟨x, mem, rfl⟩)
      have new : path ++ "_" ++ key ∈ names := inner ⟨.node, []⟩ List.mem_cons_self
      have reached := covered_reach h config reach known new
        (fun x mem => inner x (List.mem_cons_of_mem _ (List.mem_append_left _ mem)))
      have filled := emit_covered config entries (path ++ "_" ++ key)
        (reach.emit config path (path ++ "_" ++ key) b).frames.length ((place, path) :: outer) _
        (reached.openFrame new closing) new
        (fun x mem => inner x (List.mem_cons_of_mem _ (List.mem_append_right _ mem)))
      exact filled.of_eq rfl rfl

/-- Projecting entries writes no variables but those listed for them. -/
theorem emit_covered (config : Config) (entries : List Entry) (path : String) (place : Nat)
    (outer : List (Nat × String)) (b : Builder) (h : b.Covered names) (known : path ∈ names)
    (listed : ∀ x ∈ elementsOf config entries, x.name path ∈ names) :
    (emit config path place outer entries b).Covered names := by
  match entries with
  | [] => exact h
  | e :: rest =>
      rw [emit_cons]
      have first := emitEntry_covered config e path place outer b h known
        (fun x mem => listed x (List.mem_append_left _ mem))
      exact emit_covered config rest path place outer _ first known
        (fun x mem => listed x (List.mem_append_right _ mem))

end

end Covered

/-! ## The variables of a read -/

/-- The new name for `this` in the override of a root field, if another variable is returned. -/
def rootElements (field : Field) : Option String → Except CompileError (List Element)
  | none => .ok []
  | some text => do
      let fragment ← fragmentFor field text
      let (body, returned?) ← rootBody field fragment
      return if returned?.any (· != "this") && body.mentions "this" then [⟨.renamed, ["this"]⟩]
        else []

theorem rootElements_cases {field : Field} {text? : Option String} {own : List Element}
    (found : rootElements field text? = .ok own) :
    (own.map (·.parts)).Nodup ∧ ∀ e ∈ own, ∃ part, e.parts = [part] := by
  cases text? with
  | none =>
      cases found
      simp
  | some text =>
      simp only [rootElements, bind, Except.bind] at found
      split at found
      · cases found
      split at found
      · cases found
      cases found
      split <;> simp

/-- The variables of a read: those of the root node itself, and what is selected on it. -/
structure Variables where
  own : List Element
  entries : List Entry

/-- Looks up the variables of a read. -/
def readVariables (ctx : Context) (root : Root) (field : Field) : Except Error Variables := do
  let own ← (rootElements field root.fragment?).mapError Error.compile
  let entries ← resolve ctx ctx.config.maxDepth root.returnType field.selections
  return ⟨own, entries⟩

namespace Variables

/-- One element for each variable that is introduced. -/
def elements (v : Variables) (config : Config) : List Element :=
  nodeElements v.own (elementsOf config v.entries)

/-- The names of the variables. -/
def names (v : Variables) (config : Config) (root : String) : List String :=
  (v.elements config).map (·.name root)

/-- Whether no node has a variable with the name of one of a field selected on it. -/
def isClashFree (v : Variables) (config : Config) : Bool :=
  isApart config v.own v.entries && areClashFree config v.entries

end Variables

theorem nodup_map_congr {α β γ : Type} {f : α → β} {g : α → γ} {l : List α}
    (same : ∀ a ∈ l, ∀ b ∈ l, f a = f b ↔ g a = g b) : (l.map f).Nodup ↔ (l.map g).Nodup := by
  unfold List.Nodup
  rw [List.pairwise_map, List.pairwise_map]
  constructor
  · exact List.Pairwise.imp_of_mem fun memA memB apart equal =>
      apart ((same _ memA _ memB).2 equal)
  · exact List.Pairwise.imp_of_mem fun memA memB apart equal =>
      apart ((same _ memA _ memB).1 equal)

/-- What is projected behind covered clauses is covered. -/
theorem projectRoot_covered {ctx : Context} {root : Root} {field : Field} {start b : Builder}
    {entries : List Entry} {names : List String} (unframed : Unframed start)
    (planned : projectRoot ctx root field start = .ok (.projecting b))
    (resolved : resolve ctx ctx.config.maxDepth root.returnType field.selections = .ok entries)
    (h : start.Covered names) (known : root.path ∈ names)
    (listed : ∀ x ∈ elementsOf ctx.config entries, x.name root.path ∈ names) :
    b.Covered names := by
  rw [projectRoot_eq unframed, resolved] at planned
  have limited : (limitRows start root).Covered names := by
    unfold limitRows
    split
    · exact h.addClause (by simpa [Clause.variables] using known)
    · exact h
  have covered := emit_covered ctx.config entries root.path 0 [] _
    (limited.openFrame known (rootClosing root)) known listed
  simp only [Except.map, Except.ok.injEq, Plan.projecting.injEq] at planned
  rw [← planned]
  exact covered

/-- The new names in a root override: the root variable, and perhaps one for `this`. -/
theorem covered_inlinedRoot {path : String} {body : Fragment} {returned? : Option String}
    {names : List String} (known : path ∈ names)
    (this : returned?.any (· != "this") = true → body.mentions "this" = true →
      path ++ "_this" ∈ names) :
    (inlinedRoot path body returned?).Covered names := by
  unfold inlinedRoot
  dsimp only
  split
  · exact Builder.Covered.empty
  refine Builder.Covered.empty.addClause ?_
  intro name mem
  obtain ⟨old, occurs, renamed⟩ := List.mem_filterMap.1 mem
  cases returned? with
  | none =>
      simp only [rootNames, Table.get?] at renamed
      split at renamed
      · rw [← Option.some.inj renamed]
        exact known
      · cases renamed
  | some returned =>
      simp only [rootNames] at renamed
      split at renamed
      · simp only [Table.get?] at renamed
        split at renamed
        · rw [← Option.some.inj renamed]
          exact known
        · cases renamed
      · rename_i other
        simp only [Table.get?] at renamed
        split at renamed
        · rename_i isThis
          obtain rfl : "this" = old := by simpa using isThis
          rw [← Option.some.inj renamed]
          exact this (by simpa using other) (Fragment.mentions_iff.2 occurs)
        · split at renamed
          · rw [← Option.some.inj renamed]
            exact known
          · cases renamed

/-- The variables of a read that projects its selection are those that are looked up, and its
clauses write no others. -/
theorem readVariables_covered {ctx : Context} {root : Root} {field : Field} {b : Builder}
    (read : root.kind = .query ∨ root.fragment?.isSome = true)
    (planned : Compiler.planRoot ctx root field = .ok (.projecting b)) :
    ∃ v, readVariables ctx root field = .ok v ∧ b.Covered (v.names ctx.config root.path) := by
  obtain ⟨p, yields⟩ := planRoot_yields planned
  have resolved := yields.resolved
  have known (own : List Element) :
      root.path ∈ (Variables.mk own p.entries).names ctx.config root.path :=
    List.mem_map.2 ⟨⟨.node, []⟩, List.mem_cons_self, rfl⟩
  have isOwn {own : List Element} {e : Element} (mem : e ∈ own) :
      e.name root.path ∈ (Variables.mk own p.entries).names ctx.config root.path :=
    List.mem_map.2 ⟨e, List.mem_cons_of_mem _ (List.mem_append_left _ mem), rfl⟩
  have listed (own : List Element) : ∀ x ∈ elementsOf ctx.config p.entries,
      x.name root.path ∈ (Variables.mk own p.entries).names ctx.config root.path := by
    intro x mem
    exact List.mem_map.2 ⟨x, List.mem_cons_of_mem _ (List.mem_append_right _ mem), rfl⟩
  unfold Compiler.planRoot at planned
  split at planned
  · rename_i text overridden
    obtain ⟨fragment, body, returned?, filled, split, projected⟩ := planOverride_projecting planned
    have own : rootElements field root.fragment?
        = .ok (if returned?.any (· != "this") && body.mentions "this"
            then [⟨.renamed, ["this"]⟩] else []) := by
      simp only [overridden, rootElements, filled, split, bind, Except.bind]
      rfl
    refine ⟨⟨_, p.entries⟩, by simp only [readVariables, own, resolved]; rfl, ?_⟩
    refine projectRoot_covered (unframed_inlinedRoot _ _ _) projected resolved
      (covered_inlinedRoot (known _) ?_) (known _) (listed _)
    intro other mentioned
    have joined : (Element.mk .renamed ["this"]).name root.path = root.path ++ "_this" :=
      String.append_assoc
    rw [← joined]
    apply isOwn
    simp [other, mentioned]
  · rename_i plain mutation
    rcases read with query | overridden
    · rw [mutation] at query
      cases query
    · rw [plain] at overridden
      cases overridden
  · rename_i plain query
    obtain ⟨supplied, -, projected⟩ := planRead_eq_ok planned
    have own : rootElements field root.fragment? = .ok [] := by rw [plain]; rfl
    refine ⟨⟨[], p.entries⟩, by simp only [readVariables, own, resolved]; rfl, ?_⟩
    refine projectRoot_covered ((Unframed.empty.referAll _ _).addClause _) projected resolved
      ((Builder.Covered.empty.referAll _ _).addClause ?_) (known _) (listed _)
    intro name mem
    obtain rfl := List.mem_singleton.1 mem
    exact known _

/-- When the names of a read are distinct. In general they are if no two variables have the same
words, a word being what stands between underscores. If no part has an underscore, they are if on
no node an edge type, or a name that an override binds, is the key of an object field or of an
override with a variable of its own that is selected on the node. -/
theorem names_distinct_iff {ctx : Context} {root : Root} {field : Field} {b : Builder}
    (read : root.kind = .query ∨ root.fragment?.isSome = true)
    (planned : Compiler.planRoot ctx root field = .ok (.projecting b)) :
    ∃ v, readVariables ctx root field = .ok v
      ∧ (∀ clause ∈ b.clauses, ∀ name ∈ clause.variables, name ∈ v.names ctx.config root.path)
      ∧ ((v.names ctx.config root.path).Nodup
          ↔ ((v.elements ctx.config).map (·.words)).Nodup)
      ∧ ((∀ e ∈ v.elements ctx.config, ∀ part ∈ e.parts, '_' ∉ part.toList) →
          ((v.names ctx.config root.path).Nodup ↔ v.isClashFree ctx.config = true)) := by
  obtain ⟨v, found, covered⟩ := readVariables_covered read planned
  refine ⟨v, found, covered.clauses, ?_, ?_⟩
  · exact nodup_map_congr fun e _ e' _ => Element.name_eq_iff root.path e e'
  · intro plain
    simp only [readVariables, bind, Except.bind] at found
    split at found
    · cases found
    rename_i own looked
    split at found
    · cases found
    rename_i entries resolved
    cases found
    obtain ⟨keys, wellKeyed⟩ := resolve_wellKeyed resolved
    obtain ⟨distinct, single⟩ := rootElements_cases (eq_ok_of_mapError looked)
    have parts : ((Variables.mk own entries).names ctx.config root.path).Nodup
        ↔ (((Variables.mk own entries).elements ctx.config).map (·.parts)).Nodup :=
      nodup_map_congr fun e mem e' mem' =>
        Element.name_eq_iff_of_plain root.path (plain e mem) (plain e' mem')
    rw [parts, Variables.elements, nodup_nodeElements_iff distinct single,
      nodup_elementsOf_iff ctx.config entries keys wellKeyed, Variables.isClashFree,
      Bool.and_eq_true]

theorem names_distinct_iff_friends :
    ∃ v, readVariables ⟨friendsIndex, {}, []⟩ personRoot friendsField = .ok v
      ∧ (v.names {} "person_Person").Nodup := by
  have shape : (projected? (Compiler.planRoot ⟨friendsIndex, {}, []⟩ personRoot
      friendsField)).any (fun _ => true) = true := by decide +kernel
  obtain ⟨b, planned, -⟩ := exists_projecting shape
  obtain ⟨v, found, -, -, distinct⟩ := names_distinct_iff (.inl rfl) planned
  have checks : (readVariables ⟨friendsIndex, {}, []⟩ personRoot friendsField).toOption.any
      (fun v => v.isClashFree {} && (v.elements {}).all fun e =>
        e.parts.all fun part => !part.toList.contains '_') = true := by decide +kernel
  obtain ⟨v', found', checks⟩ := exists_ok_of_any checks
  obtain rfl : v = v' := Except.ok.inj (found.symm.trans found')
  rw [Bool.and_eq_true] at checks
  refine ⟨v, found, (distinct ?_).2 checks.1⟩
  simpa [List.all_eq_true] using checks.2

/-- Persons who know others over edges of one type and have friends over edges of another, which has
the name of the first field. -/
def knowsIndex : Index := ⟨⟨[
  ⟨"Person", .object, [], [
    ⟨"name", ⟨"String", false, false⟩, [], []⟩,
    ⟨"knows", ⟨"Person", true, false⟩, [], [⟨"relationship", [("type", .string "likes")]⟩]⟩,
    ⟨"friends", ⟨"Person", true, false⟩, [], [⟨"relationship", [("type", .string "knows")]⟩]⟩]⟩,
  ⟨"Query", .object, [], [⟨"person", ⟨"Person", false, false⟩, [], []⟩]⟩]⟩⟩

/-- The persons known to friends. -/
def knowsField : Operation.Field :=
  ⟨none, "person", [], [
    .field none "friends" [] [.field none "knows" [] [.field none "name" [] []]]]⟩

/-- The clauses that reach friends and the persons known to them. -/
def knowsLines : List String := [
  "MATCH (person_Person:`Person`)",
  "OPTIONAL MATCH (person_Person)-[person_Person_friends_knows:knows]->"
    ++ "(person_Person_friends:`Person`)",
  "OPTIONAL MATCH (person_Person_friends)-[person_Person_friends_knows_likes:likes]->"
    ++ "(person_Person_friends_knows:`Person`)"]

/-- The edges to friends and the persons known to friends get one name. -/
theorem edge_and_node_share_name :
    ∃ b v, Compiler.planRoot ⟨knowsIndex, {}, []⟩ personRoot knowsField = .ok (.projecting b)
      ∧ b.clauses.map Clause.text = knowsLines
      ∧ readVariables ⟨knowsIndex, {}, []⟩ personRoot knowsField = .ok v
      ∧ ⟨.edge, ["friends", "knows"]⟩ ∈ v.elements {}
      ∧ ⟨.node, ["friends", "knows"]⟩ ∈ v.elements {}
      ∧ ¬ (v.names {} "person_Person").Nodup := by
  have planned : (projected? (Compiler.planRoot ⟨knowsIndex, {}, []⟩ personRoot
      knowsField)).any (fun b => b.clauses.map Clause.text == knowsLines) = true := by
    decide +kernel
  have found : (readVariables ⟨knowsIndex, {}, []⟩ personRoot knowsField).toOption.any (fun v =>
      decide (⟨.edge, ["friends", "knows"]⟩ ∈ v.elements {}
        ∧ ⟨.node, ["friends", "knows"]⟩ ∈ v.elements {}
        ∧ ¬ (v.names {} "person_Person").Nodup)) = true := by
    decide +kernel
  obtain ⟨b, planned, lines⟩ := exists_projecting planned
  obtain ⟨v, found, shared⟩ := exists_ok_of_any found
  exact ⟨b, v, planned, by simpa using lines, found, of_decide_eq_true shared⟩

end GraphBridge.Compile
