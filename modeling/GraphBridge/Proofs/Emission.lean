import GraphBridge.Compile.Compiler
import GraphBridge.Proofs.Builder
import GraphBridge.Proofs.Merging
import GraphBridge.Proofs.Outcome

/-!
# Projection as a run of actions

Projecting a selection does two things at once: it looks fields up in the schema, which may fail,
and it changes the builder, which may not. Here the two are taken apart. `resolve` looks everything
up and gives a tree of entries; the tree, read from left to right, is a list of actions; and each
action changes a builder together with the stack of the frames that are open. `projectSelection_eq`
says that projecting is resolving followed by running the actions, so a fact about every action is a
fact about every projection, at every moment of it.
-/

namespace GraphBridge.Compile

open Operation Query Schema Statement

/-! ## Resolved selections -/

/-- How the value of a scalar field is found. -/
inductive Scalar where
  | typeName (name : String)
  | identity
  | property (stored : String)
  /-- An override: the variables it binds, its body and the expression it returns. -/
  | override (bound : List String) (body tail : Fragment)

/-- How the nodes of an object field are reached. -/
inductive Reach where
  | relationship (edgeType : String) (direction : Direction) (label : String)
      (identity? : Option String) (supplied : List Supplied)
  /-- An override: the variables it binds, its body and the variable it returns. -/
  | override (bound : List String) (body : Fragment) (returned : String)

/-- A selected field with its response key, once the schema has been looked up. -/
inductive Entry where
  | scalar (key : String) (value : Scalar)
  | object (key : String) (reach : Reach) (closing : Closing) (entries : List Entry)

/-- Looks up a scalar field. -/
def resolveScalar (d : FieldDescriptor) (field : Field) : Except CompileError Scalar :=
  match d.mapping with
  | .identity => .ok .identity
  | .plain | .relationship _ _ => .ok (.property d.stored)
  | .overridden fragment => do
      let fragment ← fragmentFor field fragment
      let (body, tail) ← splitFor field fragment
      return .override fragment.boundVariables body tail

/-- Looks up how the nodes of an object field are reached. -/
def resolveReach (ctx : Context) (d : FieldDescriptor) (field : Field) : Except Error Reach := do
  let label ← (ctx.index.label d.graphType).mapError Error.schema
  match d.mapping with
  | .relationship edgeType direction =>
      let supplied ←
        (suppliedByArguments ctx.index d.arguments field.arguments).mapError Error.schema
      return .relationship edgeType direction label (ctx.index.identityField? d.graphType)
        supplied
  | .overridden fragment =>
      let fragment ← (fragmentFor field fragment).mapError Error.compile
      let (body, tail) ← (splitFor field fragment).mapError Error.compile
      let returned ← (returnedVariable field tail).mapError Error.compile
      return .override fragment.boundVariables body returned
  | .plain | .identity =>
      .error (.schema (.invalidDirective "relationship" d.name .unmappedObject))

/-- A way to look up selections on a type. -/
abbrev Resolves := (typeName : String) → List Selection → Except Error (List Entry)

/-- Looks up one field of a type. -/
def resolveField (ctx : Context) (inner : Resolves) (typeName : String) (field : Field) :
    Except Error Entry :=
  if field.name == "__typename" then
    .ok (.scalar field.responseKey (.typeName typeName))
  else do
    let d ← (ctx.index.field typeName field.name).mapError Error.schema
    if d.isObject then
      let reach ← resolveReach ctx d field
      let entries ← inner d.graphType field.selections
      return .object field.responseKey reach (closingOf d field) entries
    else
      let value ← (resolveScalar d field).mapError Error.compile
      return .scalar field.responseKey value

/-- Looks up selections on a type, with the given number of levels left. -/
def resolve (ctx : Context) : Nat → Resolves
  | 0, _, _ => .error (.compile (.depthExceeded ctx.config.maxDepth))
  | levels + 1, typeName, selections => do
      let fields ← (collectFields typeName ctx.fragments selections).mapError Error.compile
      (groupFields fields).mapM (resolveField ctx (resolve ctx levels) typeName)

/-! ## Resolution inverted -/

theorem mapError_ok {ε ε' α : Type} (f : ε → ε') (a : α) :
    (Except.ok a).mapError f = .ok a := rfl

/-- A look-up that succeeds under an outer error succeeds. -/
theorem eq_ok_of_mapError {ε ε' α : Type} {f : ε → ε'} {found : Except ε α} {a : α}
    (h : found.mapError f = .ok a) : found = .ok a := by
  cases found with
  | error e => cases h
  | ok b =>
      cases h
      rfl

/-- What a look-up finds that something else follows. -/
theorem bind_eq_ok {ε α β : Type} {found : Except ε α} {next : α → Except ε β} {b : β}
    (h : (found >>= next) = .ok b) : ∃ a, found = .ok a ∧ next a = .ok b := by
  cases found with
  | error e => cases h
  | ok a => exact ⟨a, rfl, h⟩

theorem mapError_bind_eq_ok {ε ε' α β : Type} {f : ε → ε'} {found : Except ε α}
    {next : α → Except ε' β} {b : β} (h : (found.mapError f >>= next) = .ok b) :
    ∃ a, found = .ok a ∧ next a = .ok b := by
  obtain ⟨a, first, second⟩ := bind_eq_ok h
  exact ⟨a, eq_ok_of_mapError first, second⟩

/-- The first of several look-ups that all succeed, and the others. -/
theorem mapM_cons_eq_ok {ε α β : Type} {look : α → Except ε β} {a : α} {as : List α} {bs : List β}
    (found : (a :: as).mapM look = .ok bs) :
    ∃ b rest, look a = .ok b ∧ as.mapM look = .ok rest ∧ bs = b :: rest := by
  rw [List.mapM_cons] at found
  obtain ⟨b, first, others⟩ := bind_eq_ok found
  obtain ⟨rest, later, made⟩ := bind_eq_ok others
  cases made
  exact ⟨b, rest, first, later, rfl⟩

/-- What holds of all that a look-up finds holds of all that look-ups one after the other find. -/
theorem forall_mem_of_mapM {ε α β : Type} {look : α → Except ε β} {holds : β → Prop}
    {as : List α} {bs : List β} (each : ∀ a ∈ as, ∀ b, look a = .ok b → holds b)
    (found : as.mapM look = .ok bs) : ∀ b ∈ bs, holds b := by
  induction as generalizing bs with
  | nil =>
      cases found
      simp
  | cons a as ih =>
      obtain ⟨b, rest, first, later, rfl⟩ := mapM_cons_eq_ok found
      obtain ⟨own, others⟩ := List.forall_mem_cons.1 each
      exact List.forall_mem_cons.2 ⟨own b first, ih others later⟩

/-- Of look-ups one after the other that all succeed, each succeeds. -/
theorem exists_mem_of_mapM {ε α β : Type} {look : α → Except ε β} {as : List α} {bs : List β}
    (found : as.mapM look = .ok bs) {a : α} (mem : a ∈ as) : ∃ b ∈ bs, look a = .ok b := by
  induction as generalizing bs with
  | nil => cases mem
  | cons first as ih =>
      obtain ⟨b, rest, looked, later, rfl⟩ := mapM_cons_eq_ok found
      rcases List.mem_cons.1 mem with rfl | mem
      · exact ⟨b, List.mem_cons_self, looked⟩
      · obtain ⟨c, among, looked⟩ := ih later mem
        exact ⟨c, List.mem_cons_of_mem _ among, looked⟩

/-- What a look-up keeps, look-ups one after the other keep. -/
theorem map_eq_of_mapM {ε α β γ : Type} {look : α → Except ε β} {before : α → γ} {after : β → γ}
    (kept : ∀ a b, look a = .ok b → after b = before a) {as : List α} {bs : List β}
    (found : as.mapM look = .ok bs) : bs.map after = as.map before := by
  induction as generalizing bs with
  | nil =>
      cases found
      rfl
  | cons a as ih =>
      obtain ⟨b, rest, first, later, rfl⟩ := mapM_cons_eq_ok found
      rw [List.map_cons, List.map_cons, kept a b first, ih later]

/-- Look-ups one after the other agree if each does. -/
theorem mapM_congr {ε α β : Type} {look look' : α → Except ε β} {as : List α}
    (same : ∀ a ∈ as, look a = look' a) : as.mapM look = as.mapM look' := by
  induction as with
  | nil => rfl
  | cons a as ih =>
      obtain ⟨first, others⟩ := List.forall_mem_cons.1 same
      rw [List.mapM_cons, List.mapM_cons, first, ih others]

/-- What a scalar field can be. -/
theorem resolveScalar_cases {d : FieldDescriptor} {field : Field} {value : Scalar}
    (found : resolveScalar d field = .ok value) :
    value = .identity ∨ value = .property d.stored
      ∨ ∃ text fragment parts, d.mapping = .overridden text ∧ fragmentFor field text = .ok fragment
          ∧ splitFor field fragment = .ok parts
          ∧ value = .override fragment.boundVariables parts.1 parts.2 := by
  unfold resolveScalar at found
  split at found
  · cases found
    exact .inl rfl
  · cases found
    exact .inr (.inl rfl)
  · cases found
    exact .inr (.inl rfl)
  · rename_i text mapped
    obtain ⟨fragment, read, found⟩ := bind_eq_ok found
    obtain ⟨parts, split, made⟩ := bind_eq_ok found
    cases made
    exact .inr (.inr ⟨text, fragment, parts, mapped, read, split, rfl⟩)

/-- How the nodes of an object field can be reached. -/
theorem resolveReach_cases {ctx : Context} {d : FieldDescriptor} {field : Field} {reach : Reach}
    (found : resolveReach ctx d field = .ok reach) :
    (∃ edgeType direction label supplied, d.mapping = .relationship edgeType direction
        ∧ ctx.index.label d.graphType = .ok label
        ∧ suppliedByArguments ctx.index d.arguments field.arguments = .ok supplied
        ∧ reach = .relationship edgeType direction label (ctx.index.identityField? d.graphType)
            supplied)
      ∨ ∃ text fragment parts returned, d.mapping = .overridden text
          ∧ fragmentFor field text = .ok fragment ∧ splitFor field fragment = .ok parts
          ∧ returnedVariable field parts.2 = .ok returned
          ∧ reach = .override fragment.boundVariables parts.1 returned := by
  obtain ⟨label, labelled, found⟩ := mapError_bind_eq_ok found
  split at found
  · rename_i edgeType direction mapped
    obtain ⟨supplied, given, made⟩ := mapError_bind_eq_ok found
    cases made
    exact .inl ⟨edgeType, direction, label, supplied, mapped, labelled, given, rfl⟩
  · rename_i text mapped
    obtain ⟨fragment, read, found⟩ := mapError_bind_eq_ok found
    obtain ⟨parts, split, found⟩ := mapError_bind_eq_ok found
    obtain ⟨returned, sole, made⟩ := mapError_bind_eq_ok found
    cases made
    exact .inr ⟨text, fragment, parts, returned, mapped, read, split, sole, rfl⟩
  · cases found
  · cases found

/-- What a selected field can be. -/
theorem resolveField_cases {ctx : Context} {inner : Resolves} {typeName : String} {field : Field}
    {e : Entry} (found : resolveField ctx inner typeName field = .ok e) :
    e = .scalar field.responseKey (.typeName typeName)
      ∨ ∃ d, ctx.index.field typeName field.name = .ok d
          ∧ ((∃ value, resolveScalar d field = .ok value ∧ e = .scalar field.responseKey value)
            ∨ ∃ reach entries, resolveReach ctx d field = .ok reach
                ∧ inner d.graphType field.selections = .ok entries
                ∧ e = .object field.responseKey reach (closingOf d field) entries) := by
  unfold resolveField at found
  split at found
  · cases found
    exact .inl rfl
  obtain ⟨d, looked, found⟩ := mapError_bind_eq_ok found
  refine .inr ⟨d, looked, ?_⟩
  split at found
  · obtain ⟨reach, reached, found⟩ := bind_eq_ok found
    obtain ⟨entries, selected, made⟩ := bind_eq_ok found
    cases made
    exact .inr ⟨reach, entries, reached, selected, rfl⟩
  · obtain ⟨value, valued, made⟩ := mapError_bind_eq_ok found
    cases made
    exact .inl ⟨value, valued, rfl⟩

/-- The fields that a resolved selection comes from. -/
theorem resolve_eq_ok {ctx : Context} {levels : Nat} {typeName : String}
    {selections : List Selection} {entries : List Entry}
    (found : resolve ctx (levels + 1) typeName selections = .ok entries) :
    ∃ fields, collectFields typeName ctx.fragments selections = .ok fields
      ∧ (groupFields fields).mapM (resolveField ctx (resolve ctx levels) typeName)
        = .ok entries := by
  exact mapError_bind_eq_ok found

/-! ## Actions -/

/-- One change of a builder in the course of a projection. -/
inductive Action where
  /-- Puts a scalar into the innermost open frame. -/
  | scalar (key : String) (value : Scalar)
  /-- Reaches the nodes of an object field and opens their frame. -/
  | enter (key : String) (reach : Reach) (closing : Closing)
  /-- Puts the innermost open frame into the one around it. -/
  | leave (key : String)

mutual

/-- The actions of an entry. -/
def Entry.actions : Entry → List Action
  | .scalar key value => [.scalar key value]
  | .object key reach closing entries =>
      .enter key reach closing :: (actionsOf entries ++ [.leave key])

/-- The actions of entries, one after the other. -/
def actionsOf : List Entry → List Action
  | [] => []
  | e :: rest => e.actions ++ actionsOf rest

end

/-- A builder with the places and variables of the frames that are open, innermost first. -/
@[ext] structure State where
  builder : Builder
  stack : List (Nat × String)

/-- Adds what a scalar field needs and gives the expression of its value. -/
def Scalar.emit (config : Config) (path key : String) (frame : Nat) (b : Builder) :
    Scalar → Expression × Builder
  | .typeName name => (.typeName name, b)
  | .identity => (.identity path, b)
  | .property stored => (.property path stored, b)
  | .override bound body tail => inlineScalar config bound body tail path key frame b

/-- Adds the clause that reaches the nodes of an object field. -/
def Reach.emit (config : Config) (parent child : String) (b : Builder) : Reach → Builder
  | .relationship edgeType direction label identity? supplied =>
      inlineRelationship edgeType direction label identity? supplied parent child b
  | .override bound body returned => inlineObject config bound body returned parent child b

namespace State

/-- What a scalar does in the frame at hand. -/
def putScalar (config : Config) (b : Builder) (frame : Nat) (path key : String)
    (value : Scalar) : Builder :=
  let (expression, b) := value.emit config path key frame b
  b.project frame key expression

/-- What putting an inner frame into the one around it does. -/
def putObject (b : Builder) (outer inner : Nat) (key child : String) : Builder :=
  (b.project outer key (.named child)).thread child outer (some inner)

/-- One action. Without an open frame, or without a frame around it, there is nothing to do. -/
def step (config : Config) : State → Action → State
  | ⟨b, (frame, path) :: outer⟩, .scalar key value =>
      ⟨putScalar config b frame path key value, (frame, path) :: outer⟩
  | ⟨b, (frame, path) :: outer⟩, .enter key reach closing =>
      let child := path ++ "_" ++ key
      let b := reach.emit config path child b
      ⟨b.openFrame child closing, (b.frames.length, child) :: (frame, path) :: outer⟩
  | ⟨b, (inner, child) :: (frame, path) :: outer⟩, .leave key =>
      ⟨putObject b frame inner key child, (frame, path) :: outer⟩
  | s, _ => s

/-- Actions one after the other. -/
def run (config : Config) (actions : List Action) (s : State) : State :=
  actions.foldl (step config) s

@[simp] theorem run_nil (config : Config) (s : State) : run config [] s = s := rfl

@[simp] theorem run_cons (config : Config) (a : Action) (actions : List Action) (s : State) :
    run config (a :: actions) s = run config actions (step config s a) := rfl

@[simp] theorem run_append (config : Config) (first second : List Action) (s : State) :
    run config (first ++ second) s = run config second (run config first s) :=
  List.foldl_append

/-- What every action keeps, every run keeps. -/
theorem run_induction {config : Config} {motive : State → Prop}
    (kept : ∀ s a, motive s → motive (step config s a)) (actions : List Action) {s : State}
    (start : motive s) : motive (run config actions s) := by
  induction actions generalizing s with
  | nil => exact start
  | cons a actions ih => exact ih (kept s a start)

mutual

/-- The actions of an entry leave the stack as it was. -/
theorem stack_run_entry (config : Config) (e : Entry) (b : Builder) (top : Nat × String)
    (outer : List (Nat × String)) :
    (run config e.actions ⟨b, top :: outer⟩).stack = top :: outer := by
  match e with
  | .scalar key value => rfl
  | .object key reach closing entries =>
      obtain ⟨frame, path⟩ := top
      simp only [Entry.actions, run_cons, run_append, run_nil, step]
      have inside := stack_run config entries
        ((reach.emit config path (path ++ "_" ++ key) b).openFrame (path ++ "_" ++ key) closing)
        ((reach.emit config path (path ++ "_" ++ key) b).frames.length, path ++ "_" ++ key)
        ((frame, path) :: outer)
      revert inside
      generalize run config (actionsOf entries) _ = reached
      intro inside
      obtain ⟨b', stack⟩ := reached
      subst inside
      rfl

/-- The actions of entries leave the stack as it was. -/
theorem stack_run (config : Config) (entries : List Entry) (b : Builder) (top : Nat × String)
    (outer : List (Nat × String)) :
    (run config (actionsOf entries) ⟨b, top :: outer⟩).stack = top :: outer := by
  match entries with
  | [] => rfl
  | e :: rest =>
      simp only [actionsOf, run_append]
      have first := stack_run_entry config e b top outer
      revert first
      generalize run config e.actions _ = reached
      intro first
      obtain ⟨b', stack⟩ := reached
      subst first
      exact stack_run config rest b' top outer

end

end State

/-- The builder after the actions of entries in the frame of a variable. -/
def emit (config : Config) (path : String) (frame : Nat) (outer : List (Nat × String))
    (entries : List Entry) (b : Builder) : Builder :=
  (State.run config (actionsOf entries) ⟨b, (frame, path) :: outer⟩).builder

/-- The builder after the actions of one entry in the frame of a variable. -/
def emitEntry (config : Config) (path : String) (frame : Nat) (outer : List (Nat × String))
    (b : Builder) (e : Entry) : Builder :=
  (State.run config e.actions ⟨b, (frame, path) :: outer⟩).builder

section Emit

variable {config : Config} {path : String} {frame : Nat} {outer : List (Nat × String)}

theorem run_actions_eq (entries : List Entry) (b : Builder) :
    State.run config (actionsOf entries) ⟨b, (frame, path) :: outer⟩
      = ⟨emit config path frame outer entries b, (frame, path) :: outer⟩ :=
  State.ext rfl (State.stack_run config entries b (frame, path) outer)

theorem run_entry_eq (e : Entry) (b : Builder) :
    State.run config e.actions ⟨b, (frame, path) :: outer⟩
      = ⟨emitEntry config path frame outer b e, (frame, path) :: outer⟩ :=
  State.ext rfl (State.stack_run_entry config e b (frame, path) outer)

theorem emitEntry_scalar (b : Builder) (key : String) (value : Scalar) :
    emitEntry config path frame outer b (.scalar key value)
      = State.putScalar config b frame path key value := rfl

/-- An object entry: reach the nodes, fill a new frame with the inner entries, and put it into the
frame at hand. -/
theorem emitEntry_object (b : Builder) (key : String) (reach : Reach) (closing : Closing)
    (entries : List Entry) :
    let child := path ++ "_" ++ key
    let reached := reach.emit config path child b
    emitEntry config path frame outer b (.object key reach closing entries)
      = State.putObject
          (emit config child reached.frames.length ((frame, path) :: outer) entries
            (reached.openFrame child closing))
          frame reached.frames.length key child := by
  intro child reached
  simp only [emitEntry, Entry.actions, State.run_cons, State.run_append, State.run_nil, State.step]
  rw [run_actions_eq]

@[simp] theorem emit_nil (b : Builder) : emit config path frame outer [] b = b := rfl

theorem emit_cons (b : Builder) (e : Entry) (rest : List Entry) :
    emit config path frame outer (e :: rest) b
      = emit config path frame outer rest (emitEntry config path frame outer b e) := by
  rw [emit, actionsOf, State.run_append, run_entry_eq]
  rfl

theorem emit_eq_foldl (entries : List Entry) (b : Builder) :
    emit config path frame outer entries b
      = entries.foldl (emitEntry config path frame outer) b := by
  induction entries generalizing b with
  | nil => rfl
  | cons e rest ih => rw [emit_cons, ih, List.foldl_cons]

end Emit

/-! ## Projecting is resolving and emitting -/

/-- A fold whose steps may fail, but not because of what they fold into, is a map that may fail
followed by a plain fold. -/
theorem foldlM_eq_mapM {ε α β σ : Type} {f : σ → α → Except ε σ} {look : α → Except ε β}
    {put : σ → β → σ} (split : ∀ s a, f s a = (look a).map (put s)) (as : List α) (s : σ) :
    as.foldlM f s = (as.mapM look).map fun bs => bs.foldl put s := by
  induction as generalizing s with
  | nil => rfl
  | cons a as ih =>
      rw [List.foldlM_cons, List.mapM_cons, split]
      cases look a with
      | error e => rfl
      | ok b =>
          simp only [Except.map, bind, Except.bind, ih]
          cases as.mapM look <;> rfl

theorem projectScalar_eq (config : Config) (d : FieldDescriptor) (field : Field) (path : String)
    (frame : Nat) (b : Builder) :
    projectScalar config d field path frame b
      = (resolveScalar d field).map (·.emit config path field.responseKey frame b) := by
  unfold projectScalar resolveScalar
  cases d.mapping with
  | plain => rfl
  | identity => rfl
  | relationship _ _ => rfl
  | overridden fragment =>
      simp only [projectScalarOverride, bind, Except.bind]
      cases fragmentFor field fragment with
      | error e => rfl
      | ok fragment =>
          simp only
          cases splitFor field fragment <;> rfl

theorem reachObject_eq (ctx : Context) (d : FieldDescriptor) (field : Field)
    (parent child : String) (b : Builder) :
    reachObject ctx d field parent child b
      = (resolveReach ctx d field).map (·.emit ctx.config parent child b) := by
  simp only [reachObject, resolveReach, bind, Except.bind]
  cases (ctx.index.label d.graphType).mapError Error.schema with
  | error e => rfl
  | ok label =>
      cases d.mapping with
      | plain => rfl
      | identity => rfl
      | relationship edgeType direction =>
          simp only
          cases (suppliedByArguments ctx.index d.arguments field.arguments).mapError
            Error.schema <;> rfl
      | overridden fragment =>
          simp only
          cases (fragmentFor field fragment).mapError Error.compile with
          | error e => rfl
          | ok fragment =>
              simp only
              cases (splitFor field fragment).mapError Error.compile with
              | error e => rfl
              | ok parts =>
                  simp only
                  cases (returnedVariable field parts.2).mapError Error.compile <;> rfl

/-- If projecting one level deeper is resolving and emitting, so is projecting a field. -/
theorem projectField_eq {ctx : Context} {project : Projects} {look : Resolves}
    (split : ∀ typeName path frame outer selections b,
      project typeName path frame selections b
        = (look typeName selections).map fun entries =>
            emit ctx.config path frame outer entries b)
    (typeName path : String) (frame : Nat) (outer : List (Nat × String)) (b : Builder)
    (field : Field) :
    projectField ctx project typeName path frame b field
      = (resolveField ctx look typeName field).map
          (emitEntry ctx.config path frame outer b) := by
  unfold projectField resolveField
  split
  · rfl
  · simp only [bind, Except.bind]
    cases (ctx.index.field typeName field.name).mapError Error.schema with
    | error e => rfl
    | ok d =>
        simp only
        split
        · simp only [projectObject, reachObject_eq, bind, Except.bind]
          cases resolveReach ctx d field with
          | error e => rfl
          | ok reach =>
              simp only [Except.map]
              rw [split _ _ _ ((frame, path) :: outer)]
              cases look d.graphType field.selections with
              | error e => rfl
              | ok entries =>
                  simp only [Except.map, pure, Except.pure]
                  rw [emitEntry_object]
                  rfl
        · rw [projectScalar_eq]
          cases resolveScalar d field <;> rfl

/-- Projecting selections is looking them up and running the actions of what was found. -/
theorem projectSelection_eq (ctx : Context) (levels : Nat) (typeName path : String) (frame : Nat)
    (outer : List (Nat × String)) (selections : List Selection) (b : Builder) :
    projectSelection ctx levels typeName path frame selections b
      = (resolve ctx levels typeName selections).map fun entries =>
          emit ctx.config path frame outer entries b := by
  induction levels generalizing typeName path frame outer selections b with
  | zero => rfl
  | succ levels ih =>
      simp only [projectSelection, resolve, bind, Except.bind, selectedFields_eq]
      cases collectFields typeName ctx.fragments selections with
      | error e => rfl
      | ok fields =>
          simp only [emit_eq_foldl]
          exact foldlM_eq_mapM (projectField_eq ih typeName path frame outer)
            (groupFields fields) b

/-! ## Root fields -/

/-- Setting properties binds values of the input, and adds a clause if there are any. -/
theorem setClause_cases (b : Builder) (path : String) (input : List Supplied)
    (skipped? : Option String) :
    ∃ supplied, supplied ⊆ input
      ∧ (((b.referAll path supplied).1 = []
          ∧ setClause b path input skipped? = (b.referAll path supplied).2)
        ∨ ((b.referAll path supplied).1 ≠ []
          ∧ setClause b path input skipped?
            = (b.referAll path supplied).2.addClause
                (.set path (b.referAll path supplied).1))) := by
  refine ⟨(input.filter fun s => some s.name != skipped?).filter fun s => !s.isId, ?_, ?_⟩
  · intro s mem
    exact (List.mem_filter.1 (List.mem_filter.1 mem).1).1
  unfold setClause bindInput
  dsimp only
  split
  · rename_i none
    exact .inl ⟨List.isEmpty_iff.1 none, rfl⟩
  · rename_i some
    exact .inr ⟨fun none => some (List.isEmpty_iff.2 none), rfl⟩

/-- A builder in which nothing is projected and no variable is bound yet. -/
structure Unframed (b : Builder) : Prop where
  frames : b.frames = []
  threads : b.threads = []
  scope : b.scope = []

namespace Unframed

variable {b : Builder}

theorem empty : Unframed {} :=
  ⟨rfl, rfl, rfl⟩

theorem addClause (h : Unframed b) (clause : Clause) : Unframed (b.addClause clause) :=
  ⟨h.frames, h.threads, h.scope⟩

theorem refer (h : Unframed b) (name : String) (s : Supplied) : Unframed (b.refer name s).2 :=
  ⟨by simp [h.frames], by simp [h.threads], by simp [h.scope]⟩

theorem referAll (h : Unframed b) (path : String) (supplied : List Supplied) :
    Unframed (b.referAll path supplied).2 :=
  Builder.referAll_induction (fun _ name s kept => kept.refer name s) path supplied h

theorem limitRows (h : Unframed b) (root : Root) : Unframed (limitRows b root) := by
  unfold Compile.limitRows
  split
  · exact h.addClause _
  · exact h

theorem setClause (h : Unframed b) (path : String) (input : List Supplied)
    (skipped? : Option String) : Unframed (setClause b path input skipped?) := by
  obtain ⟨supplied, -, ⟨-, same⟩ | ⟨-, same⟩⟩ := setClause_cases b path input skipped?
  · rw [same]
    exact h.referAll _ _
  · rw [same]
    exact (h.referAll _ _).addClause _

theorem matchNode (h : Unframed b) (path : String) (id : Supplied) :
    Unframed (matchNode b path id) :=
  (h.refer _ id).addClause _

theorem bindEndpoints (h : Unframed b) (path : String) (ends : Supplied × Supplied) :
    Unframed (bindEndpoints b path ends).2 :=
  (h.refer _ ends.1).refer _ ends.2

theorem bindEdge {g : Given} {root : Root} {key : EdgeKey} {b' : Builder} (h : Unframed b)
    (bound : bindEdge g root b = .ok (key, b')) : Unframed b' := by
  unfold Compile.bindEdge at bound
  cases ends : g.endpoints root with
  | ok ends =>
      simp only [ends, Except.ok.injEq, Prod.mk.injEq] at bound
      rw [← bound.2]
      exact h.bindEndpoints _ _
  | error missing =>
      cases own : g.ownId? with
      | none => simp [ends, own] at bound
      | some id =>
          simp only [ends, own, Except.ok.injEq, Prod.mk.injEq] at bound
          rw [← bound.2]
          exact h.refer _ _

end Unframed

/-- The projection of a root field: the clauses in front of it, the variable and closing of its
frame, and what its selection comes to. -/
structure RootProjection where
  start : Builder
  path : String
  closing : Closing
  entries : List Entry

namespace RootProjection

/-- The state in which the root frame is open and nothing has been projected. -/
def first (p : RootProjection) : State :=
  ⟨p.start.openFrame p.path p.closing, [(0, p.path)]⟩

/-- The state after some of the actions. -/
def after (p : RootProjection) (config : Config) (done : List Action) : State :=
  State.run config done p.first

/-- The builder after all actions. -/
def final (p : RootProjection) (config : Config) : Builder :=
  (p.after config (actionsOf p.entries)).builder

/-- A builder that a plan projects comes from a projection: the selection of the root field is
resolved, nothing is projected before it, and at most the clause that keeps the written variable is
put in front of the clauses that the projection adds. -/
structure Yields (p : RootProjection) (ctx : Context) (root : Root) (field : Field)
    (b : Builder) : Prop where
  path : p.path = root.path
  unframed : Unframed p.start
  resolved : resolve ctx ctx.config.maxDepth root.returnType field.selections = .ok p.entries
  builder : b = p.final ctx.config
    ∨ b = (p.final ctx.config).insertClause p.start.clauses.length (.keep root.path)

end RootProjection

/-- Projecting the selection of a root field behind clauses that project nothing. -/
theorem projectSelection_root {start : Builder} (unframed : Unframed start) (ctx : Context)
    (root : Root) (field : Field) (closing : Closing) :
    projectSelection ctx ctx.config.maxDepth root.returnType root.path start.frames.length
        field.selections (start.openFrame root.path closing)
      = (resolve ctx ctx.config.maxDepth root.returnType field.selections).map fun entries =>
          (RootProjection.mk start root.path closing entries).final ctx.config := by
  rw [projectSelection_eq ctx _ _ _ _ [], unframed.frames]
  rfl

theorem projectRoot_eq {start : Builder} (unframed : Unframed start) (ctx : Context)
    (root : Root) (field : Field) :
    projectRoot ctx root field start
      = (resolve ctx ctx.config.maxDepth root.returnType field.selections).map fun entries =>
          .projecting ((RootProjection.mk (limitRows start root) root.path (rootClosing root)
            entries).final ctx.config) := by
  simp only [projectRoot, bind, Except.bind]
  rw [projectSelection_root (unframed.limitRows root)]
  cases resolve ctx ctx.config.maxDepth root.returnType field.selections <;> rfl

theorem projectRoot_yields {ctx : Context} {root : Root} {field : Field} {start b : Builder}
    (unframed : Unframed start) (planned : projectRoot ctx root field start = .ok (.projecting b)) :
    ∃ entries, (RootProjection.mk (limitRows start root) root.path (rootClosing root)
      entries).Yields ctx root field b := by
  rw [projectRoot_eq unframed] at planned
  cases resolved : resolve ctx ctx.config.maxDepth root.returnType field.selections with
  | error e => simp [resolved, Except.map] at planned
  | ok entries =>
      simp only [resolved, Except.map, Except.ok.injEq, Plan.projecting.injEq] at planned
      exact ⟨entries, rfl, unframed.limitRows root, resolved, .inl planned.symm⟩

theorem projectWritten_yields {ctx : Context} {root : Root} {field : Field} {start b : Builder}
    (unframed : Unframed start)
    (planned : projectWritten ctx root field start = .ok (.projecting b)) :
    ∃ entries, (RootProjection.mk start root.path (.root false none false) entries).Yields
      ctx root field b := by
  simp only [projectWritten, bind, Except.bind] at planned
  rw [projectSelection_root unframed] at planned
  split at planned
  · cases planned
  cases resolved : resolve ctx ctx.config.maxDepth root.returnType field.selections with
  | error e => simp [resolved, Except.map] at planned
  | ok entries =>
      refine ⟨entries, rfl, unframed, resolved, ?_⟩
      simp only [resolved, Except.map, pure, Except.pure, Except.ok.injEq,
        Plan.projecting.injEq] at planned
      split at planned
      · exact .inr planned.symm
      · exact .inl planned.symm

/-- What a read projects behind. -/
theorem planRead_eq_ok {ctx : Context} {root : Root} {field : Field} {plan : Plan}
    (planned : planRead ctx root field = .ok plan) :
    ∃ supplied, suppliedByArguments ctx.index root.arguments field.arguments = .ok supplied
      ∧ let found := filterFor {} root.path (ctx.index.identityField? root.returnType) supplied
        projectRoot ctx root field
          (found.2.addClause (.find ⟨root.path, root.label, found.1⟩)) = .ok plan := by
  simp only [planRead, bind, Except.bind] at planned
  split at planned
  · cases planned
  split at planned
  · cases planned
  exact mapError_bind_eq_ok planned

theorem planRead_yields {ctx : Context} {root : Root} {field : Field} {b : Builder}
    (planned : planRead ctx root field = .ok (.projecting b)) :
    ∃ p : RootProjection, p.Yields ctx root field b := by
  obtain ⟨supplied, -, projected⟩ := planRead_eq_ok planned
  exact ⟨_, (projectRoot_yields ((Unframed.empty.referAll _ _).addClause _)
    projected).choose_spec⟩

/-- The clauses of the body of a root override. -/
def inlinedRoot (path : String) (body : Fragment) (returned? : Option String) : Builder :=
  let body : Inlined := ⟨body, rootNames path returned?⟩
  if body.renamed.isEmpty then {} else ({} : Builder).addClause (.inlined false body)

theorem unframed_inlinedRoot (path : String) (body : Fragment) (returned? : Option String) :
    Unframed (inlinedRoot path body returned?) := by
  unfold inlinedRoot
  dsimp only
  split
  · exact Unframed.empty
  · exact Unframed.empty.addClause _

/-- What an override projects behind. -/
theorem planOverride_projecting {ctx : Context} {root : Root} {field : Field} {text : String}
    {b : Builder} (planned : planOverride ctx root field text = .ok (.projecting b)) :
    ∃ fragment body returned?, fragmentFor field text = .ok fragment
      ∧ rootBody field fragment = .ok (body, returned?)
      ∧ projectRoot ctx root field (inlinedRoot root.path body returned?)
        = .ok (.projecting b) := by
  unfold planOverride at planned
  split at planned
  · simp only [planTraversal, bind, Except.bind] at planned
    split at planned
    · split at planned <;> cases planned
    · cases planned
  obtain ⟨fragment, read, planned⟩ := mapError_bind_eq_ok planned
  split at planned
  · cases planned
  obtain ⟨⟨body, returned?⟩, split, planned⟩ := mapError_bind_eq_ok planned
  exact ⟨fragment, body, returned?, read, split, planned⟩

theorem planOverride_yields {ctx : Context} {root : Root} {field : Field} {fragment : String}
    {b : Builder} (planned : planOverride ctx root field fragment = .ok (.projecting b)) :
    ∃ p : RootProjection, p.Yields ctx root field b := by
  obtain ⟨_, _, _, -, -, projected⟩ := planOverride_projecting planned
  exact ⟨_, (projectRoot_yields (unframed_inlinedRoot _ _ _) projected).choose_spec⟩

theorem planWrite_yields {ctx : Context} {root : Root} {field : Field} {b : Builder}
    (planned : planWrite ctx root field = .ok (.projecting b)) :
    ∃ p : RootProjection, p.Yields ctx root field b := by
  unfold planWrite at planned
  split at planned
  · cases planned
  rename_i shape typeName _
  obtain ⟨g, -, planned⟩ := mapError_bind_eq_ok planned
  cases shape with
  | createNode =>
      exact ⟨_, (projectWritten_yields ((Unframed.empty.referAll _ _).addClause _)
        planned).choose_spec⟩
  | updateNode =>
      obtain ⟨id, -, planned⟩ := mapError_bind_eq_ok planned
      exact ⟨_, (projectWritten_yields ((Unframed.empty.matchNode _ _).setClause _ _ _)
        planned).choose_spec⟩
  | deleteNode =>
      obtain ⟨id, -, planned⟩ := mapError_bind_eq_ok planned
      cases planned
  | connectEdge =>
      obtain ⟨ends, -, planned⟩ := mapError_bind_eq_ok planned
      exact ⟨_, (projectWritten_yields ((((Unframed.empty.bindEndpoints _ _).addClause
        _).referAll _ _).addClause _) planned).choose_spec⟩
  | updateEdge =>
      obtain ⟨⟨key, b⟩, found, planned⟩ := mapError_bind_eq_ok planned
      have unframed : Unframed b := Unframed.empty.bindEdge found
      exact ⟨_, (projectWritten_yields ((unframed.addClause _).setClause _ _ _)
        planned).choose_spec⟩
  | deleteEdge =>
      obtain ⟨⟨key, b⟩, -, planned⟩ := mapError_bind_eq_ok planned
      cases planned

/-- The builder of a plan that projects. -/
def projected? : Except Error Plan → Option Builder
  | .ok (.projecting b) => some b
  | _ => none

theorem exists_projecting {planned : Except Error Plan} {check : Builder → Bool}
    (h : (projected? planned).any check = true) :
    ∃ b, planned = .ok (.projecting b) ∧ check b = true := by
  obtain ⟨b, found, checked⟩ := (Option.any_eq_true check _).1 h
  unfold projected? at found
  split at found
  · cases found
    exact ⟨b, rfl, checked⟩
  · cases found

/-- Whatever a plan projects, on the read path or behind a write, comes from a projection. -/
theorem planRoot_yields {ctx : Context} {root : Root} {field : Field} {b : Builder}
    (planned : Compiler.planRoot ctx root field = .ok (.projecting b)) :
    ∃ p : RootProjection, p.Yields ctx root field b := by
  unfold Compiler.planRoot at planned
  split at planned
  · exact planOverride_yields planned
  · exact planWrite_yields planned
  · exact planRead_yields planned

end GraphBridge.Compile
