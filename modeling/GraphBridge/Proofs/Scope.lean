import GraphBridge.Proofs.Emission
import GraphBridge.Proofs.Renaming

/-!
# Every line reads what the line before it leaves

A `WITH` line drops every variable that it does not list. Frames are opened in the order in which
the selection is walked and written in reverse, so whether a variable is still there when it is read
depends on the threads that were recorded in between. This module states the rule as an invariant of
the builder and the open frames, shows that every action keeps it, and concludes that the chain of
`WITH` lines is closed: each line lists and reads only variables of the line in front of it.
-/

namespace GraphBridge.Statement.Builder

/-! ## Closed chains -/

/-- The variables that can be read behind the line of a frame: what the line lists and the variable
it binds, and behind no line at all whatever the clauses have bound. -/
def visible (b : Builder) (place : Nat) : List String :=
  match b.carryOver? place with
  | some name => b.kept place ++ [name]
  | none => b.scope

/-- A chain of `WITH` lines in which nothing is missing. The line of a frame comes behind that of
the next frame, and the last frame behind the clauses. -/
structure ScopeClosed (b : Builder) : Prop where
  /-- What a line lists is there. -/
  listed : ∀ place, 0 < place → place < b.frames.length →
    ∀ name ∈ b.kept place, name ∈ b.visible (place + 1)
  /-- What the entries of a frame read is there, also for the outermost frame. -/
  read : ∀ place f, b.frames[place]? = some f → ∀ entry ∈ f.entries,
    ∀ name ∈ entry.2.reads, name ∈ b.visible (place + 1)

/-- How frames, threads and scope hang together. -/
structure Threaded (b : Builder) : Prop where
  carried : ∀ f ∈ b.frames, f.carryOver ∈ b.scope
  threaded : ∀ t ∈ b.threads, t.name ∈ b.scope
  /-- A thread from a frame starts at the frame of its variable, which is behind its reader. -/
  produced : ∀ t ∈ b.threads, ∀ producer, t.producer? = some producer →
    t.consumer < producer ∧ b.carryOver? producer = some t.name
  /-- An entry reads the variable of its frame, or one that is threaded to it. -/
  read : ∀ place f, b.frames[place]? = some f → ∀ entry ∈ f.entries, ∀ name ∈ entry.2.reads,
    name = f.carryOver ∨ ∃ t ∈ b.threads, t.name = name ∧ t.consumer = place

variable {b : Builder}

theorem mem_kept {place : Nat} {name : String} :
    name ∈ b.kept place ↔ (∃ other < place, b.carryOver? other = some name)
      ∨ ∃ t ∈ b.threads, passes place t = true ∧ t.name = name := by
  simp only [kept, List.mem_eraseDups, List.mem_append, List.mem_map, List.mem_filter, and_assoc,
    carryOver?, Option.map_eq_some_iff]
  apply or_congr_left
  constructor
  · rintro ⟨f, taken, rfl⟩
    obtain ⟨other, found⟩ := List.mem_iff_getElem?.1 taken
    rw [List.getElem?_take] at found
    split at found
    · exact ⟨other, by assumption, f, found, rfl⟩
    · cases found
  · rintro ⟨other, below, f, found, rfl⟩
    refine ⟨f, List.mem_iff_getElem?.2 ⟨other, ?_⟩, rfl⟩
    rw [List.getElem?_take, if_pos below, found]

theorem passes_iff {place : Nat} {t : Thread} :
    passes place t = true
      ↔ t.consumer < place ∧ ∀ producer, t.producer? = some producer → place < producer := by
  unfold passes
  cases t.producer? with
  | none => simp
  | some producer => simp

namespace Threaded

theorem carryOver_mem_scope (h : Threaded b) {place : Nat} {name : String}
    (found : b.carryOver? place = some name) : name ∈ b.scope := by
  obtain ⟨f, at_, rfl⟩ := Option.map_eq_some_iff.1 found
  exact h.carried f (List.mem_of_getElem? at_)

/-- The variable of a frame is there for all frames up to its own. -/
theorem carryOver_visible (h : Threaded b) {place later : Nat} {name : String}
    (found : b.carryOver? place = some name) (below : place < later) :
    name ∈ b.visible later := by
  unfold visible
  split
  · exact List.mem_append_left _ (mem_kept.2 (.inl ⟨place, below, found⟩))
  · exact h.carryOver_mem_scope found

/-- A threaded variable is there from the line behind its reader up to the line that binds it. -/
theorem thread_visible (h : Threaded b) {t : Thread} (mem : t ∈ b.threads) {later : Nat}
    (reader : t.consumer < later)
    (producer : ∀ producer, t.producer? = some producer → later ≤ producer) :
    t.name ∈ b.visible later := by
  unfold visible
  split
  · rename_i name found
    by_cases through : passes later t = true
    · exact List.mem_append_left _ (mem_kept.2 (.inr ⟨t, mem, through, rfl⟩))
    · -- the thread ends here: this is the line that binds the variable
      have last : t.producer? = some later := by
        cases made : t.producer? with
        | none => exact absurd (passes_iff.2 ⟨reader, by simp [made]⟩) through
        | some k =>
            have least := producer k made
            have most : ¬ later < k := fun before =>
              through (passes_iff.2 ⟨reader, by simpa [made] using before⟩)
            congr 1
            omega
      have bound := (h.produced t mem later last).2
      rw [found, Option.some.injEq] at bound
      exact List.mem_append_right _ (by simp [bound])
  · exact h.threaded t mem

/-- The invariant closes the chain. -/
theorem scopeClosed (h : Threaded b) : b.ScopeClosed where
  listed place _ _ name mem := by
    rcases mem_kept.1 mem with ⟨other, below, found⟩ | ⟨t, threaded, through, rfl⟩
    · exact h.carryOver_visible found (by omega)
    · obtain ⟨reader, producer⟩ := passes_iff.1 through
      exact h.thread_visible threaded (by omega) fun k made => producer k made
  read place f found entry mem name reads := by
    rcases h.read place f found entry mem name reads with rfl | ⟨t, threaded, rfl, reader⟩
    · exact h.carryOver_visible (by rw [carryOver?, found]; rfl) (Nat.lt_succ_self place)
    · apply h.thread_visible threaded (by omega)
      intro k made
      have := (h.produced t threaded k made).1
      omega

/-! ## What keeps the invariant -/

theorem empty : Threaded {} where
  carried := by simp
  threaded := by simp
  produced := by simp
  read := by simp

/-- The invariant does not look at clauses and parameters. -/
theorem of_eq {b' : Builder} (h : Threaded b) (frames : b'.frames = b.frames)
    (threads : b'.threads = b.threads) (scope : b'.scope = b.scope) : Threaded b' where
  carried := by rw [frames, scope]; exact h.carried
  threaded := by rw [threads, scope]; exact h.threaded
  produced := by unfold carryOver?; rw [frames, threads]; exact h.produced
  read := by rw [frames, threads]; exact h.read

theorem addClause (h : Threaded b) (clause : Clause) : Threaded (b.addClause clause) :=
  h.of_eq rfl rfl rfl

theorem referAll (h : Threaded b) (path : String) (supplied : List Supplied) :
    Threaded (b.referAll path supplied).2 :=
  h.of_eq (by simp) (by simp) (by simp)

theorem openFrame (h : Threaded b) (carryOver : String) (closing : Closing) :
    Threaded (b.openFrame carryOver closing) where
  carried f mem := by
    rw [frames_openFrame, List.mem_append, List.mem_singleton] at mem
    rw [mem_scope_openFrame]
    rcases mem with mem | rfl
    · exact .inl (h.carried f mem)
    · exact .inr rfl
  threaded t mem := by
    rw [threads_openFrame] at mem
    rw [mem_scope_openFrame]
    exact .inl (h.threaded t mem)
  produced t mem producer made := by
    rw [threads_openFrame] at mem
    obtain ⟨behind, found⟩ := h.produced t mem producer made
    exact ⟨behind, b.carryOver?_openFrame found⟩
  read place f found entry mem name reads := by
    rw [frames_openFrame, List.getElem?_append] at found
    rw [threads_openFrame]
    split at found
    · exact h.read place f found entry mem name reads
    · -- the new frame has no entries yet
      obtain rfl : f = ⟨carryOver, [], closing⟩ := by
        simpa using List.mem_of_getElem? found
      cases mem

/-- A new thread whose variable is in scope, from a clause or from a frame behind its reader. -/
theorem thread (h : Threaded b) {name : String} {consumer : Nat} {producer? : Option Nat}
    (bound : name ∈ b.scope)
    (made : ∀ producer, producer? = some producer →
      consumer < producer ∧ b.carryOver? producer = some name) :
    Threaded (b.thread name consumer producer?) where
  carried := h.carried
  threaded t mem := by
    rcases List.mem_append.1 mem with mem | mem
    · exact h.threaded t mem
    · obtain rfl := List.mem_singleton.1 mem
      exact bound
  produced t mem producer found := by
    rcases List.mem_append.1 mem with mem | mem
    · exact h.produced t mem producer found
    · obtain rfl := List.mem_singleton.1 mem
      exact made producer found
  read place f found entry mem name reads := by
    rcases h.read place f found entry mem name reads with same | ⟨t, threaded, rest⟩
    · exact .inl same
    · exact .inr ⟨t, List.mem_append_left _ threaded, rest⟩

theorem bindScope (h : Threaded b) (name : String) : Threaded (b.bindScope name) where
  carried f mem := by
    rw [frames_bindScope] at mem
    rw [mem_scope_bindScope]
    exact .inl (h.carried f mem)
  threaded t mem := by
    rw [threads_bindScope] at mem
    rw [mem_scope_bindScope]
    exact .inl (h.threaded t mem)
  produced := by
    unfold carryOver?
    rw [frames_bindScope, threads_bindScope]
    exact h.produced
  read := by
    rw [frames_bindScope, threads_bindScope]
    exact h.read

/-- A new entry that reads the variable of its frame or what is threaded to it. -/
theorem project (h : Threaded b) {frame : Nat} {key : String} {expression : Expression}
    (reads : ∀ name ∈ expression.reads, b.carryOver? frame = some name
      ∨ ∃ t ∈ b.threads, t.name = name ∧ t.consumer = frame) :
    Threaded (b.project frame key expression) where
  carried f mem := by
    obtain ⟨place, found⟩ := List.mem_iff_getElem?.1 mem
    have carried : (b.project frame key expression).carryOver? place = some f.carryOver := by
      rw [carryOver?, found]
      rfl
    rw [carryOver?_project] at carried
    exact h.carryOver_mem_scope carried
  threaded := h.threaded
  produced t mem producer made := by
    rw [carryOver?_project]
    exact h.produced t mem producer made
  read place f found entry mem name read := by
    rw [getElem?_frames_project] at found
    obtain ⟨g, at_, rfl⟩ := Option.map_eq_some_iff.1 found
    split at mem
    · rename_i here
      subst here
      rw [if_pos rfl]
      rcases List.mem_append.1 mem with mem | mem
      · exact h.read _ g at_ entry mem name read
      · -- the entry is the new one
        obtain rfl := List.mem_singleton.1 mem
        rcases reads name read with own | threaded
        · rw [carryOver?, at_, Option.map_some, Option.some.injEq] at own
          exact .inl own.symm
        · exact .inr threaded
    · rename_i apart
      rw [if_neg apart]
      exact h.read place g at_ entry mem name read

end Threaded

/-! ## What comes later -/

/-- A later builder of the same statement: clauses are only added, the scope only grows, and every
aggregation in between lists all that was in scope before. -/
structure Later (b later : Builder) : Prop where
  scope : ∀ name ∈ b.scope, name ∈ later.scope
  clauses : ∃ added, later.clauses = b.clauses ++ added
    ∧ ∀ scope value name, Clause.aggregate scope value name ∈ added →
        ∀ bound ∈ b.scope, bound ∈ scope

namespace Later

theorem refl (b : Builder) : Later b b :=
  ⟨fun _ => id, [], by simp⟩

theorem trans {b c d : Builder} (first : Later b c) (second : Later c d) : Later b d := by
  obtain ⟨added, clauses, lists⟩ := first.clauses
  obtain ⟨more, clauses', lists'⟩ := second.clauses
  refine ⟨fun name mem => second.scope name (first.scope name mem), added ++ more, ?_, ?_⟩
  · rw [clauses', clauses, List.append_assoc]
  · intro scope value name mem bound inScope
    rcases List.mem_append.1 mem with mem | mem
    · exact lists scope value name mem bound inScope
    · exact lists' scope value name mem bound (first.scope bound inScope)

/-- An operation that adds no clause and drops nothing from the scope. -/
theorem of_clauses_eq {b later : Builder} (clauses : later.clauses = b.clauses)
    (scope : ∀ name ∈ b.scope, name ∈ later.scope) : Later b later :=
  ⟨scope, [], by simp [clauses], by simp⟩

/-- A clause that is no aggregation, or aggregates over the scope as it is. -/
theorem addClause (b : Builder) (clause : Clause)
    (lists : ∀ scope value name, clause = .aggregate scope value name → scope = b.scope) :
    Later b (b.addClause clause) := by
  refine ⟨fun _ => id, [clause], rfl, ?_⟩
  intro scope value name mem bound inScope
  rw [lists scope value name (List.mem_singleton.1 mem).symm]
  exact inScope

theorem bindScope (b : Builder) (name : String) : Later b (b.bindScope name) :=
  of_clauses_eq (by simp) fun other mem => by simp [mem]

theorem openFrame (b : Builder) (carryOver : String) (closing : Closing) :
    Later b (b.openFrame carryOver closing) :=
  of_clauses_eq (by simp) fun other mem => by simp [mem]

theorem project (b : Builder) (frame : Nat) (key : String) (expression : Expression) :
    Later b (b.project frame key expression) :=
  of_clauses_eq rfl fun _ => id

theorem thread (b : Builder) (name : String) (consumer : Nat) (producer? : Option Nat) :
    Later b (b.thread name consumer producer?) :=
  of_clauses_eq rfl fun _ => id

theorem referAll (b : Builder) (path : String) (supplied : List Supplied) :
    Later b (b.referAll path supplied).2 :=
  of_clauses_eq (by simp) fun other mem => by simpa using mem

end Later

end GraphBridge.Statement.Builder

namespace GraphBridge.Compile

open Query Schema Statement

/-! ## Override fragments -/

section Override

variable {b : Builder} {frame : Nat}

theorem threaded_keepFor (h : b.Threaded) (name : String) : (keepFor b frame name).Threaded :=
  (h.bindScope name).thread (by simp) (by simp)

theorem later_keepFor (b : Builder) (frame : Nat) (name : String) :
    b.Later (keepFor b frame name) :=
  (Builder.Later.bindScope b name).trans (.thread _ _ _ _)

@[simp] theorem frames_keepFor (name : String) : (keepFor b frame name).frames = b.frames := by
  simp [keepFor, Builder.thread]

theorem threads_keepFor (name : String) :
    (keepFor b frame name).threads = b.threads ++ [⟨name, frame, none⟩] := by
  simp [keepFor, Builder.thread]

/-- Keeping variables one by one: what each step keeps, all of them keep. -/
theorem keepMentioned_induction {motive : Builder → Prop} {tail : Fragment}
    (kept : ∀ b name, motive b → motive (keepFor b frame name)) (names : List String)
    (start : motive b) : motive (keepMentioned frame tail names b) := by
  unfold keepMentioned
  induction names generalizing b with
  | nil => exact start
  | cons name rest ih =>
      rw [List.foldl_cons]
      split
      · exact ih (kept b name start)
      · exact ih start

theorem mem_threads_keepMentioned {tail : Fragment} {names : List String} {t : Thread}
    (mem : t ∈ b.threads) : t ∈ (keepMentioned frame tail names b).threads :=
  keepMentioned_induction (motive := fun b => t ∈ b.threads)
    (fun b name kept => by rw [threads_keepFor]; exact List.mem_append_left _ kept) names mem

/-- Each variable that the expression mentions is threaded to the frame. -/
theorem keepMentioned_threads {tail : Fragment} {names : List String} {name : String}
    (mem : name ∈ names) (mentioned : tail.mentions name = true) :
    ⟨name, frame, none⟩ ∈ (keepMentioned frame tail names b).threads := by
  induction names generalizing b with
  | nil => cases mem
  | cons first rest ih =>
      unfold keepMentioned
      rw [List.foldl_cons]
      rcases List.mem_cons.1 mem with rfl | later
      · rw [if_pos mentioned]
        apply mem_threads_keepMentioned
        rw [threads_keepFor]
        exact List.mem_append_right _ (List.mem_singleton.2 rfl)
      · exact ih later

/-- The new names that occur in a scalar override: the variable of the frame, or what the fragment
binds under the stem of the field. -/
theorem mem_newNames {path stem name : String} {bound : List String} {tail : Fragment}
    (mem : name ∈ (Inlined.mk tail (scalarNames path stem bound)).newNames) :
    name = path ∨ name ∈ bound.map (fun variable_ => stem ++ "_" ++ variable_)
      ∧ (Inlined.mk tail (scalarNames path stem bound)).renamed.mentions name = true := by
  obtain ⟨old, occurs, renamed⟩ := List.mem_filterMap.1 mem
  have mentioned := Fragment.mentions_rename occurs renamed
  simp only [scalarNames, Table.get?] at renamed
  split at renamed
  · exact .inl (Option.some.inj renamed).symm
  · refine .inr ⟨?_, mentioned⟩
    obtain ⟨known, rfl⟩ := Table.eq_of_get?_map renamed
    exact List.mem_map.2 ⟨old, known, rfl⟩

theorem threaded_addBody (h : b.Threaded) (config : Config) (body : Inlined) :
    (addBody config b body).Threaded := by
  unfold addBody
  split
  · exact h
  · exact h.addClause _

theorem later_addBody (config : Config) (b : Builder) (body : Inlined) :
    b.Later (addBody config b body) := by
  unfold addBody
  split
  · exact .refl b
  · exact .addClause b _ (by simp [inlinedClause])

@[simp] theorem frames_addBody (config : Config) (body : Inlined) :
    (addBody config b body).frames = b.frames := by
  unfold addBody
  split <;> rfl

/-- What the expression of a scalar field needs of the builder it comes with: the invariant is kept,
no frame is touched, and the expression reads the variable of its frame or what is threaded to it. -/
structure Provided (b : Builder) (frame : Nat) (path : String)
    (result : Expression × Builder) : Prop where
  threaded : result.2.Threaded
  later : b.Later result.2
  frames : result.2.frames = b.frames
  reads : ∀ name ∈ result.1.reads,
    name = path ∨ ∃ t ∈ result.2.threads, t.name = name ∧ t.consumer = frame

/-- A new variable that is kept for the frame provides itself. -/
theorem provided_keepFor {b' : Builder} (h : b'.Threaded) (later : b.Later b')
    (frames : b'.frames = b.frames) (path name : String) :
    Provided b frame path (.named name, keepFor b' frame name) where
  threaded := threaded_keepFor h name
  later := later.trans (later_keepFor b' frame name)
  frames := by simpa using frames
  reads other mem := by
    obtain rfl := List.mem_singleton.1 mem
    exact .inr ⟨⟨other, frame, none⟩, by simp [threads_keepFor], rfl, rfl⟩

/-- The expression that a fragment returns is provided once the variables in it are kept. -/
theorem provided_keepMentioned {b' : Builder} (h : b'.Threaded) (later : b.Later b')
    (frames : b'.frames = b.frames) (path stem : String) (bound : List String)
    (tail : Fragment) :
    let value : Inlined := ⟨tail, scalarNames path stem bound⟩
    Provided b frame path (.inlined value, keepMentioned frame value.renamed
      (bound.map fun name => stem ++ "_" ++ name) b') where
  threaded :=
    keepMentioned_induction (motive := Builder.Threaded)
      (fun _ name kept => threaded_keepFor kept name) _ h
  later :=
    keepMentioned_induction (motive := b.Later)
      (fun c name kept => kept.trans (later_keepFor c frame name)) _ later
  frames :=
    keepMentioned_induction (motive := fun c => c.frames = b.frames)
      (fun c name kept => by simpa using kept) _ frames
  reads name mem := by
    rcases mem_newNames mem with own | ⟨renamed, mentioned⟩
    · exact .inl own
    · exact .inr ⟨⟨name, frame, none⟩, keepMentioned_threads renamed mentioned, rfl, rfl⟩

/-- Every way to inline a scalar override provides its expression. -/
theorem provided_inlineScalar (h : b.Threaded) (config : Config) (bound : List String)
    (body tail : Fragment) (path key : String) (frame : Nat) :
    Provided b frame path (inlineScalar config bound body tail path key frame b) := by
  simp only [inlineScalar]
  split
  · exact provided_keepFor (h.addClause _) (.addClause b _ (by simp)) rfl path _
  · have threaded := threaded_addBody h config
      ⟨body, scalarNames path (path ++ "_" ++ key) bound⟩
    have later := later_addBody config b
      ⟨body, scalarNames path (path ++ "_" ++ key) bound⟩
    split
    · refine provided_keepFor (threaded.addClause _) (later.trans (.addClause _ _ ?_))
        (frames_addBody config _) path _
      -- an aggregation lists the scope as it is
      rintro scope value name ⟨⟩
      rfl
    · exact provided_keepMentioned threaded later (frames_addBody config _) path _ bound tail

end Override

/-! ## Actions -/

theorem threaded_emit_reach {b : Builder} (h : b.Threaded) (config : Config)
    (parent child : String) (reach : Reach) : (reach.emit config parent child b).Threaded := by
  cases reach with
  | relationship => exact (h.referAll _ _).addClause _
  | override => exact h.addClause _

theorem later_emit_reach (b : Builder) (config : Config) (parent child : String)
    (reach : Reach) : b.Later (reach.emit config parent child b) := by
  cases reach with
  | relationship edgeType direction label identity? supplied =>
      exact (Builder.Later.referAll b _ _).trans (.addClause _ _ (by simp))
  | override => exact .addClause b _ (by simp [inlinedClause])

@[simp] theorem frames_emit_reach (b : Builder) (config : Config) (parent child : String)
    (reach : Reach) : (reach.emit config parent child b).frames = b.frames := by
  cases reach with
  | relationship => simp [Reach.emit, inlineRelationship, filterFor, Builder.addClause]
  | override => rfl

theorem provided_emit {b : Builder} (h : b.Threaded) (config : Config) (path key : String)
    (frame : Nat) (value : Scalar) :
    Provided b frame path (value.emit config path key frame b) := by
  cases value with
  | typeName name => exact ⟨h, .refl b, rfl, by simp [Scalar.emit, Expression.reads]⟩
  | identity => exact ⟨h, .refl b, rfl, by simp [Scalar.emit, Expression.reads]⟩
  | property stored => exact ⟨h, .refl b, rfl, by simp [Scalar.emit, Expression.reads]⟩
  | override bound body tail =>
      exact provided_inlineScalar h config bound body tail path key frame

/-- The invariant of a projection: the builder is threaded, each open frame is there under its
variable, and frames are opened behind those around them. -/
structure State.Nested (s : State) : Prop where
  threaded : s.builder.Threaded
  opened : ∀ top ∈ s.stack, s.builder.carryOver? top.1 = some top.2
  ordered : s.stack.Pairwise fun inner outer => outer.1 < inner.1

namespace State.Nested

theorem carryOver?_congr {b b' : Builder} (same : b'.frames = b.frames) (place : Nat) :
    b'.carryOver? place = b.carryOver? place := by
  rw [Builder.carryOver?, same]
  rfl

theorem scalar {config : Config} {b : Builder} {frame : Nat} {path : String}
    {outer : List (Nat × String)} (h : Nested ⟨b, (frame, path) :: outer⟩) (key : String)
    (value : Scalar) :
    Nested ⟨putScalar config b frame path key value, (frame, path) :: outer⟩ := by
  have provided := provided_emit h.threaded config path key frame value
  refine ⟨provided.threaded.project ?_, ?_, h.ordered⟩
  · intro name read
    rcases provided.reads name read with rfl | bound
    · left
      rw [carryOver?_congr provided.frames]
      exact h.opened (frame, name) List.mem_cons_self
    · exact .inr bound
  · intro top mem
    rw [putScalar, Builder.carryOver?_project, carryOver?_congr provided.frames]
    exact h.opened top mem

theorem enter {config : Config} {b : Builder} {frame : Nat} {path : String}
    {outer : List (Nat × String)} (h : Nested ⟨b, (frame, path) :: outer⟩) (key : String)
    (reach : Reach) (closing : Closing) :
    Nested (step config ⟨b, (frame, path) :: outer⟩ (.enter key reach closing)) := by
  -- every open frame stands in front of the new one
  have below (top : Nat × String) (mem : top ∈ (frame, path) :: outer) :
      top.1 < b.frames.length := by
    obtain ⟨f, found, -⟩ := Option.map_eq_some_iff.1 (h.opened top mem)
    exact (List.getElem?_eq_some_iff.1 found).1
  refine ⟨(threaded_emit_reach h.threaded config path _ reach).openFrame _ closing, ?_, ?_⟩
  · intro top mem
    rcases List.mem_cons.1 mem with rfl | mem
    · exact Builder.carryOver?_openFrame_length _ _ closing
    · apply Builder.carryOver?_openFrame
      rw [carryOver?_congr (frames_emit_reach b config path _ reach)]
      exact h.opened top mem
  · refine List.pairwise_cons.2 ⟨?_, h.ordered⟩
    intro top mem
    rw [frames_emit_reach]
    exact below top mem

theorem leave {b : Builder} {frame inner : Nat} {path child : String}
    {outer : List (Nat × String)} (h : Nested ⟨b, (inner, child) :: (frame, path) :: outer⟩)
    (key : String) : Nested ⟨putObject b frame inner key child, (frame, path) :: outer⟩ := by
  have carried := h.opened (inner, child) List.mem_cons_self
  have behind : frame < inner :=
    (List.pairwise_cons.1 h.ordered).1 (frame, path) List.mem_cons_self
  -- the entry reads the thread that is recorded right after it
  have threaded : (b.thread child frame (some inner)).Threaded :=
    h.threaded.thread (h.threaded.carryOver_mem_scope carried) (by simpa using ⟨behind, carried⟩)
  refine ⟨threaded.project ?_, ?_, (List.pairwise_cons.1 h.ordered).2⟩
  · simp only [Expression.reads, List.mem_singleton]
    rintro name rfl
    exact .inr ⟨⟨name, frame, some inner⟩,
      List.mem_append_right _ (List.mem_singleton.2 rfl), rfl, rfl⟩
  · intro top mem
    exact (Builder.carryOver?_project _ _ _ _ _).trans
      (h.opened top (List.mem_cons_of_mem _ mem))

/-- Every action keeps the invariant. -/
theorem step {config : Config} (s : State) (a : Action) (h : s.Nested) :
    (s.step config a).Nested := by
  obtain ⟨b, stack⟩ := s
  match stack, a with
  | (frame, path) :: outer, .scalar key value => exact h.scalar key value
  | (frame, path) :: outer, .enter key reach closing => exact h.enter key reach closing
  | (inner, child) :: (frame, path) :: outer, .leave key => exact h.leave key
  | [], .scalar .. => exact h
  | [], .enter .. => exact h
  | [], .leave _ => exact h
  | [_], .leave _ => exact h

end State.Nested

/-- Every action makes a later builder. -/
theorem State.later_step {config : Config} (s : State) (a : Action) (h : s.Nested) :
    s.builder.Later (s.step config a).builder := by
  obtain ⟨b, stack⟩ := s
  match stack, a with
  | (frame, path) :: outer, .scalar key value =>
      exact (provided_emit h.threaded config path key frame value).later.trans
        (.project _ _ _ _)
  | (frame, path) :: outer, .enter key reach closing =>
      exact (later_emit_reach b config path _ reach).trans (.openFrame _ _ _)
  | (inner, child) :: (frame, path) :: outer, .leave key =>
      exact (Builder.Later.project b _ _ _).trans (.thread _ _ _ _)
  | [], .scalar .. => exact .refl b
  | [], .enter .. => exact .refl b
  | [], .leave _ => exact .refl b
  | [_], .leave _ => exact .refl b

/-- Every run keeps the invariant and makes a later builder. -/
theorem State.run_nested {s : State} (h : s.Nested) (config : Config) (actions : List Action) :
    (s.run config actions).Nested ∧ s.builder.Later (s.run config actions).builder := by
  refine run_induction (motive := fun s' => s'.Nested ∧ s.builder.Later s'.builder) ?_ actions
    ⟨h, .refl _⟩
  rintro s' a ⟨nested, later⟩
  exact ⟨nested.step s' a, later.trans (later_step s' a nested)⟩

/-! ## Root fields -/

/-- A root frame behind clauses that project nothing. -/
theorem RootProjection.nested_first {p : RootProjection} (unframed : Unframed p.start) :
    p.first.Nested := by
  have threaded : p.start.Threaded :=
    Builder.Threaded.empty.of_eq unframed.frames unframed.threads unframed.scope
  refine ⟨threaded.openFrame p.path p.closing, ?_, List.pairwise_singleton _ _⟩
  intro top mem
  obtain rfl := List.mem_singleton.1 mem
  have opened := p.start.carryOver?_openFrame_length p.path p.closing
  rwa [unframed.frames] at opened

/-- Putting a clause among the clauses leaves the chain of lines as it is. -/
theorem threaded_insertClause {b : Builder} (h : b.Threaded) (place : Nat) (clause : Clause) :
    (b.insertClause place clause).Threaded :=
  h.of_eq rfl rfl rfl

/-- What is projected for a root field, read or written, is closed: every `WITH` line lists and
reads only what the line in front of it leaves, and so does the `RETURN`. And at every moment of the
projection, each aggregation that is still to come lists the variables of all frames opened and all
variables threaded by then. -/
theorem planRoot_scopeClosed {ctx : Context} {root : Root} {field : Operation.Field} {b : Builder}
    (planned : Compiler.planRoot ctx root field = .ok (.projecting b)) :
    b.ScopeClosed ∧ ∃ p : RootProjection, p.Yields ctx root field b ∧
      ∀ done rest, actionsOf p.entries = done ++ rest →
        let reached := (p.after ctx.config done).builder
        ∃ added, (p.final ctx.config).clauses = reached.clauses ++ added ∧
          ∀ scope value name, Clause.aggregate scope value name ∈ added →
            (∀ f ∈ reached.frames, f.carryOver ∈ scope)
              ∧ ∀ t ∈ reached.threads, t.name ∈ scope := by
  obtain ⟨p, yields⟩ := planRoot_yields planned
  have first := RootProjection.nested_first yields.unframed
  have final : (p.final ctx.config).Threaded := (State.run_nested first ctx.config _).1.threaded
  refine ⟨?_, p, yields, ?_⟩
  · rcases yields.builder with rfl | rfl
    · exact final.scopeClosed
    · exact (threaded_insertClause final _ _).scopeClosed
  · intro done rest split reached
    have nested := (State.run_nested first ctx.config done).1
    obtain ⟨added, clauses, lists⟩ := (State.run_nested nested ctx.config rest).2.clauses
    refine ⟨added, ?_, ?_⟩
    · rw [RootProjection.final, RootProjection.after, split, State.run_append, clauses]
      rfl
    · intro scope value name mem
      refine ⟨fun f carried => ?_, fun t threaded => ?_⟩
      · exact lists scope value name mem _ (nested.threaded.carried f carried)
      · exact lists scope value name mem _ (nested.threaded.threaded t threaded)

/-- Persons with friends, and a count of them that a fragment aggregates. -/
def friendsIndex : Index := ⟨⟨[
  ⟨"Person", .object, [], [
    ⟨"name", ⟨"String", false, false⟩, [], []⟩,
    ⟨"popularity", ⟨"Int", false, false⟩, [],
      [⟨"cypher", [("statement", .string "MATCH (this)--(other) RETURN count(other)")]⟩]⟩,
    ⟨"friends", ⟨"Person", true, false⟩, [], [⟨"relationship", [("type", .string "knows")]⟩]⟩]⟩,
  ⟨"Query", .object, [], [⟨"person", ⟨"Person", false, false⟩, [], []⟩]⟩]⟩⟩

/-- A root field of persons. -/
def personRoot : Root where
  kind := .query
  name := "person"
  returnType := "Person"
  label := "Person"
  path := "person_Person"
  returnsArray := false
  returnsObject := true
  fragment? := none
  arguments := []
  idArgument? := none
  limit? := none

/-- A selection of two lists of friends, one inside the other, with counts before and behind. -/
def friendsField : Operation.Field :=
  ⟨none, "person", [], [
    .field none "popularity" [] [],
    .field none "friends" [] [
      .field none "friends" [] [.field none "popularity" [] []],
      .field none "name" [] []],
    .field (some "again") "friends" [] [.field none "popularity" [] []]]⟩

theorem planRoot_scopeClosed_friends :
    ∃ b, Compiler.planRoot ⟨friendsIndex, {}, []⟩ personRoot friendsField = .ok (.projecting b)
      ∧ b.ScopeClosed := by
  have shape : (projected? (Compiler.planRoot ⟨friendsIndex, {}, []⟩ personRoot
      friendsField)).any (fun _ => true) = true := by decide +kernel
  obtain ⟨b, planned, -⟩ := exists_projecting shape
  exact ⟨b, planned, (planRoot_scopeClosed planned).1⟩

end GraphBridge.Compile
