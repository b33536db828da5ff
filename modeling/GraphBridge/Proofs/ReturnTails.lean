import GraphBridge.Proofs.Anchoring
import GraphBridge.Proofs.Cutting
import GraphBridge.Proofs.Keywords
import GraphBridge.Proofs.Plain
import GraphBridge.Proofs.PropertyKeys

/-!
# Returned expressions of scalar overrides

What stands behind the `RETURN` of a scalar override is taken over as it is: into an entry of the
frame of its object, or, if it calls a function, into a clause that aggregates under a new name. It
is not looked into. So a comma or a word that ends a returned expression is in the statement if and
only if it is in the fragment, outside of all brackets as it was; the one exception are words that
the fragment takes for variables.
-/

namespace GraphBridge.Query

open Text

/-! ## What breaks an expression -/

/-- The words that name a returned expression, qualify it or end it. -/
def tailWords : List String :=
  ["AS", "DISTINCT", "ORDER", "SKIP", "LIMIT"]

/-- Whether a token cannot stand in a single expression without a name, outside of brackets. -/
def Token.breaksExpression (t : Token) : Bool :=
  t.isSymbol ',' || tailWords.any t.isKeyword

theorem breaksExpression_of_kind {t : Token} (kind : t.kind = .identifier) :
    t.breaksExpression = tailWords.any (equalIgnoringCase t.text) := by
  have comma : t.isSymbol ',' = false := by rw [Token.isSymbol, kind]; rfl
  rw [Token.breaksExpression, comma, Bool.false_or]
  congr 1
  funext word
  rw [Token.isKeyword, kind]
  rfl

/-- None of the words has an underscore in it. -/
theorem not_breaksExpression_of_underscore {t : Token} (kind : t.kind = .identifier)
    (mem : '_' ∈ t.text.toList) : t.breaksExpression = false := by
  have plain : ∀ word ∈ tailWords, '_' ∉ word.toList.map Char.toLower := by decide
  rw [breaksExpression_of_kind kind, List.any_eq_false]
  intro word known equal
  refine plain word known ?_
  rw [← beq_iff_eq.1 equal]
  exact List.mem_map.2 ⟨'_', mem, by decide⟩

theorem not_breaksExpression_this {t : Token} (kind : t.kind = .identifier)
    (this : t.text = "this") : t.breaksExpression = false := by
  rw [breaksExpression_of_kind kind, this]
  decide

/-- Whether a place stands for one of some variables. -/
def Placed.standsFor (bound : List String) (p : Placed) : Bool :=
  p.isVariable && bound.contains p.token.text

namespace Fragment

/-- The places outside of all brackets, given the depth in front. -/
def outsideFrom (depth : Nat) : List Placed → List Placed
  | [] => []
  | p :: rest =>
      let behind := outsideFrom (depthAfter depth p.token) rest
      if depth == 0 then p :: behind else behind

/-- The places of a fragment outside of all brackets. -/
def outside (f : Fragment) : List Placed :=
  outsideFrom 0 f.placed

/-- The tokens outside of all brackets that cannot stand in a single expression without a name. -/
def breaks (f : Fragment) : List Token :=
  (f.outside.map (·.token)).filter Token.breaksExpression

theorem outsideFrom_subset (depth : Nat) (places : List Placed) :
    outsideFrom depth places ⊆ places := by
  induction places generalizing depth with
  | nil => exact List.Subset.refl _
  | cons p rest ih =>
      have behind := List.subset_cons_of_subset p (ih (depthAfter depth p.token))
      rw [outsideFrom]
      split
      · exact List.cons_subset_cons p (ih _)
      · exact behind

/-- Which tokens are outside of brackets is told by their kinds. -/
theorem map_outsideFrom {rename : String → Option String} {places others : List Placed}
    (same : others.map (·.token) = places.map (renameToken rename)) (depth : Nat) :
    (outsideFrom depth others).map (·.token)
      = (outsideFrom depth places).map (renameToken rename) := by
  induction places generalizing others depth with
  | nil =>
      rw [List.map_eq_nil_iff.1 same]
      rfl
  | cons p places ih =>
      obtain ⟨q, rest, rfl, token, tokens⟩ := List.map_eq_cons_iff.1 same
      have depths : depthAfter depth q.token = depthAfter depth p.token :=
        depthAfter_congr (token ▸ kind_renameToken rename p) depth
      have behind := ih tokens (depthAfter depth p.token)
      rw [outsideFrom, outsideFrom, depths]
      split
      · rw [List.map_cons, List.map_cons, token, behind]
      · exact behind

/-- Renaming moves nothing in or out of brackets. -/
theorem outside_rename (f : Fragment) (rename : String → Option String) :
    (f.renameVariables rename).outside.map (·.token) = f.outside.map (renameToken rename) :=
  map_outsideFrom (map_token_placedFrom [] none _) 0

end Fragment

end GraphBridge.Query

namespace GraphBridge.Compile

open Operation Query Schema Statement

/-! ## What is taken over -/

section Renamed

variable {path stem : String} {bound : List String} {p : Placed}

/-- A place that stands for one of the bound variables breaks nothing under its new name, and any
other that breaks an expression stays as it is. -/
theorem renameToken_scalarNames (rooted : '_' ∈ path.toList)
    (kind : p.isVariable = true → p.token.kind = .identifier) :
    let renamed := Fragment.renameToken (scalarNames path stem bound).get? p
    renamed.breaksExpression = (p.token.breaksExpression && !p.standsFor bound)
      ∧ (renamed.breaksExpression = true → renamed = p.token) := by
  intro renamed
  cases place : p.isVariable with
  | false =>
      have same : renamed = p.token := by
        change Fragment.renameToken _ p = _
        rw [Fragment.renameToken, place]
        rfl
      rw [same, Placed.standsFor, place, Bool.false_and, Bool.not_false, Bool.and_true]
      exact ⟨rfl, fun _ => rfl⟩
  | true =>
      have shape : renamed = { p.token with
          text := ((scalarNames path stem bound).get? p.token.text).getD p.token.text } := by
        change Fragment.renameToken _ p = _
        rw [Fragment.renameToken, place]
        rfl
      have identifier : renamed.kind = .identifier := by rw [shape]; exact kind place
      by_cases this : p.token.text = "this"
      · have underscore : '_' ∈ renamed.text.toList := by rw [shape, this]; exact rooted
        rw [not_breaksExpression_of_underscore identifier underscore,
          not_breaksExpression_this (kind place) this, Bool.false_and]
        exact ⟨rfl, fun breaks => by cases breaks⟩
      rw [get?_scalarNames this] at shape
      rw [Placed.standsFor, place, Bool.true_and]
      by_cases known : p.token.text ∈ bound
      · rw [if_pos known] at shape
        have underscore : '_' ∈ renamed.text.toList := by rw [shape]; simp
        rw [not_breaksExpression_of_underscore identifier underscore,
          List.contains_iff_mem.2 known, Bool.not_true, Bool.and_false]
        exact ⟨rfl, fun breaks => by cases breaks⟩
      · rw [if_neg known] at shape
        have same : renamed = p.token := shape
        rw [same, Bool.eq_false_iff.2 (fun mem => known (List.contains_iff_mem.1 mem)),
          Bool.not_false, Bool.and_true]
        exact ⟨rfl, fun _ => rfl⟩

/-- What breaks an expression outside of brackets, of what is taken over: what does so in the
fragment, other than places that stand for bound variables. -/
theorem breaks_renamed (rooted : '_' ∈ path.toList) (f : Fragment) :
    (Inlined.mk f (scalarNames path stem bound)).renamed.breaks
      = (f.outside.filter fun p => p.token.breaksExpression && !p.standsFor bound).map
          (·.token) := by
  have kinds : ∀ p ∈ f.outside, p.isVariable = true → p.token.kind = .identifier :=
    fun p mem => Fragment.kind_of_isVariable p (Fragment.outsideFrom_subset 0 _ mem)
  rw [Fragment.breaks, Inlined.renamed, Fragment.outside_rename, List.filter_map]
  have chosen : f.outside.filter (Token.breaksExpression ∘
        Fragment.renameToken (scalarNames path stem bound).get?)
      = f.outside.filter fun p => p.token.breaksExpression && !p.standsFor bound :=
    List.filter_congr fun p mem => (renameToken_scalarNames rooted (kinds p mem)).1
  rw [chosen]
  refine List.map_congr_left fun p mem => ?_
  obtain ⟨among, breaks⟩ := List.mem_filter.1 mem
  obtain ⟨same, kept⟩ := @renameToken_scalarNames path stem bound p rooted (kinds p among)
  exact kept (same.trans breaks)

end Renamed

/-! ## Where it is taken over -/

/-- A later builder of the same statement: clauses are added, and frames get entries. -/
structure Fills (b later : Builder) : Prop where
  clauses : b.clauses ⊆ later.clauses
  frames : ∀ (place : Nat) (f : Frame), b.frames[place]? = some f →
    ∃ content, later.frames[place]? = some (f.extend content)

namespace Fills

variable {b c d : Builder}

theorem of_frames (clauses : b.clauses ⊆ c.clauses) (frames : c.frames = b.frames) : Fills b c :=
  ⟨clauses, fun place f found => ⟨[], by rw [Frame.extend_nil, frames]; exact found⟩⟩

theorem refl (b : Builder) : Fills b b :=
  of_frames (List.Subset.refl _) rfl

theorem trans (first : Fills b c) (second : Fills c d) : Fills b d where
  clauses := List.Subset.trans first.clauses second.clauses
  frames place f found := by
    obtain ⟨content, middle⟩ := first.frames place f found
    obtain ⟨more, later⟩ := second.frames place _ middle
    exact ⟨content ++ more, by rw [later, Frame.extend_extend]⟩

theorem project (b : Builder) (frame : Nat) (key : String) (expression : Expression) :
    Fills b (b.project frame key expression) where
  clauses := List.Subset.refl _
  frames place f found := by
    rw [Builder.getElem?_frames_project, found]
    by_cases same : frame = place
    · exact ⟨[(key, expression)], by rw [Option.map_some, if_pos same]; rfl⟩
    · exact ⟨[], by rw [Option.map_some, if_neg same, Frame.extend_nil]; rfl⟩

theorem openFrame (b : Builder) (carryOver : String) (closing : Closing) :
    Fills b (b.openFrame carryOver closing) where
  clauses := by rw [Builder.clauses_openFrame]; exact List.Subset.refl _
  frames place f found := by
    have inside := (List.getElem?_eq_some_iff.1 found).1
    refine ⟨[], ?_⟩
    rw [Builder.frames_openFrame, List.getElem?_append_left inside, found, Frame.extend_nil]
    rfl

theorem insertClause (b : Builder) (place : Nat) (clause : Clause) :
    Fills b (b.insertClause place clause) := by
  refine of_frames (fun own mem => ?_) rfl
  rw [← List.take_append_drop place b.clauses, List.mem_append] at mem
  exact List.mem_append.2 (mem.imp_right (List.mem_cons_of_mem _))

end Fills

theorem frames_scalar (b : Builder) (config : Config) (path key : String) (frame : Nat)
    (value : Scalar) : (value.emit config path key frame b).2.frames = b.frames := by
  cases value with
  | typeName | identity | property => rfl
  | override bound body tail =>
      unfold Scalar.emit inlineScalar
      dsimp only
      split
      · exact frames_keepFor _
      split
      · exact (frames_keepFor _).trans (frames_addBody _ _)
      · refine keepMentioned_induction (motive := fun later => later.frames = b.frames)
          (fun later name kept => ?_) _ (frames_addBody _ _)
        exact (frames_keepFor name).trans kept

namespace Fills

/-- Every action of a projection fills in. -/
theorem step (config : Config) (s : State) (a : Action) :
    Fills s.builder (s.step config a).builder := by
  obtain ⟨b, stack⟩ := s
  match a, stack with
  | .scalar key value, (frame, path) :: outer =>
      exact (of_frames (Grows.scalar b config path key frame value).clauses.subset
        (frames_scalar b config path key frame value)).trans (project _ _ _ _)
  | .enter key reached closing, (frame, path) :: outer =>
      exact (of_frames (Grows.reach b config path _ reached).clauses.subset
        (frames_emit_reach b config path _ reached)).trans (openFrame _ _ _)
  | .leave key, (inner, child) :: (frame, path) :: outer =>
      exact (project b _ _ _).trans (of_frames (List.Subset.refl _) rfl)
  | .scalar _ _, [] => exact refl b
  | .enter _ _ _, [] => exact refl b
  | .leave _, [] => exact refl b
  | .leave _, [_] => exact refl b

theorem run (config : Config) (actions : List Action) (s : State) :
    Fills s.builder (s.run config actions).builder :=
  State.run_induction (motive := fun reached => Fills s.builder reached.builder)
    (fun reached a filled => filled.trans (step config reached a)) actions (refl _)

theorem emit (b : Builder) (config : Config) (path : String) (frame : Nat)
    (outer : List (Nat × String)) (entries : List Entry) :
    Fills b (emit config path frame outer entries b) :=
  run config (actionsOf entries) ⟨b, (frame, path) :: outer⟩

/-- What an entry adds is there when all entries have been emitted. -/
theorem emit_of_mem {config : Config} {path : String} {frame : Nat} {outer : List (Nat × String)}
    {e : Entry} {entries : List Entry} (mem : e ∈ entries) (b : Builder) :
    ∃ before, Fills b before ∧ Fills (emitEntry config path frame outer before e)
      (Compile.emit config path frame outer entries b) := by
  obtain ⟨first, rest, rfl⟩ := List.append_of_mem mem
  refine ⟨Compile.emit config path frame outer first b, emit b config path frame outer first, ?_⟩
  have split : Compile.emit config path frame outer (first ++ e :: rest) b
      = Compile.emit config path frame outer rest (emitEntry config path frame outer
          (Compile.emit config path frame outer first b) e) := by
    simp only [emit_eq_foldl, List.foldl_append, List.foldl_cons]
  rw [split]
  exact emit _ config path frame outer rest

theorem carryOver? {b c : Builder} (fills : Fills b c) {place : Nat} {name : String}
    (opened : b.carryOver? place = some name) : c.carryOver? place = some name := by
  obtain ⟨f, found, rfl⟩ := Option.map_eq_some_iff.1 opened
  obtain ⟨content, later⟩ := fills.frames place f found
  rw [Builder.carryOver?, later]
  rfl

end Fills

/-- An expression under a key, in a frame of a variable. -/
def Shows (b : Builder) (path key : String) (expression : Expression) : Prop :=
  ∃ f ∈ b.frames, f.carryOver = path ∧ (key, expression) ∈ f.entries

theorem Shows.fill {b c : Builder} {path key : String} {expression : Expression}
    (shows_ : Shows b path key expression) (fills : Fills b c) : Shows c path key expression := by
  obtain ⟨f, mem, carries, entry⟩ := shows_
  obtain ⟨place, found⟩ := List.mem_iff_getElem?.1 mem
  obtain ⟨content, later⟩ := fills.frames place f found
  exact ⟨_, List.mem_iff_getElem?.2 ⟨place, later⟩, carries, List.mem_append_left _ entry⟩

theorem shows_project {b : Builder} {frame : Nat} {path : String}
    (opened : b.carryOver? frame = some path) (key : String) (expression : Expression) :
    Shows (b.project frame key expression) path key expression := by
  obtain ⟨f, found, rfl⟩ := Option.map_eq_some_iff.1 opened
  have later := b.getElem?_frames_project frame key expression frame
  rw [found, Option.map_some, if_pos rfl] at later
  exact ⟨_, List.mem_iff_getElem?.2 ⟨frame, later⟩, rfl,
    List.mem_append_right _ List.mem_cons_self⟩

/-- The returned expression of an override is in the statement: in the entry of its field, or in a
clause that names what the entry reads. -/
inductive TakesOver (b : Builder) (path key : String) (tail : Inlined) : Prop where
  | entry (plain : tail.renamed.isAggregate = false) (shown : Shows b path key (.inlined tail))
  | aggregate (calls : tail.renamed.isAggregate = true) (scope : List String)
      (clause : .aggregate scope tail (path ++ "_" ++ key) ∈ b.clauses)
      (shown : Shows b path key (.named (path ++ "_" ++ key)))

theorem TakesOver.fill {b c : Builder} {path key : String} {tail : Inlined}
    (takes : TakesOver b path key tail) (fills : Fills b c) : TakesOver c path key tail := by
  cases takes with
  | entry plain shown => exact .entry plain (shown.fill fills)
  | aggregate calls scope clause shown =>
      exact .aggregate calls scope (fills.clauses clause) (shown.fill fills)

/-- In inline mode the value of an override is its returned expression, or the name that a clause
gives to it. -/
theorem inlineScalar_cases {config : Config} (inline : config.subqueryCalls = false)
    (bound : List String) (body tail : Fragment) (path key : String) (frame : Nat) (b : Builder) :
    let stem := path ++ "_" ++ key
    let value : Inlined := ⟨tail, scalarNames path stem bound⟩
    let made := inlineScalar config bound body tail path key frame b
    value.renamed.isAggregate = false ∧ made.1 = .inlined value
      ∨ value.renamed.isAggregate = true ∧ made.1 = .named stem
        ∧ ∃ scope, .aggregate scope value stem ∈ made.2.clauses := by
  intro stem value
  unfold inlineScalar
  dsimp only
  rw [if_neg (by rw [inline]; exact Bool.false_ne_true)]
  split
  · rename_i calls
    refine .inr ⟨calls, rfl, (addBody config b ⟨body, scalarNames path stem bound⟩).scope, ?_⟩
    rw [clauses_keepFor]
    exact List.mem_append_right _ List.mem_cons_self
  · rename_i plain
    exact .inl ⟨Bool.eq_false_iff.2 plain, rfl⟩

/-- In inline mode a scalar override takes over its returned expression. -/
theorem takesOver_putScalar {config : Config} (inline : config.subqueryCalls = false) {b : Builder}
    {frame : Nat} {path : String} (opened : b.carryOver? frame = some path) (key : String)
    (bound : List String) (body tail : Fragment) :
    TakesOver (State.putScalar config b frame path key (.override bound body tail)) path key
      ⟨tail, scalarNames path (path ++ "_" ++ key) bound⟩ := by
  have still : (inlineScalar config bound body tail path key frame b).2.carryOver? frame
      = some path := by
    have frames := frames_scalar b config path key frame (.override bound body tail)
    change (inlineScalar config bound body tail path key frame b).2.frames = _ at frames
    rw [Builder.carryOver?, frames]
    exact opened
  have shown := shows_project still key (inlineScalar config bound body tail path key frame b).1
  have put : State.putScalar config b frame path key (.override bound body tail)
      = (inlineScalar config bound body tail path key frame b).2.project frame key
          (inlineScalar config bound body tail path key frame b).1 := rfl
  rw [put]
  obtain ⟨plain, value⟩ | ⟨calls, value, scope, clause⟩ :=
    inlineScalar_cases inline bound body tail path key frame b
  · rw [value] at shown ⊢
    exact .entry plain shown
  · rw [value] at shown ⊢
    exact .aggregate calls scope clause shown

/-! ## Selected overrides -/

/-- A field of a type that is no object there. -/
structure IsScalarField (ctx : Context) (typeName : String) (f : Field) (d : FieldDescriptor) :
    Prop where
  other : f.name ≠ "__typename"
  found : ctx.index.field typeName f.name = .ok d
  isScalar : d.isObject = false

section Resolved

variable {ctx : Context} {typeName : String} {f : Field} {d : FieldDescriptor} {text : String}

/-- The entry of a scalar override among the selections it stands in. -/
theorem IsScalarField.exists_entry (scalar : IsScalarField ctx typeName f d)
    (mapped : d.mapping = .overridden text) {selections : List Selection} {fields : List Field}
    (collected : collectFields typeName ctx.fragments selections = .ok fields)
    (mem : f ∈ groupFields fields) {levels : Nat} {entries : List Entry}
    (resolved : resolve ctx levels typeName selections = .ok entries) :
    ∃ fragment parts, fragmentFor f text = .ok fragment ∧ splitFor f fragment = .ok parts
      ∧ .scalar f.responseKey (.override fragment.boundVariables parts.1 parts.2) ∈ entries := by
  cases levels with
  | zero => cases resolved
  | succ deeper =>
      obtain ⟨fields', collected', looked⟩ := resolve_eq_ok resolved
      cases collected.symm.trans collected'
      obtain ⟨e, among, found⟩ := exists_mem_of_mapM looked mem
      unfold resolveField at found
      rw [if_neg (by simpa using scalar.other), scalar.found] at found
      obtain ⟨_, same, found⟩ := bind_eq_ok found
      cases same
      rw [scalar.isScalar] at found
      obtain ⟨value, valued, made⟩ := mapError_bind_eq_ok found
      cases made
      unfold resolveScalar at valued
      rw [mapped] at valued
      obtain ⟨fragment, read, valued⟩ := bind_eq_ok valued
      obtain ⟨parts, split, made⟩ := bind_eq_ok valued
      cases made
      exact ⟨fragment, parts, read, split, among⟩

end Resolved

section Below

variable {ctx : Context} {owner place : String} {f : Field} {d : FieldDescriptor} {text : String}

/-- The returned expression of a scalar override of a field. -/
def returnedTail (place : String) (f : Field) (fragment tail : Fragment) : Inlined :=
  ⟨tail, scalarNames place (place ++ "_" ++ f.responseKey) fragment.boundVariables⟩

/-- In inline mode a scalar override that is selected somewhere is taken over there. -/
theorem Projected.takesOver (inline : ctx.config.subqueryCalls = false) {typeName path : String}
    {selections : List Selection} (below : Projected ctx owner place f typeName path selections)
    (scalar : IsScalarField ctx owner f d) (mapped : d.mapping = .overridden text) {levels : Nat}
    {entries : List Entry} (resolved : resolve ctx levels typeName selections = .ok entries) :
    ∃ fragment parts, fragmentFor f text = .ok fragment ∧ splitFor f fragment = .ok parts
      ∧ ∀ frame outer b, b.carryOver? frame = some path →
          TakesOver (emit ctx.config path frame outer entries b) place f.responseKey
            (returnedTail place f fragment parts.2) := by
  induction below generalizing levels entries with
  | here collected mem =>
      obtain ⟨fragment, parts, read, split, among⟩ :=
        scalar.exists_entry mapped collected mem resolved
      refine ⟨fragment, parts, read, split, fun frame outer b opened => ?_⟩
      obtain ⟨before, front, filled⟩ := Fills.emit_of_mem among b
      have taken := takesOver_putScalar inline (front.carryOver? opened) f.responseKey
        fragment.boundVariables parts.1 parts.2
      exact taken.fill filled
  | @inner typeName path selections fields g d' collected mem outside _ ih =>
      obtain ⟨deeper, reach, inner, -, selected, among⟩ :=
        outside.exists_entry collected mem resolved
      obtain ⟨fragment, parts, read, split, takes⟩ := ih selected
      refine ⟨fragment, parts, read, split, fun frame outer b opened => ?_⟩
      obtain ⟨before, -, filled⟩ := Fills.emit_of_mem among b
      have entered := takes _ ((frame, path) :: outer) _
        (Builder.carryOver?_openFrame_length
          (reach.emit ctx.config path (path ++ "_" ++ g.responseKey) before)
          (path ++ "_" ++ g.responseKey) (closingOf d' g))
      refine (entered.fill ?_).fill filled
      rw [emitEntry_object]
      exact (Fills.project _ _ _ _).trans (.of_frames (List.Subset.refl _) rfl)

/-- What is below a variable keeps its name in front. -/
theorem Projected.path_subset {typeName path : String} {selections : List Selection}
    (below : Projected ctx owner place f typeName path selections) :
    path.toList ⊆ place.toList := by
  induction below with
  | here => exact List.Subset.refl _
  | inner collected mem object below ih =>
      refine List.Subset.trans (fun c own => ?_) ih
      simp only [String.toList_append]
      exact List.mem_append_left _ (List.mem_append_left _ own)

end Below

/-! ## The text of the statement -/

section Text

variable {b : Builder}

/-- A line of a statement. -/
theorem exists_sides_line {line : String} (mem : line ∈ b.lines) :
    ∃ first last, b.text = first ++ line ++ last := by
  obtain ⟨first, last, whole, -⟩ := exists_sides_of_mem "\n" mem
  exact ⟨first, last, whole⟩

theorem exists_sides_collected (f : Frame) (limit? : Option Nat) :
    ∃ first last, f.collected limit? = first ++ f.body ++ last := by
  cases limit? with
  | none => exact ⟨"collect(", ")", rfl⟩
  | some limit =>
      refine ⟨"collect(", ")[.." ++ toString limit ++ "]", ?_⟩
      simp only [Frame.collected, String.append_assoc]

/-- However an inner frame is closed, its entries are written. -/
theorem exists_sides_closed (f : Frame) :
    ∃ first last, f.closed = first ++ f.body ++ last := by
  have plain : f.body ++ " AS " ++ f.carryOver = "" ++ f.body ++ (" AS " ++ f.carryOver) := by
    rw [String.empty_append, String.append_assoc]
  unfold Frame.closed
  split
  · rename_i limit? closing
    obtain ⟨first, last, collected⟩ := exists_sides_collected f limit?
    exact ⟨first, last ++ " AS " ++ f.carryOver, by
      rw [collected]; simp only [String.append_assoc]⟩
  · exact ⟨_, _, plain⟩
  · exact ⟨_, _, plain⟩

/-- However the outermost frame is closed, its entries are written. -/
theorem exists_sides_returned (f : Frame) :
    ∃ first last, f.returned = first ++ f.body ++ last := by
  unfold Frame.returned
  split
  · exact exists_sides_collected f _
  · exact ⟨"", " LIMIT 1", by rw [String.empty_append]⟩
  · exact ⟨"", "", by rw [String.empty_append, String.append_empty]⟩

/-- Each frame has a line with its entries. -/
theorem exists_line {f : Frame} (mem : f ∈ b.frames) :
    ∃ line ∈ b.lines, ∃ first last, line = first ++ f.body ++ last := by
  obtain ⟨place, found⟩ := List.mem_iff_getElem?.1 mem
  cases place with
  | zero =>
      obtain ⟨first, last, returned⟩ := exists_sides_returned f
      refine ⟨"RETURN " ++ f.returned, ?_, "RETURN " ++ first, last, ?_⟩
      · rw [Builder.lines, Builder.returnLines, List.head?_eq_getElem?, found]
        exact List.mem_append_right _ List.mem_cons_self
      · rw [returned]
        simp only [String.append_assoc]
  | succ place =>
      obtain ⟨first, last, closed⟩ := exists_sides_closed f
      let kept := "WITH " ++ ", ".intercalate (b.kept (place + 1)) ++ ", "
      refine ⟨b.withLine (place + 1) f, ?_, kept ++ first, last, ?_⟩
      · have inner : (f, place + 1) ∈ b.frames.zipIdx.drop 1 := by
          refine List.mem_iff_getElem?.2 ⟨place, ?_⟩
          rw [List.getElem?_drop, Nat.add_comm 1, List.getElem?_zipIdx, found]
          simp
        rw [Builder.lines]
        refine List.mem_append_left _ (List.mem_append_right _ ?_)
        exact List.mem_reverse.2 (List.mem_map.2 ⟨_, inner, rfl⟩)
      · rw [Builder.withLine, closed]
        simp only [kept, String.append_assoc]

/-- The entries of a frame are in the statement. -/
theorem exists_sides_body {f : Frame} (mem : f ∈ b.frames) :
    ∃ first last, b.text = first ++ f.body ++ last := by
  obtain ⟨line, among, front, back, entries⟩ := exists_line mem
  obtain ⟨first, last, whole⟩ := exists_sides_line among
  refine ⟨first ++ front, back ++ last, ?_⟩
  rw [whole, entries]
  simp only [String.append_assoc]

/-- An entry of a frame is in the statement. -/
theorem exists_sides_entry {f : Frame} (mem : f ∈ b.frames) {entry : String × Expression}
    (among : entry ∈ f.entries) :
    ∃ first last, b.text = first ++ Frame.entryText entry ++ last := by
  obtain ⟨first, last, whole⟩ := exists_sides_body mem
  obtain ⟨front, back, body, -⟩ := exists_sides_of_mem ", " (List.mem_map_of_mem among)
  refine ⟨first ++ ("\x7b" ++ front), back ++ "\x7d" ++ last, ?_⟩
  rw [whole, Frame.body, inBraces, body]
  simp only [String.append_assoc]

/-- Where the returned expression of an override is in the text: behind the key of its field, or
between the variables that are kept and a name. -/
inductive Stands (path key expression text : String) : Prop where
  | entry (front back : String)
      (whole : text = front ++ (key ++ ": " ++ expression) ++ back)
  | aggregate (front back : String) (scope : List String)
      (whole : text = front ++ ("WITH " ++ ", ".intercalate scope ++ ", " ++ expression ++ " AS "
        ++ (path ++ "_" ++ key)) ++ back)

theorem TakesOver.stands {path key : String} {tail : Inlined}
    (takes : TakesOver b path key tail) : Stands path key tail.text b.text := by
  cases takes with
  | entry plain shown =>
      obtain ⟨f, mem, -, among⟩ := shown
      obtain ⟨first, last, whole⟩ := exists_sides_entry mem among
      exact .entry first last whole
  | aggregate calls scope clause shown =>
      have line : (Clause.aggregate scope tail (path ++ "_" ++ key)).text ∈ b.lines := by
        rw [Builder.lines, List.append_assoc]
        exact List.mem_append_left _ (List.mem_map_of_mem clause)
      obtain ⟨first, last, whole⟩ := exists_sides_line line
      exact .aggregate first last scope whole

end Text

/-! ## What a statement takes over -/

/-- The variable of a root field has an underscore. -/
theorem underscore_mem_path {index : Index} {name : String} {root : Root}
    (looked : index.root name = .ok root) : '_' ∈ root.path.toList := by
  obtain ⟨kind, t, f, -, -, made⟩ := Index.root_eq_ok looked
  obtain ⟨d, label, -, -, rfl⟩ := Index.rootOf_eq_ok made
  simp

/-- A scalar override is rejected if its fragment cannot be read or has no `RETURN` to split at,
and for no other reason. -/
theorem projectScalarOverride_eq_error_iff {config : Config} {text path : String} {f : Field}
    {frame : Nat} {b : Builder} {e : CompileError} :
    projectScalarOverride config text f path frame b = .error e
      ↔ fragmentFor f text = .error e
        ∨ ∃ fragment, fragmentFor f text = .ok fragment ∧ fragment.splitReturn = none
          ∧ e = .invalidFragment f.name .noReturn := by
  unfold projectScalarOverride
  cases read : fragmentFor f text with
  | error fault => simp [bind, Except.bind]
  | ok fragment =>
      cases split : fragment.splitReturn with
      | none => simp [splitFor, split, bind, Except.bind, eq_comm]
      | some parts => simp [splitFor, split, bind, Except.bind, pure, Except.pure]

section Planned

variable {ctx : Context} {root : Root} {field : Field} {b : Builder}

/-- What scalar overrides contribute in inline mode. Nothing is asked of what a fragment returns
but that it returns something. It is taken over into an entry of the frame of its object or into
a clause that aggregates it, and what breaks an expression there, outside of all brackets, are
exactly the commas and words that do so in the fragment and are not variables that it binds. -/
theorem planRoot_takesOver (inline : ctx.config.subqueryCalls = false)
    (looked : ctx.index.root field.name = .ok root) {limit? : Option Nat}
    (planned : Compiler.planRoot ctx { root with limit? := limit? } field
      = .ok (.projecting b)) :
    (∀ text f path frame start e,
        projectScalarOverride ctx.config text f path frame start = .error e
          ↔ fragmentFor f text = .error e
            ∨ ∃ fragment, fragmentFor f text = .ok fragment ∧ fragment.splitReturn = none
              ∧ e = .invalidFragment f.name .noReturn)
      ∧ ∀ owner place f d text,
          Projected ctx owner place f root.returnType root.path field.selections →
          IsScalarField ctx owner f d → d.mapping = .overridden text →
            ∃ fragment parts, fragmentFor f text = .ok fragment ∧ splitFor f fragment = .ok parts
              ∧ let tail := returnedTail place f fragment parts.2
                TakesOver b place f.responseKey tail
                  ∧ Stands place f.responseKey tail.text b.text
                  ∧ tail.renamed.breaks
                    = (parts.2.outside.filter fun p =>
                        p.token.breaksExpression
                          && !p.standsFor fragment.boundVariables).map (·.token) := by
  refine ⟨fun text f path frame start e => projectScalarOverride_eq_error_iff,
    fun owner place f d text below scalar mapped => ?_⟩
  obtain ⟨p, yields⟩ := planRoot_yields planned
  obtain ⟨fragment, parts, read, split, takes⟩ :=
    below.takesOver inline scalar mapped yields.resolved
  have path : p.path = root.path := yields.path
  have opened := Builder.carryOver?_openFrame_length p.start p.path p.closing
  rw [yields.unframed.frames] at opened
  have final : TakesOver (p.final ctx.config) place f.responseKey
      (returnedTail place f fragment parts.2) := by
    have taken := takes 0 [] _ (opened.trans (congrArg some path))
    rwa [← path] at taken
  have taken : TakesOver b place f.responseKey (returnedTail place f fragment parts.2) := by
    rcases yields.builder with rfl | rfl
    · exact final
    · exact final.fill (.insertClause _ _ _)
  refine ⟨fragment, parts, read, split, taken, taken.stands, ?_⟩
  exact breaks_renamed (below.path_subset (underscore_mem_path looked)) parts.2

end Planned

/-- Persons with overrides that return an expression under a name, one with an order and two
expressions. -/
def tailsIndex : Index := ⟨⟨[
  ⟨"Person", .object, [], [
    ⟨"name", ⟨"String", false, false⟩, [], []⟩,
    ⟨"degree", ⟨"Int", false, false⟩, [],
      [⟨"cypher", [("statement", .string "MATCH (this)--(f) RETURN count(f) AS n")]⟩]⟩,
    ⟨"oldest", ⟨"String", false, false⟩, [],
      [⟨"cypher", [("statement", .string "MATCH (this)--(f) RETURN f.name ORDER BY f.age")]⟩]⟩,
    ⟨"both", ⟨"String", false, false⟩, [],
      [⟨"cypher", [("statement", .string "MATCH (this)--(f) RETURN f.name, f.age")]⟩]⟩]⟩,
  ⟨"Query", .object, [], [⟨"person", ⟨"Person", false, false⟩, [], []⟩]⟩]⟩⟩

/-- Selects one of them. -/
def tailField (name : String) : Field :=
  ⟨none, "person", [], [.field none name [] []]⟩

theorem planRoot_takesOver_degree :
    ∃ root b, tailsIndex.root "person" = .ok root
      ∧ Compiler.planRoot ⟨tailsIndex, {}, []⟩ { root with limit? := none } (tailField "degree")
          = .ok (.projecting b)
      ∧ ∃ tail : Inlined, Stands "person_Person" "degree" tail.text b.text
        ∧ tail.renamed.breaks.map (·.text) = ["AS"] := by
  have shape : ((tailsIndex.root "person").toOption.any fun root =>
      (projected? (Compiler.planRoot ⟨tailsIndex, {}, []⟩ { root with limit? := none }
        (tailField "degree"))).any (fun _ => true)
      && (root.returnType == "Person" && root.path == "person_Person")) = true := by
    decide +kernel
  obtain ⟨root, looked, facts⟩ := exists_ok_of_any shape
  simp only [Bool.and_eq_true, beq_iff_eq] at facts
  obtain ⟨projects, type, path⟩ := facts
  obtain ⟨b, planned, -⟩ := exists_projecting projects
  let f : Field := ⟨none, "degree", [], []⟩
  have selected : collectFields "Person" [] (tailField "degree").selections = .ok [f] :=
    collectFields_field none "degree" [] _
  obtain ⟨d, found, scalar⟩ : ∃ d, tailsIndex.field "Person" "degree" = .ok d
      ∧ (!d.isObject && d.mapping == .overridden "MATCH (this)--(f) RETURN count(f) AS n") = true :=
    exists_ok_of_any (by decide +kernel)
  rw [Bool.and_eq_true, Bool.not_eq_true', beq_iff_eq] at scalar
  have below : Projected ⟨tailsIndex, {}, []⟩ "Person" "person_Person" f root.returnType root.path
      (tailField "degree").selections := by
    rw [type, path]
    exact .here selected (by simp [groupFields])
  obtain ⟨-, taken⟩ := @planRoot_takesOver ⟨tailsIndex, {}, []⟩ root (tailField "degree") b rfl
    looked none planned
  obtain ⟨fragment, parts, read, split, -, stands, breaks⟩ :=
    taken "Person" "person_Person" f d _ below ⟨by decide, found, scalar.1⟩ scalar.2
  have name : ((fragmentFor f "MATCH (this)--(f) RETURN count(f) AS n").toOption.any
      fun fragment => (splitFor f fragment).toOption.any fun parts =>
        ((parts.2.outside.filter fun p => p.token.breaksExpression
          && !p.standsFor fragment.boundVariables).map (·.token)).map (·.text) == ["AS"])
        = true := by
    decide +kernel
  rw [read] at name
  simp only [Except.toOption, Option.any_some, split, beq_iff_eq] at name
  exact ⟨root, b, looked, planned, _, stands, by rw [breaks, name]⟩

/-- An operation with the statement that it compiles to, cut around a returned expression. -/
structure TailSample where
  source : String
  front : String
  tail : String
  behind : String

/-- The operation compiles to its statement, and something in the returned expression breaks it. -/
def TailSample.CompilesBroken (sample : TailSample) : Prop :=
  (∃ compiled, Compiler.compile ⟨tailsIndex, {}⟩ sample.source [] none = .ok compiled
      ∧ compiled.text = sample.front ++ sample.tail ++ sample.behind)
    ∧ ∃ tail, Fragment.ofText sample.tail = .ok tail ∧ tail.breaks ≠ []

theorem compilesBroken_of_shape {sample : TailSample}
    (shape : ((Compiler.compile ⟨tailsIndex, {}⟩ sample.source [] none).toOption.any
        (fun compiled => compiled.text == sample.front ++ sample.tail ++ sample.behind)
      && (Fragment.ofText sample.tail).toOption.any fun tail => !tail.breaks.isEmpty) = true) :
    sample.CompilesBroken := by
  rw [Bool.and_eq_true] at shape
  obtain ⟨compiled, done, text⟩ := exists_ok_of_any shape.1
  obtain ⟨tail, read, breaks⟩ := exists_ok_of_any shape.2
  refine ⟨⟨compiled, done, beq_iff_eq.1 text⟩, tail, read, fun none => ?_⟩
  rw [none] at breaks
  cases breaks

/-- An aggregate with a name of its own. -/
def namedTail : TailSample :=
  ⟨"\x7bperson \x7bdegree\x7d\x7d",
    "MATCH (person_Person:`Person`)\nOPTIONAL MATCH (person_Person)--(person_Person_degree_f)"
      ++ "\nWITH person_Person, ",
    "count(person_Person_degree_f) AS person_Person_degree_n",
    " AS person_Person_degree\nRETURN \x7bdegree: person_Person_degree\x7d LIMIT 1"⟩

/-- An expression that is followed by an order. -/
def orderedTail : TailSample :=
  ⟨"\x7bperson \x7boldest\x7d\x7d",
    "MATCH (person_Person:`Person`)\nOPTIONAL MATCH (person_Person)--(person_Person_oldest_f)"
      ++ "\nRETURN \x7boldest: ",
    "person_Person_oldest_f.name ORDER BY person_Person_oldest_f.age", "\x7d LIMIT 1"⟩

/-- Two expressions. -/
def pairedTail : TailSample :=
  ⟨"\x7bperson \x7bboth\x7d\x7d",
    "MATCH (person_Person:`Person`)\nOPTIONAL MATCH (person_Person)--(person_Person_both_f)"
      ++ "\nRETURN \x7bboth: ",
    "person_Person_both_f.name, person_Person_both_f.age", "\x7d LIMIT 1"⟩

/-- Scalar overrides that return no single expression without a name compile in inline mode. -/
theorem broken_tails_compile :
    namedTail.CompilesBroken ∧ orderedTail.CompilesBroken ∧ pairedTail.CompilesBroken :=
  ⟨compilesBroken_of_shape (by decide +kernel), compilesBroken_of_shape (by decide +kernel),
    compilesBroken_of_shape (by decide +kernel)⟩

end GraphBridge.Compile
