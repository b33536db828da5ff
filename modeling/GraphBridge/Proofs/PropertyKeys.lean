import GraphBridge.Proofs.Anchoring
import GraphBridge.Proofs.Literals
import GraphBridge.Proofs.Respelling
import GraphBridge.Proofs.Storing

/-!
# Keys of property maps

A pattern that finds or creates something may have a property map. The keys are the stored names of
arguments and of input fields, or the keys of a supplied object where nothing is declared, and they
are written as they are, while assignments and projections put them in back quotes. So the scanner
takes a key as one identifier if and only if it already is one, bare or in back quotes; any other
key falls apart. Which keys are written is told by the schema and the operation alone.
-/

namespace GraphBridge.Query

open Text

/-! ## Keys that are identifiers -/

/-- A text that is one identifier, bare or in back quotes. -/
def IsKey (text : String) : Prop :=
  isIdentifier text = true ∨ ∃ inner, '`' ∉ inner ∧ text.toList = '`' :: (inner ++ ['`'])

theorem not_isKey {text : String} (other : isIdentifier text = false)
    (bare : text.toList.head? ≠ some '`') : ¬ IsKey text := by
  rintro (identifier | ⟨inner, -, shape⟩)
  · exact absurd identifier (by rw [other]; decide)
  · exact bare (by rw [shape]; rfl)

/-- The scanner takes a text in front of another one as one identifier, bare or in back quotes. -/
def TakesAsKey (text rest : List Char) : Prop :=
  ∃ c taken kind, text = c :: taken ∧ (kind = .identifier ∨ kind = .quotedIdentifier)
    ∧ munch c (taken ++ rest) = some (kind, taken, rest)

/-- What is between back quotes has none in it. -/
theorem exists_inner_of_scanQuoted {input taken rest : List Char}
    (scanned : scanQuoted '`' input = some (taken, rest)) :
    ∃ inner, '`' ∉ inner ∧ taken = inner ++ ['`'] := by
  refine scanQuoted_induction (motive := fun taken =>
    ∃ inner, '`' ∉ inner ∧ taken = inner ++ ['`']) ?_ ?_ ?_ scanned
  · exact fun _ => ⟨[], List.not_mem_nil, rfl⟩
  · exact fun _ _ escapes => absurd rfl escapes
  · rintro c _ inside - ⟨inner, free, rfl⟩
    refine ⟨c :: inner, ?_, rfl⟩
    rw [List.mem_cons, not_or]
    exact ⟨Ne.symm inside, free⟩

/-- What the scanner takes as a quoted identifier. -/
theorem exists_inner_of_munch {c : Char} {input taken rest : List Char}
    (scanned : munch c input = some (.quotedIdentifier, taken, rest)) :
    c = '`' ∧ ∃ inner, '`' ∉ inner ∧ taken = inner ++ ['`'] := by
  unfold munch at scanned
  split at scanned
  · cases scanned
  split at scanned
  · cases scanned
  split at scanned
  · obtain ⟨_, -, same⟩ := Option.map_eq_some_iff.1 scanned
    cases same
  split at scanned
  · rename_i quote
    obtain ⟨⟨more, left⟩, found, same⟩ := Option.map_eq_some_iff.1 scanned
    cases same
    rw [beq_iff_eq] at quote
    subst quote
    exact ⟨rfl, exists_inner_of_scanQuoted found⟩
  split at scanned
  · cases scanned
  split at scanned
  · cases scanned
  split at scanned
  · cases scanned
  · cases scanned

/-- The scanner takes a text as an identifier if it is one and what is behind does not go on with
it. -/
theorem takesAsKey_iff {text : String} {rest : List Char}
    (ends : startsWith isIdentifierPart rest = false) :
    TakesAsKey text.toList rest ↔ IsKey text := by
  constructor
  · rintro ⟨c, taken, kind, shape, rfl | rfl, scanned⟩
    · refine .inl ?_
      rw [isIdentifier, shape, spellsIdentifier, (identifier_of_munch scanned).1,
        parts_of_munch scanned]
      rfl
    · obtain ⟨rfl, inner, free, rfl⟩ := exists_inner_of_munch scanned
      exact .inr ⟨inner, free, shape⟩
  · rintro (identifier | ⟨inner, free, shape⟩)
    · obtain ⟨c, taken, shape, start, parts⟩ := exists_cons_of_isIdentifier identifier
      exact ⟨c, taken, .identifier, shape, .inl rfl, munch_word start parts ends⟩
    · refine ⟨'`', inner ++ ['`'], .quotedIdentifier, shape, .inr rfl, ?_⟩
      rw [List.append_assoc]
      exact munch_backQuoted free rest

/-- The tokens begin with an identifier, bare or in back quotes, that is spelled like a key, and the
next one is a colon. -/
def BeginWithKey (key : String) (tokens : List Token) : Prop :=
  ∃ t colon more, tokens = t :: colon :: more
    ∧ (t.kind = .identifier ∨ t.kind = .quotedIdentifier) ∧ t.text = key
    ∧ colon.kind = .symbol ':'

/-- Where a token ends in front of a key and its colon, the key is a token if and only if it is an
identifier. -/
theorem beginWithKey_iff {key : String} {behind : List Char} {tokens : List Token}
    (munched : Munched tokens) (spelled : spelling tokens = key.toList ++ ':' :: behind) :
    BeginWithKey key tokens ↔ IsKey key := by
  have ends : startsWith isIdentifierPart (':' :: behind) = false := (Ends.mark (by decide) _).word
  constructor
  · rintro ⟨t, colon, more, rfl, kind, rfl, -⟩
    cases munched with
    | @cons _ _ c taken text scanned later =>
        rw [spelling_cons text, text, List.cons_append, List.cons.injEq] at spelled
        have rest := List.append_cancel_left spelled.2
        rw [rest] at scanned
        exact (takesAsKey_iff ends).1 ⟨c, taken, t.kind, text, kind, scanned⟩
  · intro isKey
    obtain ⟨c, taken, kind, shape, known, scanned⟩ := (takesAsKey_iff ends).2 isKey
    rw [shape] at spelled
    cases munched with
    | nil => cases spelled
    | @cons t rest d took text first later =>
        rw [spelling_cons text, List.cons_append, List.cons.injEq] at spelled
        obtain ⟨rfl, input⟩ := spelled
        rw [input, scanned] at first
        simp only [Option.some.injEq, Prod.mk.injEq] at first
        obtain ⟨same, rfl, left⟩ := first
        have own : t.text = key := String.toList_injective (text.trans shape.symm)
        cases later with
        | nil => cases left
        | @cons colon more e took' text' second later' =>
            rw [spelling_cons text', List.cons.injEq] at left
            obtain ⟨rfl, -⟩ := left
            rw [munch_mark (.inl (by decide)), Option.some_inj, Prod.mk.injEq] at second
            exact ⟨t, colon, more, rfl, same ▸ known, own, second.1.symm⟩

end GraphBridge.Query

namespace GraphBridge.Statement

open Query

/-! ## Entries of property maps -/

/-- The properties that a clause writes into a pattern. -/
def Clause.inline : Clause → List Reference
  | .find node | .reach _ _ node => node.filter.properties
  | .createNode _ _ properties | .createEdge _ _ properties => properties
  | _ => []

/-- The values whose properties clauses write into patterns. -/
def inlinedBy (clauses : List Clause) : List Supplied :=
  (clauses.flatMap Clause.inline).map (·.supplied)

theorem mem_inlinedBy {clauses : List Clause} {s : Supplied} :
    s ∈ inlinedBy clauses ↔ ∃ clause ∈ clauses, ∃ r ∈ clause.inline, r.supplied = s := by
  simp only [inlinedBy, List.mem_map, List.mem_flatMap]
  constructor
  · rintro ⟨r, ⟨clause, mem, own⟩, same⟩
    exact ⟨clause, mem, r, own, same⟩
  · rintro ⟨clause, mem, r, own, same⟩
    exact ⟨r, ⟨clause, mem, own⟩, same⟩

@[simp] theorem inlinedBy_append (clauses more : List Clause) :
    inlinedBy (clauses ++ more) = inlinedBy clauses ++ inlinedBy more := by
  simp [inlinedBy]

/-- A text has the entry of a property at a place, behind the opening brace or a comma and in front
of the closing brace or a comma. -/
structure HasEntry (r : Reference) (text front behind : String) : Prop where
  whole : text = front ++ r.entryText ++ behind
  before : ∃ start, front = start ++ "\x7b" ∨ front = start ++ ", "
  after : ∃ rest, behind = "\x7d" ++ rest ∨ behind = ", " ++ rest

/-- An entry of a part is an entry of the whole. -/
theorem HasEntry.extend {r : Reference} {text front behind : String}
    (has : HasEntry r text front behind) (first last : String) :
    HasEntry r (first ++ text ++ last) (first ++ front) (behind ++ last) where
  whole := by rw [has.whole]; simp only [String.append_assoc]
  before := by
    obtain ⟨start, rfl | rfl⟩ := has.before
    · exact ⟨first ++ start, .inl (by rw [String.append_assoc])⟩
    · exact ⟨first ++ start, .inr (by rw [String.append_assoc])⟩
  after := by
    obtain ⟨rest, rfl | rfl⟩ := has.after
    · exact ⟨rest ++ last, .inl (by rw [String.append_assoc])⟩
    · exact ⟨rest ++ last, .inr (by rw [String.append_assoc])⟩

/-- Where a part stands among parts with separators between them. -/
theorem exists_sides_of_mem (separator : String) {parts : List String} {part : String}
    (mem : part ∈ parts) :
    ∃ first last, separator.intercalate parts = first ++ part ++ last
      ∧ (first = "" ∨ ∃ start, first = start ++ separator)
      ∧ (last = "" ∨ ∃ rest, last = separator ++ rest) := by
  induction parts with
  | nil => cases mem
  | cons head parts ih =>
      cases parts with
      | nil =>
          cases List.mem_singleton.1 mem
          exact ⟨"", "", by simp, .inl rfl, .inl rfl⟩
      | cons next parts =>
          rw [String.intercalate_cons_cons]
          rcases List.mem_cons.1 mem with rfl | mem
          · exact ⟨"", separator ++ separator.intercalate (next :: parts),
              by simp [String.append_assoc], .inl rfl, .inr ⟨_, rfl⟩⟩
          · obtain ⟨first, last, whole, before, after⟩ := ih mem
            refine ⟨head ++ separator ++ first, last, ?_, .inr ?_, after⟩
            · rw [whole]
              simp only [String.append_assoc]
            · obtain rfl | ⟨start, rfl⟩ := before
              · exact ⟨head, by simp⟩
              · exact ⟨head ++ separator ++ start, by simp only [String.append_assoc]⟩

/-- A property map has an entry for each of its properties. -/
theorem Reference.exists_entry {properties : List Reference} {r : Reference}
    (mem : r ∈ properties) :
    ∃ front behind, HasEntry r (propertyMap properties) front behind := by
  obtain ⟨first, last, whole, before, after⟩ :=
    exists_sides_of_mem ", " (List.mem_map_of_mem mem)
  have some : properties.isEmpty = false := List.isEmpty_eq_false_iff.2 (List.ne_nil_of_mem mem)
  refine ⟨"\x7b" ++ first, last ++ "\x7d", ?_, ?_, ?_⟩
  · rw [propertyMap, some, whole]
    simp only [Bool.false_eq_true, if_false, inBraces, String.append_assoc]
  · obtain rfl | ⟨start, rfl⟩ := before
    · exact ⟨"", .inl (by simp)⟩
    · exact ⟨"\x7b" ++ start, .inr (by simp only [String.append_assoc])⟩
  · obtain rfl | ⟨rest, rfl⟩ := after
    · exact ⟨"", .inl (by simp)⟩
    · exact ⟨rest ++ "\x7d", .inr (by simp only [String.append_assoc])⟩

/-- Where the property map of a clause stands. -/
theorem Clause.exists_sides {clause : Clause} (some : clause.inline ≠ []) :
    ∃ first last, clause.text = first ++ Reference.propertyMap clause.inline ++ last := by
  cases clause with
  | find node =>
      refine ⟨"MATCH " ++ ("(" ++ node.name ++ ":`" ++ node.label ++ "`"),
        ")" ++ node.identityText, ?_⟩
      change "MATCH " ++ node.text ++ node.identityText
        = _ ++ Reference.propertyMap node.filter.properties ++ _
      simp only [NodePattern.text, Filter.propertyText, String.append_assoc]
  | reach parent edge node =>
      refine ⟨"OPTIONAL MATCH (" ++ parent ++ ")" ++ edge.text
        ++ ("(" ++ node.name ++ ":`" ++ node.label ++ "`"), ")" ++ node.identityText, ?_⟩
      change "OPTIONAL MATCH (" ++ parent ++ ")" ++ edge.text ++ node.text ++ node.identityText
        = _ ++ Reference.propertyMap node.filter.properties ++ _
      simp only [NodePattern.text, Filter.propertyText, String.append_assoc]
  | createNode name label properties =>
      have given : properties.isEmpty = false := List.isEmpty_eq_false_iff.2 some
      refine ⟨"CREATE (" ++ name ++ ":`" ++ label ++ "`" ++ " ", ")", ?_⟩
      change "CREATE (" ++ name ++ ":`" ++ label ++ "`"
          ++ (if properties.isEmpty then "" else " " ++ Reference.propertyMap properties) ++ ")"
        = _ ++ Reference.propertyMap properties ++ _
      simp only [given, Bool.false_eq_true, if_false, String.append_assoc]
  | createEdge name label properties =>
      exact ⟨"CREATE (" ++ name ++ "_from)-[" ++ name ++ ":`" ++ label ++ "`",
        "]->(" ++ name ++ "_to)", by
          change "CREATE (" ++ name ++ "_from)-[" ++ name ++ ":`" ++ label ++ "`"
            ++ Reference.propertyMap properties ++ "]->(" ++ name ++ "_to)"
              = _ ++ Reference.propertyMap properties ++ _
          simp only [String.append_assoc]⟩
  | _ => exact absurd rfl some

/-- A clause has an entry for each property that it writes into a pattern. -/
theorem Clause.exists_entry {clause : Clause} {r : Reference} (mem : r ∈ clause.inline) :
    ∃ front behind, HasEntry r clause.text front behind := by
  obtain ⟨front, behind, has⟩ := Reference.exists_entry mem
  obtain ⟨first, last, whole⟩ := Clause.exists_sides (List.ne_nil_of_mem mem)
  exact ⟨first ++ front, behind ++ last, whole ▸ has.extend first last⟩

/-- How the scanner takes the key of an entry, from where it begins and among the tokens of the
whole text. -/
theorem HasEntry.key_iff {r : Reference} {text front behind : String}
    (has : HasEntry r text front behind) :
    (TakesAsKey r.supplied.property.toList (": " ++ r.text ++ behind).toList
        ↔ IsKey r.supplied.property)
      ∧ ∀ before after, tokenize text = .ok (before ++ after) →
          spelling before = front.toList →
            (BeginWithKey r.supplied.property after ↔ IsKey r.supplied.property) := by
  have colon : (": " ++ r.text ++ behind).toList = ':' :: (" " ++ r.text ++ behind).toList := by
    simp
  refine ⟨takesAsKey_iff ?_, fun before after lexed cut => ?_⟩
  · rw [colon]
    exact (Ends.mark (by decide) _).word
  · have whole : spelling (before ++ after) = text.toList := (laid_of_tokensFrom lexed).2
    have split : spelling (before ++ after) = spelling before ++ spelling after :=
      List.flatMap_append
    rw [split, cut, has.whole, Reference.entryText] at whole
    simp only [String.toList_append, List.append_assoc, List.append_cancel_left_eq] at whole
    exact beginWithKey_iff (munched_of_append (munched_of_tokensFrom lexed)) whole

end GraphBridge.Statement

namespace GraphBridge.Compile

open Operation Query Schema Statement

/-! ## What a projection writes into patterns -/

/-- The values that the pattern of an object field has as properties. -/
def Reach.inlined : Reach → List Supplied
  | .relationship _ _ _ identity? supplied => supplied.filter fun s => !isIdentity identity? s
  | .override _ _ _ => []

mutual

/-- The values that the patterns of an entry have as properties. -/
def Entry.inlined : Entry → List Supplied
  | .scalar _ _ => []
  | .object _ reach _ entries => reach.inlined ++ inlinedOf entries

/-- The values that the patterns of entries have as properties. -/
def inlinedOf : List Entry → List Supplied
  | [] => []
  | e :: rest => e.inlined ++ inlinedOf rest

end

theorem mem_inlinedOf {entries : List Entry} {s : Supplied} :
    s ∈ inlinedOf entries ↔ ∃ e ∈ entries, s ∈ e.inlined := by
  induction entries with
  | nil => simp [inlinedOf]
  | cons e rest ih => simp [inlinedOf, ih]

/-- The properties of the pattern of a filter. -/
theorem properties_filterFor (b : Builder) (path : String) (identity? : Option String)
    (supplied : List Supplied) :
    (filterFor b path identity? supplied).1.properties.map (·.supplied)
      = supplied.filter fun s => !isIdentity identity? s := by
  change ((b.referAll path supplied).1.filter
    ((fun s => !isIdentity identity? s) ∘ (·.supplied))).map (·.supplied) = _
  rw [← List.filter_map, Builder.supplied_referAll]

/-- A clause with a filter writes the conditions on stored properties. -/
theorem inlinedBy_filterFor (b : Builder) {path : String} {identity? : Option String}
    {supplied : List Supplied} {clause : Clause}
    (own : clause.inline = (filterFor b path identity? supplied).1.properties) :
    inlinedBy ((filterFor b path identity? supplied).2.addClause clause).clauses
      = inlinedBy b.clauses ++ supplied.filter fun s => !isIdentity identity? s := by
  have front : (filterFor b path identity? supplied).2.clauses = b.clauses :=
    Builder.clauses_referAll b path supplied
  have added : inlinedBy [clause] = clause.inline.map (·.supplied) := by
    rw [inlinedBy, List.flatMap_singleton]
  rw [Builder.addClause, inlinedBy_append, front, added, own, properties_filterFor]

theorem inlinedBy_addClause (b : Builder) {clause : Clause} (none : clause.inline = []) :
    inlinedBy (b.addClause clause).clauses = inlinedBy b.clauses := by
  rw [Builder.addClause, inlinedBy_append]
  simp [inlinedBy, none]

theorem inlinedBy_addBody (b : Builder) (config : Config) (body : Inlined) :
    inlinedBy (addBody config b body).clauses = inlinedBy b.clauses := by
  unfold addBody
  split
  · rfl
  · exact inlinedBy_addClause b rfl

/-- A scalar field writes no property into a pattern. -/
theorem inlinedBy_scalar (b : Builder) (config : Config) (path key : String) (frame : Nat)
    (value : Scalar) :
    inlinedBy (value.emit config path key frame b).2.clauses = inlinedBy b.clauses := by
  cases value with
  | typeName | identity | property => rfl
  | override bound body tail =>
      unfold Scalar.emit inlineScalar
      dsimp only
      split
      · rw [clauses_keepFor]
        exact inlinedBy_addClause b rfl
      split
      · rw [clauses_keepFor]
        exact (inlinedBy_addClause _ rfl).trans (inlinedBy_addBody b config _)
      · rw [clauses_keepMentioned]
        exact inlinedBy_addBody b config _

theorem inlinedBy_reach (b : Builder) (config : Config) (parent child : String) (reach : Reach) :
    inlinedBy (reach.emit config parent child b).clauses
      = inlinedBy b.clauses ++ reach.inlined := by
  cases reach with
  | relationship edgeType direction label identity? supplied => exact inlinedBy_filterFor b rfl
  | override bound body returned =>
      change inlinedBy (b.clauses ++ [_]) = _
      rw [inlinedBy_append]
      rfl

section Emit

variable (config : Config)

mutual

/-- What an entry writes into patterns. -/
theorem inlinedBy_emitEntry (e : Entry) (path : String) (frame : Nat)
    (outer : List (Nat × String)) (b : Builder) :
    inlinedBy (emitEntry config path frame outer b e).clauses
      = inlinedBy b.clauses ++ e.inlined := by
  match e with
  | .scalar key value =>
      rw [Entry.inlined, List.append_nil]
      exact inlinedBy_scalar b config path key frame value
  | .object key reach closing entries =>
      rw [emitEntry_object, Entry.inlined, ← List.append_assoc]
      change inlinedBy (emit config _ _ _ entries _).clauses = _
      rw [inlinedBy_emit, Builder.clauses_openFrame, inlinedBy_reach]

/-- What entries write into patterns. -/
theorem inlinedBy_emit (entries : List Entry) (path : String) (frame : Nat)
    (outer : List (Nat × String)) (b : Builder) :
    inlinedBy (emit config path frame outer entries b).clauses
      = inlinedBy b.clauses ++ inlinedOf entries := by
  match entries with
  | [] => rw [emit_nil, inlinedOf, List.append_nil]
  | e :: rest =>
      rw [emit_cons, inlinedBy_emit rest, inlinedBy_emitEntry e, inlinedOf, List.append_assoc]

end

end Emit

/-- What the projection of a root field writes into patterns. -/
theorem inlinedBy_final (p : RootProjection) (config : Config) :
    inlinedBy (p.final config).clauses = inlinedBy p.start.clauses ++ inlinedOf p.entries := by
  have emitted :=
    inlinedBy_emit config p.entries p.path 0 [] (p.start.openFrame p.path p.closing)
  rwa [Builder.clauses_openFrame] at emitted

/-! ## What a selection writes into patterns -/

/-- A value that is supplied to a field reached by a relationship, as a condition on a stored
property of what is reached. -/
structure Conditions (ctx : Context) (d : FieldDescriptor) (f : Field) (s : Supplied) : Prop where
  reached : ∃ edgeType direction, d.mapping = .relationship edgeType direction
  given : ∃ supplied, suppliedByArguments ctx.index d.arguments f.arguments = .ok supplied
    ∧ s ∈ supplied
  property : isIdentity (ctx.index.identityField? d.graphType) s = false

/-- A value that some field below a selection has as a condition on a stored property. -/
def ConditionsBelow (ctx : Context) (typeName path : String) (selections : List Selection)
    (s : Supplied) : Prop :=
  ∃ owner place f d, Projected ctx owner place f typeName path selections
    ∧ IsObjectField ctx owner f d ∧ Conditions ctx d f s

section Resolved

variable {ctx : Context} {s : Supplied}

/-- What reaches an object by a relationship has the conditions of the field as properties. -/
theorem mem_inlined_resolveReach {d : FieldDescriptor} {f : Field} {reach : Reach}
    (found : resolveReach ctx d f = .ok reach) : s ∈ reach.inlined ↔ Conditions ctx d f s := by
  obtain ⟨edgeType, direction, label, supplied, mapped, -, given, rfl⟩ | ⟨text, fragment, parts,
    returned, mapped, -, -, -, rfl⟩ := resolveReach_cases found
  · simp only [Reach.inlined, List.mem_filter, Bool.not_eq_true']
    constructor
    · rintro ⟨mem, other⟩
      exact ⟨⟨edgeType, direction, mapped⟩, ⟨supplied, given, mem⟩, other⟩
    · rintro ⟨-, ⟨supplied', given', mem⟩, other⟩
      cases given.symm.trans given'
      exact ⟨mem, other⟩
  · refine iff_of_false List.not_mem_nil ?_
    rintro ⟨⟨edgeType, direction, mapped'⟩, -, -⟩
    cases mapped.symm.trans mapped'

/-- An object entry comes from a field that is projected as an object. -/
theorem isObjectField_of_resolveField {inner : Resolves} {typeName : String} {f : Field}
    {key : String} {reach : Reach} {closing : Closing} {entries : List Entry}
    (found : resolveField ctx inner typeName f = .ok (.object key reach closing entries)) :
    ∃ d, IsObjectField ctx typeName f d := by
  unfold resolveField at found
  split at found
  · cases found
  rename_i other
  obtain ⟨d, looked, found⟩ := mapError_bind_eq_ok found
  split at found
  · rename_i object
    exact ⟨d, fun same => other (beq_iff_eq.2 same), looked, object⟩
  · obtain ⟨value, -, made⟩ := mapError_bind_eq_ok found
    cases made

/-- What a resolved selection writes into patterns. -/
theorem mem_inlinedOf_resolve {levels : Nat} {typeName : String} (path : String)
    {selections : List Selection} {entries : List Entry}
    (resolved : resolve ctx levels typeName selections = .ok entries) :
    s ∈ inlinedOf entries ↔ ConditionsBelow ctx typeName path selections s := by
  constructor
  · intro mem
    induction levels generalizing typeName path selections entries with
    | zero => cases resolved
    | succ levels ih =>
        obtain ⟨fields, collected, looked⟩ := resolve_eq_ok resolved
        have each : ∀ e ∈ entries, s ∈ e.inlined →
            ConditionsBelow ctx typeName path selections s := by
          refine forall_mem_of_mapM (fun f among e found own => ?_) looked
          cases e with
          | scalar key value => cases own
          | object key reach closing inner =>
              obtain ⟨d, object⟩ := isObjectField_of_resolveField found
              obtain ⟨_, _, reached, selected, same⟩ := object.resolveField found
              cases same
              rcases List.mem_append.1 own with here | below
              · exact ⟨typeName, path, f, d, .here collected among, object,
                  (mem_inlined_resolveReach reached).1 here⟩
              · obtain ⟨owner, place, g, d', projected, isObject, conditions⟩ :=
                  ih (path ++ "_" ++ f.responseKey) selected below
                exact ⟨owner, place, g, d', .inner collected among object projected, isObject,
                  conditions⟩
        obtain ⟨e, among, own⟩ := mem_inlinedOf.1 mem
        exact each e among own
  · rintro ⟨owner, place, f, d, below, object, conditions⟩
    induction below generalizing levels entries with
    | here collected mem =>
        obtain ⟨deeper, reach, inner, reached, -, among⟩ :=
          object.exists_entry collected mem resolved
        refine mem_inlinedOf.2 ⟨_, among, ?_⟩
        exact List.mem_append_left _ ((mem_inlined_resolveReach reached).2 conditions)
    | inner collected mem outside _ ih =>
        obtain ⟨deeper, reach, inner, -, selected, among⟩ :=
          outside.exists_entry collected mem resolved
        exact mem_inlinedOf.2 ⟨_, among, List.mem_append_right _ (ih selected)⟩

end Resolved

/-! ## What a statement writes into patterns -/

/-- Whether the selection of a root field is projected: it is not where something is deleted, nor
where there is no object to select from. -/
def projectsSelection (root : Root) : Bool :=
  root.returnsObject && !(root.kind == .mutation && (MutationName.classify root.name).any fun m =>
    m.shape == .deleteNode || m.shape == .deleteEdge)

/-- The values whose properties a root field without an override writes into patterns: the
conditions on what it reads, the input of what it creates, and the conditions on what is reached
from there. -/
inductive WritesProperty (ctx : Context) (root : Root) (field : Field) (s : Supplied) : Prop where
  | read {supplied : List Supplied} (query : root.kind = .query)
      (given : suppliedByArguments ctx.index root.arguments field.arguments = .ok supplied)
      (mem : s ∈ supplied)
      (property : isIdentity (ctx.index.identityField? root.returnType) s = false)
  | created {shape : MutationShape} {typeName : String} {g : Given}
      (mutation : root.kind = .mutation)
      (named : MutationName.classify root.name = some ⟨shape, typeName⟩)
      (creates : shape = .createNode ∨ shape = .connectEdge)
      (given : Given.ofField ctx.index root field = .ok g) (mem : s ∈ g.input)
      (property : s.isId = false)
  | reached (projects : projectsSelection root = true)
      (below : ConditionsBelow ctx root.returnType root.path field.selections s)

/-- Clauses of a plan whose patterns have some values as properties. -/
def Plan.WritesInline (plan : Plan) (writes : Supplied → Prop) : Prop :=
  ∃ clauses, plan.HasClauses clauses ∧ ∀ s, s ∈ inlinedBy clauses ↔ writes s

theorem Plan.WritesInline.congr {plan : Plan} {writes others : Supplied → Prop}
    (has : plan.WritesInline writes) (same : ∀ s, writes s ↔ others s) :
    plan.WritesInline others := by
  obtain ⟨clauses, shape, iff⟩ := has
  exact ⟨clauses, shape, fun s => (iff s).trans (same s)⟩

section Planned

variable {ctx : Context} {root : Root} {field : Field} {b : Builder} {plan : Plan}

theorem inlinedBy_limitRows (b : Builder) (root : Root) :
    inlinedBy (limitRows b root).clauses = inlinedBy b.clauses := by
  unfold limitRows
  split
  · exact inlinedBy_addClause b rfl
  · rfl

theorem inlinedBy_insertClause (b : Builder) (place : Nat) (name : String) :
    inlinedBy (b.insertClause place (.keep name)).clauses = inlinedBy b.clauses := by
  have kept : inlinedBy [.keep name] = [] := rfl
  rw [Builder.insertClause, ← List.singleton_append, inlinedBy_append, inlinedBy_append, kept,
    List.nil_append, ← inlinedBy_append, List.take_append_drop]

/-- What is projected behind the clauses of a read. -/
theorem projectRoot_writesInline (unframed : Unframed b)
    (planned : projectRoot ctx root field b = .ok plan) :
    plan.WritesInline fun s => s ∈ inlinedBy b.clauses
      ∨ ConditionsBelow ctx root.returnType root.path field.selections s := by
  rw [projectRoot_eq unframed] at planned
  obtain ⟨entries, resolved, rfl⟩ := map_eq_ok_iff.1 planned
  refine ⟨_, rfl, fun s => ?_⟩
  rw [inlinedBy_final, inlinedBy_limitRows, List.mem_append, mem_inlinedOf_resolve _ resolved]

/-- A selection of nothing comes to no field. -/
theorem not_conditionsBelow_nil {typeName path : String} {s : Supplied} :
    ¬ ConditionsBelow ctx typeName path [] s := by
  have none {owner place : String} {f : Field} :
      ¬ Projected ctx owner place f typeName path [] := by
    intro below
    cases below with
    | here collected mem | inner collected mem =>
        rw [collectFields_nil] at collected
        cases collected
        exact absurd mem (by simp [groupFields])
  rintro ⟨owner, place, f, d, below, -, -⟩
  exact none below

/-- What is projected behind the clauses of a write. -/
theorem projectWritten_writesInline (unframed : Unframed b)
    (planned : projectWritten ctx root field b = .ok plan) :
    plan.WritesInline fun s => s ∈ inlinedBy b.clauses
      ∨ root.returnsObject = true
        ∧ ConditionsBelow ctx root.returnType root.path field.selections s := by
  unfold projectWritten at planned
  dsimp only at planned
  split at planned
  · rename_i unselected
    cases planned
    refine ⟨_, rfl, fun s => ⟨.inl, fun writes => writes.resolve_right ?_⟩⟩
    rintro ⟨object, below⟩
    rw [object, Bool.not_true, Bool.or_false, List.isEmpty_iff] at unselected
    rw [unselected] at below
    exact not_conditionsBelow_nil below
  · rename_i selected
    rw [Bool.not_eq_true, Bool.or_eq_false_iff, Bool.not_eq_false'] at selected
    rw [projectSelection_root unframed] at planned
    obtain ⟨built, projected, made⟩ := bind_eq_ok planned
    obtain ⟨entries, resolved, rfl⟩ := map_eq_ok_iff.1 projected
    cases made
    have final := inlinedBy_final ⟨b, root.path, .root false none false, entries⟩ ctx.config
    refine ⟨_, rfl, fun s => ?_⟩
    dsimp only
    rw [and_iff_right selected.2, ← mem_inlinedOf_resolve root.path resolved, ← List.mem_append,
      ← final]
    split
    · rw [inlinedBy_insertClause]
    · rfl

/-- A clause that creates something writes what has been bound of the input. -/
theorem inlinedBy_create (b : Builder) {path : String} {supplied : List Supplied} {clause : Clause}
    (creates : clause.inline = (b.referAll path supplied).1) :
    inlinedBy ((b.referAll path supplied).2.addClause clause).clauses
      = inlinedBy b.clauses ++ supplied := by
  have own : inlinedBy [clause] = clause.inline.map (·.supplied) := by
    rw [inlinedBy, List.flatMap_singleton]
  rw [Builder.addClause, inlinedBy_append, Builder.clauses_referAll, own, creates,
    Builder.supplied_referAll]

theorem inlinedBy_setClause (b : Builder) (path : String) (input : List Supplied)
    (skipped? : Option String) :
    inlinedBy (setClause b path input skipped?).clauses = inlinedBy b.clauses := by
  obtain ⟨supplied, -, ⟨-, same⟩ | ⟨-, same⟩⟩ := setClause_cases b path input skipped?
  · rw [same, Builder.clauses_referAll]
  · rw [same, inlinedBy_addClause _ rfl, Builder.clauses_referAll]

/-- Clauses that find an edge write no property into a pattern. -/
theorem inlinedBy_findEdge {g : Given} {key : EdgeKey} {label : String}
    (found : bindEdge g root {} = .ok (key, b)) :
    inlinedBy (b.addClause (.findEdge root.path label key)).clauses = [] := by
  rw [inlinedBy_addClause _ rfl, (bindEdge_bound found).1]
  rfl

/-- What a mutation without an override writes into patterns. -/
theorem planShape_writesInline {g : Given} {typeName : String} {shape : MutationShape}
    (planned : planShape ctx root field g typeName shape = .ok plan) :
    plan.WritesInline fun s =>
      ((shape = .createNode ∨ shape = .connectEdge) ∧ s ∈ g.input ∧ s.isId = false)
        ∨ (shape ≠ .deleteNode ∧ shape ≠ .deleteEdge) ∧ root.returnsObject = true
          ∧ ConditionsBelow ctx root.returnType root.path field.selections s := by
  cases shape with
  | createNode =>
      refine (projectWritten_writesInline ((Unframed.empty.referAll _ _).addClause _)
        planned).congr fun s => ?_
      rw [inlinedBy_create {}]
      · simp [inlinedBy]
      · rfl
  | updateNode =>
      obtain ⟨id, found, planned⟩ := mapError_bind_eq_ok planned
      refine (projectWritten_writesInline ((Unframed.empty.matchNode _ _).setClause _ _ _)
        planned).congr fun s => ?_
      rw [inlinedBy_setClause, matchNode, inlinedBy_addClause _ rfl]
      simp [inlinedBy]
  | deleteNode =>
      obtain ⟨id, found, planned⟩ := mapError_bind_eq_ok planned
      cases planned
      refine ⟨_, rfl, fun s => ?_⟩
      rw [inlinedBy_addClause _ rfl, matchNode, inlinedBy_addClause _ rfl]
      simp [inlinedBy]
  | connectEdge =>
      obtain ⟨ends, found, planned⟩ := mapError_bind_eq_ok planned
      refine (projectWritten_writesInline
        ((((Unframed.empty.bindEndpoints _ _).addClause _).referAll _ _).addClause _)
        planned).congr fun s => ?_
      rw [inlinedBy_create, inlinedBy_addClause _ rfl, clauses_bindEndpoints]
      · simp [inlinedBy]
      · rfl
  | updateEdge =>
      obtain ⟨⟨key, b⟩, found, planned⟩ := mapError_bind_eq_ok planned
      refine (projectWritten_writesInline (((Unframed.empty.bindEdge found).addClause
        _).setClause _ _ _) planned).congr fun s => ?_
      rw [inlinedBy_setClause, inlinedBy_findEdge found]
      simp
  | deleteEdge =>
      obtain ⟨⟨key, b⟩, found, planned⟩ := mapError_bind_eq_ok planned
      cases planned
      refine ⟨_, rfl, fun s => ?_⟩
      rw [inlinedBy_addClause _ rfl, inlinedBy_findEdge found]
      simp

/-- What a read without an override writes into patterns. -/
theorem planRead_writesInline (planned : planRead ctx root field = .ok plan) :
    root.returnsObject = true ∧ plan.WritesInline fun s =>
      (∃ supplied, suppliedByArguments ctx.index root.arguments field.arguments = .ok supplied
          ∧ s ∈ supplied ∧ isIdentity (ctx.index.identityField? root.returnType) s = false)
        ∨ ConditionsBelow ctx root.returnType root.path field.selections s := by
  obtain ⟨supplied, given, projected⟩ := planRead_eq_ok planned
  have unframed : Unframed
      (filterFor {} root.path (ctx.index.identityField? root.returnType) supplied).2 :=
    Unframed.empty.referAll _ _
  refine ⟨?_, (projectRoot_writesInline (unframed.addClause _)
    projected).congr fun s => or_congr_left ?_⟩
  · unfold planRead at planned
    dsimp only at planned
    split at planned
    · cases planned
    · rename_i object
      rwa [Bool.not_eq_true, Bool.not_eq_false'] at object
  · rw [inlinedBy_filterFor]
    · simp [inlinedBy, given]
    · rfl

/-- What a root field without an override writes into patterns. -/
theorem planRoot_writesInline (own : root.fragment? = none)
    (planned : Compiler.planRoot ctx root field = .ok plan) :
    plan.WritesInline (WritesProperty ctx root field) := by
  unfold Compiler.planRoot at planned
  rw [own] at planned
  cases kind : root.kind with
  | query =>
      rw [kind] at planned
      obtain ⟨object, writes⟩ := planRead_writesInline planned
      have projects : projectsSelection root = true := by
        rw [projectsSelection, object, kind]
        rfl
      refine writes.congr fun s => ⟨?_, ?_⟩
      · rintro (⟨supplied, given, mem, property⟩ | below)
        · exact .read kind given mem property
        · exact .reached projects below
      · rintro (⟨-, given, mem, property⟩ | ⟨mutation, -, -, -, -, -⟩ | ⟨-, below⟩)
        · exact .inl ⟨_, given, mem, property⟩
        · cases kind.symm.trans mutation
        · exact .inr below
  | mutation =>
      rw [kind] at planned
      cases named : MutationName.classify root.name with
      | none =>
          change planWrite ctx root field = _ at planned
          rw [planWrite, named] at planned
          cases planned
      | some name =>
          obtain ⟨shape, typeName⟩ := name
          obtain ⟨g, given⟩ := Given.exists_ofField ctx.index root field
          change planWrite ctx root field = _ at planned
          rw [planWrite_eq named given] at planned
          have projects : projectsSelection root = true
              ↔ (shape ≠ .deleteNode ∧ shape ≠ .deleteEdge) ∧ root.returnsObject = true := by
            rw [projectsSelection, kind, named]
            cases shape <;> simp
          refine (planShape_writesInline planned).congr fun s => ⟨?_, ?_⟩
          · rintro (⟨creates, mem, property⟩ | ⟨shaped, object, below⟩)
            · exact .created kind named creates given mem property
            · exact .reached (projects.2 ⟨shaped, object⟩) below
          · rintro (⟨query, -, -, -⟩ | ⟨-, named', creates, given', mem, property⟩
              | ⟨projected, below⟩)
            · cases kind.symm.trans query
            · cases named.symm.trans named'
              cases given.symm.trans given'
              exact .inl ⟨creates, mem, property⟩
            · obtain ⟨shaped, object⟩ := projects.1 projected
              exact .inr ⟨shaped, object, below⟩

/-- When the keys of property maps are taken as one identifier. In a statement that compiles without
an override of its own, patterns have exactly the properties that the schema and the operation tell;
each of them stands in its clause, behind an opening brace or a comma, with its stored name, a colon
and its parameter; and the scanner takes the name there as one identifier in front of that colon if
and only if the name is an identifier or stands in back quotes. -/
theorem compileRoot_takesKey_iff (own : root.fragment? = none) {compiled : Compiled}
    (done : Compiler.compileRoot ctx root field = .ok compiled) :
    ∃ (clauses : List Clause) (lines : List String),
      compiled.text = "\n".intercalate (clauses.map Clause.text ++ lines)
        ∧ (∀ line ∈ lines, IsProjection line)
        ∧ (∀ s : Supplied, (∃ clause ∈ clauses, ∃ r ∈ clause.inline, r.supplied = s)
          ↔ WritesProperty ctx root field s)
        ∧ ∀ clause ∈ clauses, ∃ first last, compiled.text = first ++ clause.text ++ last
          ∧ ∀ r ∈ clause.inline, ∃ front behind, HasEntry r clause.text front behind
            ∧ let key := r.supplied.property
              (TakesAsKey key.toList (": " ++ r.text ++ (behind ++ last)).toList ↔ IsKey key)
                ∧ ∀ before after, tokenize compiled.text = .ok (before ++ after) →
                    spelling before = (first ++ front).toList →
                      (BeginWithKey key after ↔ IsKey key) := by
  obtain ⟨plan, planned, rfl⟩ := map_eq_ok_iff.1 done
  obtain ⟨clauses, has, writes⟩ := planRoot_writesInline own planned
  obtain ⟨lines, text, projections⟩ := has.text
  refine ⟨clauses, lines, text, projections, fun s => mem_inlinedBy.symm.trans (writes s), ?_⟩
  intro clause among
  obtain ⟨first, last, whole, -⟩ :=
    exists_sides_of_mem "\n" (List.mem_append_left lines (List.mem_map_of_mem among))
  rw [← text] at whole
  refine ⟨first, last, whole, fun r mem => ?_⟩
  obtain ⟨front, behind, entry⟩ := Clause.exists_entry mem
  have extended := entry.extend first last
  rw [← whole] at extended
  exact ⟨front, behind, entry, extended.key_iff⟩

end Planned

/-- Persons who are found by a name that is stored under two words, and by their age. -/
def spacedIndex : Index := ⟨⟨[
  ⟨"Person", .object, [], [⟨"name", ⟨"String", false, false⟩, [], []⟩]⟩,
  ⟨"Query", .object, [], [
    ⟨"person", ⟨"Person", false, false⟩, [
      ⟨"name", ⟨"String", false, false⟩, none, [⟨"alias", [("property", .string "first name")]⟩]⟩,
      ⟨"age", ⟨"Int", false, false⟩, none, []⟩], []⟩]⟩]⟩⟩

/-- Finds a person by both. -/
def spacedField : Field :=
  ⟨none, "person", [("name", .string "Ann"), ("age", .number (.natural 7))],
    [.field none "name" [] []]⟩

theorem compileRoot_takesKey_iff_spaced :
    ∃ root compiled, spacedIndex.root "person" = .ok root
      ∧ Compiler.compileRoot ⟨spacedIndex, {}, []⟩ root spacedField = .ok compiled
      ∧ (∃ front behind, compiled.text = front ++ "age" ++ behind
          ∧ TakesAsKey "age".toList behind.toList)
      ∧ ∃ front behind, compiled.text = front ++ "first name" ++ behind
          ∧ ¬ TakesAsKey "first name".toList behind.toList := by
  have shape : ((spacedIndex.root "person").toOption.any fun root =>
      (root.kind == .query && root.fragment?.isNone)
      && (Compiler.compileRoot ⟨spacedIndex, {}, []⟩ root spacedField).toOption.isSome
      && (suppliedByArguments spacedIndex root.arguments spacedField.arguments).toOption.any
        fun supplied => ["age", "first name"].all fun key => supplied.any fun s =>
          s.property == key && !isIdentity (spacedIndex.identityField? root.returnType) s)
      = true := by
    decide +kernel
  obtain ⟨root, looked, shape⟩ := exists_ok_of_any shape
  simp only [Bool.and_eq_true, beq_iff_eq, Option.isNone_iff_eq_none] at shape
  obtain ⟨⟨⟨query, own⟩, done⟩, shape⟩ := shape
  obtain ⟨supplied, given, written⟩ := exists_ok_of_any shape
  cases compiled : Compiler.compileRoot ⟨spacedIndex, {}, []⟩ root spacedField with
  | error e => rw [compiled] at done; cases done
  | ok statement =>
      obtain ⟨clauses, lines, -, -, writes, keys⟩ := compileRoot_takesKey_iff own compiled
      have found {key : String} (mem : key ∈ ["age", "first name"]) :
          ∃ front behind, statement.text = front ++ key ++ behind
            ∧ (TakesAsKey key.toList behind.toList ↔ IsKey key) := by
        obtain ⟨s, among, facts⟩ := List.any_eq_true.1 (List.all_eq_true.1 written key mem)
        rw [Bool.and_eq_true, beq_iff_eq, Bool.not_eq_true'] at facts
        obtain ⟨clause, clausal, r, inline, rfl⟩ := (writes s).2 (.read query given among facts.2)
        obtain ⟨first, last, whole, entries⟩ := keys clause clausal
        obtain ⟨front, behind, entry, takes, -⟩ := entries r inline
        rw [facts.1] at takes
        refine ⟨first ++ front, ": " ++ r.text ++ (behind ++ last), ?_, takes⟩
        rw [whole, entry.whole, Reference.entryText, facts.1]
        simp only [String.append_assoc]
      obtain ⟨front, behind, text, takes⟩ := found (by decide : "age" ∈ ["age", "first name"])
      obtain ⟨front', behind', text', takes'⟩ :=
        found (by decide : "first name" ∈ ["age", "first name"])
      refine ⟨root, statement, looked, compiled, ⟨front, behind, text, takes.2 (.inl ?_)⟩,
        front', behind', text', fun takes => not_isKey ?_ (by decide) (takes'.1 takes)⟩
      · decide +kernel
      · decide +kernel

/-- A search by a name that is stored under two words, and what it compiles to, in front of the
stored name and behind it. -/
def spacedSearch : String × String × String :=
  ("\x7bperson(name: \"Ann\") \x7bname\x7d\x7d",
    "MATCH (person_Person:`Person`\x7b",
    ": $person_Person_name\x7d)\nRETURN \x7bname: person_Person.`name`\x7d LIMIT 1")

/-- A key of two words is written as it is and falls apart. -/
theorem spaced_key_falls_apart :
    ∃ compiled,
      Compiler.compile ⟨spacedIndex, {}⟩ spacedSearch.1 [] none = .ok compiled
        ∧ compiled.text = spacedSearch.2.1 ++ "first name" ++ spacedSearch.2.2
        ∧ ¬ TakesAsKey "first name".toList spacedSearch.2.2.toList := by
  have shape : ((Compiler.compile ⟨spacedIndex, {}⟩ spacedSearch.1 [] none).toOption.any
      fun compiled => compiled.text == spacedSearch.2.1 ++ "first name" ++ spacedSearch.2.2)
        = true := by
    decide +kernel
  obtain ⟨compiled, done, text⟩ := exists_ok_of_any shape
  refine ⟨compiled, done, beq_iff_eq.1 text, fun takes => ?_⟩
  exact not_isKey (by decide +kernel) (by decide) ((takesAsKey_iff (by decide +kernel)).1 takes)

end GraphBridge.Compile
