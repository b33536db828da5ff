import GraphBridge.Proofs.Identity
import GraphBridge.Proofs.Renaming

/-!
# The variable that an object override binds

What is selected on an object with an override is read from a variable: that of the root, or that of
the field below the variable of its parent. The text of the override is put in front under new
names, and this is the only place where the variable can be bound. It is mentioned there if and only
if the body of the override mentions the variable it returns, with two differences between the two
places: at the root, an override without `RETURN` has to mention `this` and `this` may be returned;
below another object `this` is the parent, so that returning it leaves the new variable unbound.
Otherwise the variable is mentioned only where the text happens to spell it.
-/

namespace GraphBridge.Statement

open Query

/-- Whether the text that a clause takes over from an override mentions a variable. -/
def Clause.mentions (name : String) : Clause → Bool
  | .inlined _ body => body.renamed.mentions name
  | _ => false

/-- The variables of inlined text are those of the fragment under their new names. -/
theorem Inlined.mentions_renamed_iff {i : Inlined} {name : String} :
    i.renamed.mentions name = true
      ↔ ∃ old, i.fragment.mentions old = true ∧ (i.names.get? old).getD old = name := by
  rw [renamed, Fragment.mentions_iff, Fragment.variableNames_rename, List.mem_map]
  simp only [Fragment.mentions_iff]

end GraphBridge.Statement

namespace GraphBridge.Query.Fragment

/-- What is nothing but white space and comments mentions no variable. -/
theorem mentions_of_isEmpty {f : Fragment} (empty : f.isEmpty = true) (name : String) :
    f.mentions name = false := by
  have blank (brackets : List Char) (before : Option Token) (tokens : List Token)
      (trivia : tokens.all Token.isTrivia = true) :
      ∀ p ∈ placedFrom brackets before tokens, p.isVariable = false := by
    induction tokens generalizing brackets before with
    | nil => exact List.forall_mem_nil _
    | cons t rest ih =>
        rw [List.all_cons, Bool.and_eq_true] at trivia
        refine List.forall_mem_cons.2 ⟨?_, ih _ _ trivia.2⟩
        have other : (t.kind == .identifier) = false := by
          cases kind : t.kind with
          | identifier =>
              have first := trivia.1
              rw [Token.isTrivia, kind] at first
              cases first
          | _ => rfl
        rw [other, Bool.false_and]
  rw [mentions, List.any_eq_false]
  intro p mem
  rw [blank _ _ _ empty p mem, Bool.false_and]
  exact Bool.false_ne_true

end GraphBridge.Query.Fragment

namespace GraphBridge.Compile

open Operation Query Schema Statement

/-! ## New names -/

theorem child_ne_parent (parent key : String) : parent ++ "_" ++ key ≠ parent := by
  rw [String.append_assoc]
  simp

theorem child_ne_this (parent key : String) : parent ++ "_" ++ key ≠ "this" := by
  intro same
  have mem : '_' ∈ (parent ++ "_" ++ key).toList := by simp
  rw [same] at mem
  exact absurd mem (by decide)

/-- What becomes the node of a root override: the returned variable or `this`, and the name of the
node itself. -/
theorem rootNames_eq_iff {path : String} {returned? : Option String} {name : String} :
    ((rootNames path returned?).get? name).getD name = path
      ↔ name = returned?.getD "this" ∨ name ≠ "this" ∧ name = path := by
  have only : (Table.get? [("this", path)] name).getD name = path
      ↔ name = "this" ∨ name ≠ "this" ∧ name = path := by
    by_cases this : name = "this"
    · simp [Table.get?, this]
    · simp [Table.get?, this, Ne.symm this]
  cases returned? with
  | none => exact only
  | some returned =>
      by_cases same : returned = "this"
      · subst same
        exact only
      · have apart : (returned == "this") = false := beq_eq_false_iff_ne.2 same
        simp only [rootNames, apart, Option.getD_some]
        by_cases this : name = "this"
        · subst this
          simp [Table.get?, Ne.symm same]
        · by_cases chosen : name = returned
          · subst chosen
            simp [Table.get?, Ne.symm this]
          · simp [Table.get?, Ne.symm this, this, chosen, Ne.symm chosen]

/-- What becomes the node of an object override below another node. -/
theorem objectNames_eq_iff {parent key returned name : String} {bound : List String} :
    let child := parent ++ "_" ++ key
    ((objectNames parent child returned bound).get? name).getD name = child
      ↔ name ≠ "this" ∧ (name = returned ∨ name = child ∧ child ∉ bound) := by
  intro child
  unfold objectNames
  by_cases this : name = "this"
  · subst this
    simpa [Table.get?] using Ne.symm (child_ne_parent parent key)
  by_cases chosen : name = returned
  · subst chosen
    simp [Table.get?, Ne.symm this, this]
  have behind : Table.get? (("this", parent) :: (returned, child)
      :: bound.map fun name => (name, child ++ "_" ++ name)) name
        = if name ∈ bound then some (child ++ "_" ++ name) else none := by
    simp only [Table.get?, beq_eq_false_iff_ne.2 (Ne.symm this),
      beq_eq_false_iff_ne.2 (Ne.symm chosen)]
    exact Table.get?_map bound (fun name => child ++ "_" ++ name) name
  rw [behind]
  by_cases mem : name ∈ bound
  · have other : name = child → child ∈ bound := fun same => same ▸ mem
    have longer : child ++ "_" ++ name ≠ child := child_ne_parent child name
    simp only [if_pos mem, Option.getD_some, this, chosen, longer, ne_eq, not_false_eq_true,
      true_and, false_or, false_iff, not_and, not_not]
    exact other
  · have other : name = child → child ∉ bound := fun same => same ▸ mem
    simp only [if_neg mem, Option.getD_none, this, chosen, ne_eq, not_false_eq_true, true_and,
      false_or]
    exact ⟨fun same => ⟨same, other same⟩, And.left⟩

/-- The text of a root override mentions the root if its body mentions what it returns. -/
theorem mentions_rootNames_iff {path : String} {body : Fragment} {returned? : Option String} :
    (Inlined.mk body (rootNames path returned?)).renamed.mentions path = true
      ↔ body.mentions (returned?.getD "this") = true
        ∨ path ≠ "this" ∧ body.mentions path = true := by
  rw [Inlined.mentions_renamed_iff]
  simp only [rootNames_eq_iff]
  constructor
  · rintro ⟨name, occurs, rfl | ⟨other, rfl⟩⟩
    · exact .inl occurs
    · exact .inr ⟨other, occurs⟩
  · rintro (occurs | ⟨other, occurs⟩)
    · exact ⟨_, occurs, .inl rfl⟩
    · exact ⟨_, occurs, .inr ⟨other, rfl⟩⟩

/-- The text of an object override mentions its node if its body mentions what it returns, unless
that is `this`. -/
theorem mentions_objectNames_iff {parent key returned : String} {bound : List String}
    {body : Fragment} :
    let child := parent ++ "_" ++ key
    (Inlined.mk body (objectNames parent child returned bound)).renamed.mentions child = true
      ↔ returned ≠ "this" ∧ body.mentions returned = true
        ∨ child ∉ bound ∧ body.mentions child = true := by
  intro child
  rw [Inlined.mentions_renamed_iff]
  simp only [child, objectNames_eq_iff]
  constructor
  · rintro ⟨name, occurs, other, rfl | ⟨rfl, unbound⟩⟩
    · exact .inl ⟨other, occurs⟩
    · exact .inr ⟨unbound, occurs⟩
  · rintro (⟨other, occurs⟩ | ⟨unbound, occurs⟩)
    · exact ⟨_, occurs, other, .inl rfl⟩
    · exact ⟨_, occurs, child_ne_this parent key, .inr ⟨rfl, unbound⟩⟩

/-! ## Where overrides are inlined -/

/-- A field of a type that is projected as an object. -/
structure IsObjectField (ctx : Context) (typeName : String) (f : Field) (d : FieldDescriptor) :
    Prop where
  other : f.name ≠ "__typename"
  found : ctx.index.field typeName f.name = .ok d
  isObject : d.isObject = true

/-- A field that selections on a type come to, on the type itself or on an object below it, and the
variable of the object that it is selected on. -/
inductive Projected (ctx : Context) (owner place : String) (f : Field) :
    String → String → List Selection → Prop where
  | here {selections : List Selection} {fields : List Field}
      (collected : collectFields owner ctx.fragments selections = .ok fields)
      (mem : f ∈ groupFields fields) : Projected ctx owner place f owner place selections
  | inner {typeName path : String} {selections : List Selection} {fields : List Field} {g : Field}
      {d : FieldDescriptor}
      (collected : collectFields typeName ctx.fragments selections = .ok fields)
      (mem : g ∈ groupFields fields) (object : IsObjectField ctx typeName g d)
      (below : Projected ctx owner place f d.graphType (path ++ "_" ++ g.responseKey)
        g.selections) : Projected ctx owner place f typeName path selections

section Resolved

variable {ctx : Context} {typeName : String} {f : Field} {d : FieldDescriptor}

theorem IsObjectField.resolveField (object : IsObjectField ctx typeName f d) {inner : Resolves}
    {e : Entry} (found : resolveField ctx inner typeName f = .ok e) :
    ∃ reach entries, resolveReach ctx d f = .ok reach
      ∧ inner d.graphType f.selections = .ok entries
      ∧ e = .object f.responseKey reach (closingOf d f) entries := by
  unfold Compile.resolveField at found
  rw [if_neg (by simpa using object.other), object.found] at found
  obtain ⟨_, same, found⟩ := bind_eq_ok found
  cases same
  rw [if_pos object.isObject] at found
  obtain ⟨reach, reached, found⟩ := bind_eq_ok found
  obtain ⟨entries, selected, made⟩ := bind_eq_ok found
  cases made
  exact ⟨reach, entries, reached, selected, rfl⟩

/-- The entry of an object among the selections it stands in. -/
theorem IsObjectField.exists_entry (object : IsObjectField ctx typeName f d)
    {selections : List Selection} {fields : List Field}
    (collected : collectFields typeName ctx.fragments selections = .ok fields)
    (mem : f ∈ groupFields fields) {levels : Nat} {entries : List Entry}
    (resolved : resolve ctx levels typeName selections = .ok entries) :
    ∃ deeper reach inner, resolveReach ctx d f = .ok reach
      ∧ resolve ctx deeper d.graphType f.selections = .ok inner
      ∧ .object f.responseKey reach (closingOf d f) inner ∈ entries := by
  cases levels with
  | zero => cases resolved
  | succ deeper =>
      obtain ⟨fields', collected', looked⟩ := resolve_eq_ok resolved
      cases collected.symm.trans collected'
      obtain ⟨e, among, found⟩ := exists_mem_of_mapM looked mem
      obtain ⟨reach, inner, reached, selected, rfl⟩ := object.resolveField found
      exact ⟨deeper, reach, inner, reached, selected, among⟩

end Resolved

/-- A statement has a clause and a frame of a variable. -/
def Inlines (clause : Clause) (child : String) (b : Builder) : Prop :=
  clause ∈ b.clauses ∧ ∃ place, b.carryOver? place = some child

namespace Inlines

variable {clause : Clause} {child : String} {b b' : Builder}

theorem grow (inlines : Inlines clause child b) (grown : Grows b b') : Inlines clause child b' := by
  obtain ⟨mem, place, opened⟩ := inlines
  exact ⟨grown.clauses.subset mem, place, grown.opened place child opened⟩

theorem insertClause (inlines : Inlines clause child b) (place : Nat) (other : Clause) :
    Inlines clause child (b.insertClause place other) := by
  obtain ⟨mem, opened⟩ := inlines
  refine ⟨?_, opened⟩
  rw [← List.take_append_drop place b.clauses, List.mem_append] at mem
  exact List.mem_append.2 (mem.imp_right (List.mem_cons_of_mem _))

end Inlines

namespace Grows

variable {config : Config} {path : String} {frame : Nat} {outer : List (Nat × String)}

/-- What an entry adds is there when all entries have been emitted. -/
theorem emit_of_mem {e : Entry} {entries : List Entry} (mem : e ∈ entries) (b : Builder) :
    ∃ before, Grows (emitEntry config path frame outer before e)
      (Compile.emit config path frame outer entries b) := by
  obtain ⟨first, rest, rfl⟩ := List.append_of_mem mem
  refine ⟨first.foldl (emitEntry config path frame outer) b, ?_⟩
  rw [emit_eq_foldl, List.foldl_append, List.foldl_cons, ← emit_eq_foldl rest]
  exact Grows.emit _ config path frame outer rest

/-- The selection of an object is emitted where its nodes have been reached and its frame has been
opened. -/
theorem emitEntry_object (b : Builder) (key : String) (reach : Reach) (closing : Closing)
    (entries : List Entry) :
    let child := path ++ "_" ++ key
    let reached := reach.emit config path child b
    Grows (Compile.emit config child reached.frames.length ((frame, path) :: outer) entries
        (reached.openFrame child closing))
      (emitEntry config path frame outer b (.object key reach closing entries)) := by
  intro child reached
  rw [Compile.emitEntry_object]
  exact (project _ _ _ _).trans (thread _ _ _ _)

theorem limitRows (b : Builder) (root : Root) : Grows b (limitRows b root) := by
  unfold Compile.limitRows
  split
  · exact addClause b _
  · exact refl b

end Grows

/-- The clause of an object override. -/
def objectClause (config : Config) (parent child : String) (fragment body : Fragment)
    (returned : String) : Clause :=
  inlinedClause config ⟨body, objectNames parent child returned fragment.boundVariables⟩

section Below

variable {ctx : Context} {owner place : String} {f : Field} {d : FieldDescriptor} {text : String}

/-- An object override that is projected somewhere is inlined there, and the frame of its node is
opened. -/
theorem Projected.inlines {typeName path : String} {selections : List Selection}
    (below : Projected ctx owner place f typeName path selections)
    (object : IsObjectField ctx owner f d) (mapped : d.mapping = .overridden text) {levels : Nat}
    {entries : List Entry} (resolved : resolve ctx levels typeName selections = .ok entries) :
    ∃ fragment parts returned, fragmentFor f text = .ok fragment
      ∧ splitFor f fragment = .ok parts ∧ returnedVariable f parts.2 = .ok returned
      ∧ ∀ frame outer b,
          let child := place ++ "_" ++ f.responseKey
          Inlines (objectClause ctx.config place child fragment parts.1 returned) child
            (emit ctx.config path frame outer entries b) := by
  induction below generalizing levels entries with
  | here collected mem =>
      obtain ⟨deeper, reach, inner, reached, -, among⟩ := object.exists_entry collected mem resolved
      obtain ⟨_, _, _, _, other, -⟩ | ⟨text', fragment, parts, returned, mapped', read, split, sole,
        rfl⟩ := resolveReach_cases reached
      · cases mapped.symm.trans other
      · cases mapped.symm.trans mapped'
        refine ⟨fragment, parts, returned, read, split, sole, fun frame outer b => ?_⟩
        obtain ⟨before, grown⟩ := Grows.emit_of_mem among b
        have inside := (Grows.emit _ ctx.config _ _ _ inner).trans
          ((Grows.emitEntry_object before _ _ _ inner).trans grown)
        refine Inlines.grow ⟨?_, _, Builder.carryOver?_openFrame_length _ _ _⟩ inside
        rw [Builder.clauses_openFrame]
        exact List.mem_append_right _ List.mem_cons_self
  | inner collected mem outside _ ih =>
      obtain ⟨deeper, reach, inner, -, selected, among⟩ :=
        outside.exists_entry collected mem resolved
      obtain ⟨fragment, parts, returned, read, split, sole, inlines⟩ := ih selected
      refine ⟨fragment, parts, returned, read, split, sole, fun frame outer b => ?_⟩
      obtain ⟨before, grown⟩ := Grows.emit_of_mem among b
      exact (inlines _ _ _).grow ((Grows.emitEntry_object before _ _ _ inner).trans grown)

end Below

section Planned

variable {ctx : Context} {root : Root} {field : Field} {b : Builder}

/-- The body of a root override stands in front of all that is projected behind it. -/
theorem planOverride_inlines {text : String}
    (planned : planOverride ctx root field text = .ok (.projecting b)) :
    ∃ fragment body returned?, fragmentFor field text = .ok fragment
      ∧ rootBody field fragment = .ok (body, returned?)
      ∧ (inlinedRoot root.path body returned?).clauses <+: b.clauses
      ∧ b.carryOver? 0 = some root.path := by
  obtain ⟨fragment, body, returned?, read, split, projected⟩ := planOverride_projecting planned
  refine ⟨fragment, body, returned?, read, split, ?_⟩
  have unframed := unframed_inlinedRoot root.path body returned?
  rw [projectRoot_eq unframed] at projected
  cases resolved : resolve ctx ctx.config.maxDepth root.returnType field.selections with
  | error e => rw [resolved] at projected; cases projected
  | ok entries =>
      rw [resolved] at projected
      cases projected
      have limited := unframed.limitRows root
      have opened := Builder.carryOver?_openFrame_length
        (limitRows (inlinedRoot root.path body returned?) root) root.path (rootClosing root)
      rw [limited.frames] at opened
      let start := (limitRows (inlinedRoot root.path body returned?) root).openFrame root.path
        (rootClosing root)
      have grown : Grows start _ := .emit start ctx.config root.path 0 [] entries
      exact ⟨(((Grows.limitRows _ root).trans (.openFrame _ _ _)).trans grown).clauses,
        grown.opened _ _ opened⟩

/-- The clauses of a root override mention the root if its body mentions what it returns. -/
theorem mentions_inlinedRoot_iff {path : String} {body : Fragment} {returned? : Option String} :
    (∃ clause ∈ (inlinedRoot path body returned?).clauses, clause.mentions path = true)
      ↔ body.mentions (returned?.getD "this") = true
        ∨ path ≠ "this" ∧ body.mentions path = true := by
  rw [← mentions_rootNames_iff]
  unfold inlinedRoot
  dsimp only
  split
  · rename_i empty
    rw [Fragment.mentions_of_isEmpty empty]
    simp
  · constructor
    · rintro ⟨clause, mem, mentions⟩
      cases List.mem_singleton.1 mem
      exact mentions
    · exact fun mentions => ⟨_, List.mem_singleton_self _, mentions⟩

theorem rootBody_mentions {fragment body : Fragment}
    (split : rootBody field fragment = .ok (body, none)) : body.mentions "this" = true := by
  unfold rootBody at split
  split at split
  · split at split
    · rename_i mentions
      cases split
      exact mentions
    · cases split
  · obtain ⟨returned, -, made⟩ := bind_eq_ok split
    cases made

/-- When an object override binds the variable that its selection is read from. The body of a root
override stands in front of the statement and mentions the root if and only if it mentions what it
returns, `this` if nothing is returned, or spells the root itself; without a `RETURN` it always
does. The body of an override anywhere below has a clause of its own and mentions the variable of
its frame if and only if it mentions what it returns and that is not `this`, or spells the variable
without binding it. -/
theorem planRoot_anchored_iff
    (planned : Compiler.planRoot ctx root field = .ok (.projecting b)) :
    (∀ text, root.fragment? = some text →
        ∃ fragment body returned?, fragmentFor field text = .ok fragment
          ∧ rootBody field fragment = .ok (body, returned?)
          ∧ (returned? = none → body.mentions "this" = true)
          ∧ (inlinedRoot root.path body returned?).clauses <+: b.clauses
          ∧ b.carryOver? 0 = some root.path
          ∧ ((∃ clause ∈ (inlinedRoot root.path body returned?).clauses,
                clause.mentions root.path = true)
              ↔ body.mentions (returned?.getD "this") = true
                ∨ root.path ≠ "this" ∧ body.mentions root.path = true))
      ∧ ∀ owner place f d text,
          Projected ctx owner place f root.returnType root.path field.selections →
          IsObjectField ctx owner f d → d.mapping = .overridden text →
            let child := place ++ "_" ++ f.responseKey
            ∃ fragment parts returned, fragmentFor f text = .ok fragment
              ∧ splitFor f fragment = .ok parts ∧ returnedVariable f parts.2 = .ok returned
              ∧ let clause := objectClause ctx.config place child fragment parts.1 returned
                Inlines clause child b
                  ∧ (clause.mentions child = true
                    ↔ returned ≠ "this" ∧ parts.1.mentions returned = true
                      ∨ child ∉ fragment.boundVariables ∧ parts.1.mentions child = true) := by
  refine ⟨fun text own => ?_, fun owner place f d text below object mapped => ?_⟩
  · have override : planOverride ctx root field text = .ok (.projecting b) := by
      unfold Compiler.planRoot at planned
      rwa [own] at planned
    obtain ⟨fragment, body, returned?, read, split, front, opened⟩ := planOverride_inlines override
    refine ⟨fragment, body, returned?, read, split, ?_, front, opened, mentions_inlinedRoot_iff⟩
    rintro rfl
    exact rootBody_mentions split
  · obtain ⟨p, yields⟩ := planRoot_yields planned
    obtain ⟨fragment, parts, returned, read, split, sole, inlines⟩ :=
      below.inlines object mapped yields.resolved
    refine ⟨fragment, parts, returned, read, split, sole, ?_, mentions_objectNames_iff⟩
    have final := inlines 0 [] (p.start.openFrame p.path p.closing)
    rw [← yields.path] at final
    rcases yields.builder with rfl | rfl
    · exact final
    · exact final.insertClause _ _

end Planned

/-- Persons with overrides that return a friend and that return the parent. -/
def returningIndex : Index := ⟨⟨[
  ⟨"Person", .object, [], [
    ⟨"name", ⟨"String", false, false⟩, [], []⟩,
    ⟨"friend", ⟨"Person", false, false⟩, [],
      [⟨"cypher", [("statement", .string "MATCH (this)-[:knows]->(f) RETURN f")]⟩]⟩,
    ⟨"me", ⟨"Person", false, false⟩, [],
      [⟨"cypher", [("statement", .string "MATCH (this) RETURN this")]⟩]⟩]⟩,
  ⟨"Query", .object, [], [⟨"person", ⟨"Person", false, false⟩, [], []⟩]⟩]⟩⟩

/-- A root field of persons, perhaps with an override. -/
def returningRoot (fragment? : Option String) : Root where
  kind := .query
  name := "person"
  returnType := "Person"
  label := "Person"
  path := "person_Person"
  returnsArray := false
  returnsObject := true
  fragment? := fragment?
  arguments := []
  idArgument? := none
  limit? := none

/-- The name of someone who is reached from persons. -/
def reachingField (name : String) : Field :=
  ⟨none, "person", [], [.field none name [] [.field none "name" [] []]]⟩

theorem planRoot_anchored_iff_friend :
    ∃ b, Compiler.planRoot ⟨returningIndex, {}, []⟩
        (returningRoot (some "MATCH (a:Person) RETURN a")) (reachingField "friend")
          = .ok (.projecting b)
      ∧ (∃ clause ∈ b.clauses, clause.mentions "person_Person" = true)
      ∧ ∃ clause, Inlines clause "person_Person_friend" b
          ∧ clause.mentions "person_Person_friend" = true := by
  have shape : (projected? (Compiler.planRoot ⟨returningIndex, {}, []⟩
      (returningRoot (some "MATCH (a:Person) RETURN a")) (reachingField "friend"))).any
        (fun _ => true) = true := by
    decide +kernel
  obtain ⟨b, planned, -⟩ := exists_projecting shape
  obtain ⟨above, below⟩ := planRoot_anchored_iff planned
  refine ⟨b, planned, ?_, ?_⟩
  · obtain ⟨fragment, body, returned?, read, split, -, front, -, mentions⟩ := above _ rfl
    have bound : ((fragmentFor (reachingField "friend") "MATCH (a:Person) RETURN a").toOption.any
        fun fragment => (rootBody (reachingField "friend") fragment).toOption.any
          fun parts => parts.1.mentions (parts.2.getD "this")) = true := by
      decide +kernel
    rw [read] at bound
    simp only [Except.toOption, Option.any_some, split] at bound
    obtain ⟨clause, mem, found⟩ := mentions.2 (.inl bound)
    exact ⟨clause, front.subset mem, found⟩
  · let f : Field := ⟨none, "friend", [], [.field none "name" [] []]⟩
    have selected : collectFields "Person" [] (reachingField "friend").selections = .ok [f] :=
      collectFields_field none "friend" [] _
    obtain ⟨d, found, object⟩ : ∃ d, returningIndex.field "Person" "friend" = .ok d
        ∧ (d.isObject && d.mapping == .overridden "MATCH (this)-[:knows]->(f) RETURN f") = true :=
      exists_ok_of_any (by decide +kernel)
    rw [Bool.and_eq_true, beq_iff_eq] at object
    obtain ⟨fragment, parts, returned, read, split, sole, inlines, mentions⟩ :=
      below "Person" "person_Person" f d _ (.here selected (by simp [groupFields]))
        ⟨by decide, found, object.1⟩ object.2
    have bound : ((fragmentFor f "MATCH (this)-[:knows]->(f) RETURN f").toOption.any
        fun fragment => (splitFor f fragment).toOption.any fun parts =>
          (returnedVariable f parts.2).toOption.any fun returned =>
            returned != "this" && parts.1.mentions returned) = true := by
      decide +kernel
    rw [read] at bound
    simp only [Except.toOption, Option.any_some, split, sole, Bool.and_eq_true, bne_iff_ne] at bound
    exact ⟨_, inlines, mentions.2 (.inl bound)⟩

/-- A variable that is projected and that no clause mentions: an override below a person returns the
person itself, and one of persons returns what it does not mention. -/
theorem returned_left_unbound :
    (∃ b, Compiler.planRoot ⟨returningIndex, {}, []⟩ (returningRoot none) (reachingField "me")
          = .ok (.projecting b)
        ∧ b.carryOver? 1 = some "person_Person_me"
        ∧ ∀ clause ∈ b.clauses, clause.mentions "person_Person_me" = false)
      ∧ ∃ b, Compiler.planRoot ⟨returningIndex, {}, []⟩
            (returningRoot (some "MATCH (a:Person) RETURN b"))
            ⟨none, "person", [], [.field none "name" [] []]⟩ = .ok (.projecting b)
          ∧ b.carryOver? 0 = some "person_Person"
          ∧ ∀ clause ∈ b.clauses, clause.mentions "person_Person" = false := by
  have unbound {planned : Except Error Plan} {place : Nat} {name : String}
      (shape : (projected? planned).any (fun b => b.carryOver? place == some name
        && b.clauses.all fun clause => !clause.mentions name) = true) :
      ∃ b, planned = .ok (.projecting b) ∧ b.carryOver? place = some name
        ∧ ∀ clause ∈ b.clauses, clause.mentions name = false := by
    obtain ⟨b, projects, facts⟩ := exists_projecting shape
    rw [Bool.and_eq_true, beq_iff_eq, List.all_eq_true] at facts
    exact ⟨b, projects, facts.1, fun clause mem => by simpa using facts.2 clause mem⟩
  exact ⟨unbound (by decide +kernel), unbound (by decide +kernel)⟩

end GraphBridge.Compile
