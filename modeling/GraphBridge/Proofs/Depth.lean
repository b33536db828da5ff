import GraphBridge.Proofs.Expansion
import GraphBridge.Proofs.Modes

/-!
# The depth of selections

Projecting enters the selection of an object field one level deeper, and gives up where the
configuration allows no further level. Said as a relation that counts levels from the top and knows
all fragments everywhere, every projection comes to an outcome, and to one only, as soon as no
fragment comes upon itself outside of fields: fields may name the fragments in which they stand,
because the count ends that. The outcome is the one of `projectSelection`, which counts the levels
that are left. A greater depth changes nothing about a compilation that does not give up.
-/

namespace GraphBridge.Compile

open Operation Query Schema Statement

/-! ## Selections that cannot be flattened -/

/-- Flattening selections comes upon a fragment that is not known, and fails. -/
inductive Unflattened (typeName : String) (fragments : List FragmentDefinition) :
    List Selection → CompileError → Prop where
  | unknown {name : String} (rest : List Selection)
      (missing : FragmentDefinition.find? fragments name = none) :
      Unflattened typeName fragments (.spread name :: rest) (.unknownFragment name)
  | spread {name : String} {f : FragmentDefinition} (rest : List Selection) {e : CompileError}
      (found : FragmentDefinition.find? fragments name = some f) (fits : f.condition = typeName)
      (inside : Unflattened typeName fragments f.selections e) :
      Unflattened typeName fragments (.spread name :: rest) e
  | inlined {condition? : Option String} {selections : List Selection} (rest : List Selection)
      {e : CompileError} (fits : condition? = none ∨ condition? = some typeName)
      (inside : Unflattened typeName fragments selections e) :
      Unflattened typeName fragments (.inlined condition? selections :: rest) e
  | later {s : Selection} {rest : List Selection} {part : List Field} {e : CompileError}
      (first : Flattening typeName fragments [s] part)
      (others : Unflattened typeName fragments rest e) :
      Unflattened typeName fragments (s :: rest) e

section Flatten

variable {typeName : String} {fragments : List FragmentDefinition} {selections : List Selection}

/-- Selections that cannot be flattened are not collected, for the same reason. -/
theorem Unflattened.collectFields_eq (grounded : FragmentDefinition.AreGrounded fragments)
    {e : CompileError} (fails : Unflattened typeName fragments selections e) :
    collectFields typeName fragments selections = .error e := by
  induction fails with
  | unknown rest missing =>
      rw [collectFields_cons, collectFields_spread, missing]
      rfl
  | spread rest found fits _ ih =>
      rw [collectFields_cons, collectFields_spread, found]
      simp only [fits, beq_self_eq_true, if_true, collectFields_without grounded found, ih]
      rfl
  | @inlined condition? _ rest _ fits _ ih =>
      have holds : condition?.all (· == typeName) = true := by
        rcases fits with rfl | rfl
        · rfl
        · exact beq_self_eq_true typeName
      rw [collectFields_cons, collectFields_inlined, if_pos holds, ih]
      rfl
  | later first _ ih =>
      rw [collectFields_cons, first.collectFields_eq grounded, ih]
      rfl

/-- Flattened selections stay flattened in front of others. -/
theorem Flattening.cons {s : Selection} {part more : List Field} {rest : List Selection}
    (first : Flattening typeName fragments [s] part)
    (others : Flattening typeName fragments rest more) :
    Flattening typeName fragments (s :: rest) (part ++ more) := by
  cases first with
  | field given? name arguments inner last =>
      cases last
      exact .field given? name arguments inner others
  | spread found fits inside last =>
      cases last
      rw [List.append_nil]
      exact .spread found fits inside others
  | otherSpread found misfits last =>
      cases last
      exact .otherSpread found misfits others
  | inlined fits inside last =>
      cases last
      rw [List.append_nil]
      exact .inlined fits inside others
  | otherInlined misfits last =>
      cases last
      exact .otherInlined misfits others

/-- Flattening ends if no fragment comes upon itself: there are fields, or an error. -/
theorem flattens_or_fails (typeName : String) (grounded : FragmentDefinition.AreGrounded fragments)
    (selections : List Selection) :
    (∃ fields, Flattening typeName fragments selections fields)
      ∨ ∃ e, Unflattened typeName fragments selections e := by
  -- what the first selection comes to decides whether the others are looked at
  have behind {s : Selection} {rest : List Selection} {part : List Field}
      (first : Flattening typeName fragments [s] part)
      (others : (∃ fields, Flattening typeName fragments rest fields)
        ∨ ∃ e, Unflattened typeName fragments rest e) :
      (∃ fields, Flattening typeName fragments (s :: rest) fields)
        ∨ ∃ e, Unflattened typeName fragments (s :: rest) e := by
    rcases others with ⟨more, others⟩ | ⟨e, fails⟩
    · exact .inl ⟨_, first.cons others⟩
    · exact .inr ⟨e, .later first fails⟩
  induction selections using grounded.induction with
  | nil => exact .inl ⟨[], .nil⟩
  | field given? name arguments inner rest ih =>
      exact behind (.field given? name arguments inner .nil) ih
  | spread name rest ihInner ih =>
      cases found : FragmentDefinition.find? fragments name with
      | none => exact .inr ⟨_, .unknown rest found⟩
      | some f =>
          by_cases fits : f.condition = typeName
          · rcases ihInner f found with ⟨fields, inside⟩ | ⟨e, fails⟩
            · exact behind (.spread found fits inside .nil) ih
            · exact .inr ⟨e, .spread rest found fits fails⟩
          · exact behind (.otherSpread found fits .nil) ih
  | inlined condition? inner rest ihInner ih =>
      by_cases fits : condition? = none ∨ condition? = some typeName
      · rcases ihInner with ⟨fields, inside⟩ | ⟨e, fails⟩
        · exact behind (.inlined fits inside .nil) ih
        · exact .inr ⟨e, .inlined rest fits fails⟩
      · obtain ⟨condition, rfl⟩ : ∃ condition, condition? = some condition :=
          Option.ne_none_iff_exists'.1 fun none => fits (.inl none)
        have other : condition ≠ typeName := fun equal => fits (.inr (congrArg some equal))
        exact behind (.otherInlined other .nil) ih

end Flatten

/-! ## Projecting level by level -/

/-- Projecting selections at some depth comes to an outcome. Every projection of the selection of an
object field that it may call for has to come to an outcome one level deeper, whatever has been
built before. -/
inductive Projecting (ctx : Context) : Nat → (typeName path : String) → (frame : Nat) →
    List Selection → Builder → Except Error Builder → Prop where
  | tooDeep {depth : Nat} (typeName path : String) (frame : Nat) (selections : List Selection)
      (b : Builder) (deep : ctx.config.maxDepth < depth) :
      Projecting ctx depth typeName path frame selections b
        (.error (.compile (.depthExceeded ctx.config.maxDepth)))
  | unflattened {depth : Nat} {typeName : String} (path : String) (frame : Nat)
      {selections : List Selection} (b : Builder) {e : CompileError}
      (within : depth ≤ ctx.config.maxDepth)
      (fails : Unflattened typeName ctx.fragments selections e) :
      Projecting ctx depth typeName path frame selections b (.error (.compile e))
  | fields {depth : Nat} {typeName : String} (path : String) (frame : Nat)
      {selections : List Selection} (b : Builder) {fields : List Field} {inner : Projects}
      (within : depth ≤ ctx.config.maxDepth)
      (flat : Flattening typeName ctx.fragments selections fields)
      (called : ∀ f ∈ mergeFields fields, ∀ type, objectType? ctx.index typeName f = some type →
        ∀ child place b', Projecting ctx (depth + 1) type child place f.selections b'
          (inner type child place f.selections b')) :
      Projecting ctx depth typeName path frame selections b
        ((mergeFields fields).foldlM (projectField ctx inner typeName path frame) b)

/-- Of the selections of fields, projecting one level looks at those of objects only. -/
theorem projectField_congr {ctx : Context} {inner inner' : Projects} {typeName : String} {f : Field}
    (same : ∀ type, objectType? ctx.index typeName f = some type → ∀ child place b,
      inner type child place f.selections b = inner' type child place f.selections b)
    (path : String) (frame : Nat) (b : Builder) :
    projectField ctx inner typeName path frame b f
      = projectField ctx inner' typeName path frame b f := by
  unfold projectField
  split
  · rfl
  rename_i plain
  cases looked : ctx.index.field typeName f.name with
  | error e => rfl
  | ok d =>
      simp only [mapError_ok, ok_bind]
      split
      · rename_i object
        have typed : objectType? ctx.index typeName f = some d.graphType := by
          simp only [objectType?, plain, looked, object, if_true]
          rfl
        unfold projectObject
        simp only [same d.graphType typed]
      · rfl

theorem foldlM_congr {ε α σ : Type} {step step' : σ → α → Except ε σ} {as : List α}
    (same : ∀ a ∈ as, ∀ s, step s a = step' s a) (s : σ) :
    as.foldlM step s = as.foldlM step' s := by
  induction as generalizing s with
  | nil => rfl
  | cons a as ih =>
      obtain ⟨first, others⟩ := List.forall_mem_cons.1 same
      rw [List.foldlM_cons, List.foldlM_cons, first]
      congr 1
      funext next
      exact ih others next

/-- One level of a projection that has levels left. -/
theorem projectSelection_succ (ctx : Context) (levels : Nat) (typeName path : String) (frame : Nat)
    (selections : List Selection) (b : Builder) :
    projectSelection ctx (levels + 1) typeName path frame selections b
      = ((collectFields typeName ctx.fragments selections).mapError Error.compile >>= fun fields =>
          (mergeFields fields).foldlM
            (projectField ctx (projectSelection ctx levels) typeName path frame) b) := by
  rw [projectSelection, selectedFields]
  cases collectFields typeName ctx.fragments selections <;> rfl

section Levels

variable {ctx : Context} {depth : Nat}

/-- An outcome is the one that is computed with the levels that are left. -/
theorem Projecting.eq_projectSelection
    (grounded : FragmentDefinition.AreGrounded ctx.fragments) {typeName path : String}
    {frame : Nat} {selections : List Selection} {b : Builder} {found : Except Error Builder}
    (projecting : Projecting ctx depth typeName path frame selections b found) :
    found = projectSelection ctx (ctx.config.maxDepth + 1 - depth) typeName path frame selections
      b := by
  induction projecting with
  | tooDeep typeName path frame selections b deep =>
      rw [Nat.sub_eq_zero_of_le deep]
      rfl
  | unflattened path frame b within fails =>
      rw [Nat.succ_sub within, projectSelection_succ, fails.collectFields_eq grounded]
      rfl
  | fields path frame b within flat _ ih =>
      rw [Nat.succ_sub within, projectSelection_succ, flat.collectFields_eq grounded]
      refine foldlM_congr (fun f mem b => projectField_congr ?_ path frame b) b
      intro type typed child place b
      rw [ih f mem type typed child place b, Nat.add_sub_add_right]

/-- Every projection comes to an outcome. -/
theorem projecting_projectSelection (grounded : FragmentDefinition.AreGrounded ctx.fragments)
    (typeName path : String) (frame : Nat) (selections : List Selection) (b : Builder) :
    Projecting ctx depth typeName path frame selections b
      (projectSelection ctx (ctx.config.maxDepth + 1 - depth) typeName path frame selections
        b) := by
  -- the levels that are left decrease from one call to the next
  induction levels : ctx.config.maxDepth + 1 - depth
    generalizing depth typeName path frame selections b with
  | zero => exact .tooDeep _ _ _ _ _ (Nat.le_of_sub_eq_zero levels)
  | succ levels ih =>
      have within : depth ≤ ctx.config.maxDepth := by omega
      rw [projectSelection_succ]
      rcases flattens_or_fails typeName grounded selections with ⟨fields, flat⟩ | ⟨e, fails⟩
      · rw [flat.collectFields_eq grounded]
        exact .fields path frame b within flat fun f _ type _ child place b' =>
          ih type child place f.selections b' (by omega)
      · rw [fails.collectFields_eq grounded]
        exact .unflattened path frame b within fails

end Levels

/-! ## More levels -/

/-- Of two runs the first gives up at its depth, or the second comes to the same. -/
def StopsOrAgrees {α : Type} (found found' : Except Error α) : Prop :=
  (∃ limit, found = .error (.compile (.depthExceeded limit))) ∨ found = found'

namespace StopsOrAgrees

variable {α β : Type} {found found' : Except Error α}

theorem refl (found : Except Error α) : StopsOrAgrees found found :=
  .inr rfl

theorem bind (first : StopsOrAgrees found found') {next next' : α → Except Error β}
    (second : ∀ a, StopsOrAgrees (next a) (next' a)) :
    StopsOrAgrees (found >>= next) (found' >>= next') := by
  rcases first with ⟨limit, rfl⟩ | rfl
  · exact .inl ⟨limit, rfl⟩
  · cases found with
    | error e => exact .inr rfl
    | ok a => exact second a

theorem map (first : StopsOrAgrees found found') (after : α → β) :
    StopsOrAgrees (found.map after) (found'.map after) := by
  rcases first with ⟨limit, rfl⟩ | rfl
  · exact .inl ⟨limit, rfl⟩
  · exact .inr rfl

theorem mapM {γ : Type} {look look' : γ → Except Error α}
    (each : ∀ c, StopsOrAgrees (look c) (look' c)) (cs : List γ) :
    StopsOrAgrees (cs.mapM look) (cs.mapM look') := by
  induction cs with
  | nil => exact refl _
  | cons c cs ih =>
      rw [List.mapM_cons, List.mapM_cons]
      exact (each c).bind fun a => ih.bind fun as => refl _

/-- A run that succeeds has not given up. -/
theorem eq_ok {a : α} (agrees : StopsOrAgrees found found') (done : found = .ok a) :
    found' = .ok a := by
  rcases agrees with ⟨limit, stops⟩ | rfl
  · cases stops.symm.trans done
  · exact done

/-- Nor has a run that fails otherwise. -/
theorem eq_error {e : Error} (agrees : StopsOrAgrees found found') (failed : found = .error e)
    (otherwise : ∀ limit, e ≠ .compile (.depthExceeded limit)) : found' = .error e := by
  rcases agrees with ⟨limit, stops⟩ | rfl
  · cases stops.symm.trans failed
    exact absurd rfl (otherwise limit)
  · exact failed

end StopsOrAgrees

theorem stopsOrAgrees_resolveField (ctx : Context) (other : Config) {inner inner' : Resolves}
    (deeper : ∀ typeName selections,
      StopsOrAgrees (inner typeName selections) (inner' typeName selections))
    (typeName : String) (field : Field) :
    StopsOrAgrees (resolveField ctx inner typeName field)
      (resolveField (ctx.withConfig other) inner' typeName field) := by
  unfold resolveField
  split
  · exact .refl _
  refine (StopsOrAgrees.refl _).bind fun d => ?_
  split
  · refine (StopsOrAgrees.refl _).bind fun reach => ?_
    exact (deeper _ _).bind fun entries => .refl _
  · exact .refl _

/-- With more levels left, looking up gets as far or further. -/
theorem stopsOrAgrees_resolve (ctx : Context) (other : Config) {levels more : Nat}
    (le : levels ≤ more) (typeName : String) (selections : List Selection) :
    StopsOrAgrees (resolve ctx levels typeName selections)
      (resolve (ctx.withConfig other) more typeName selections) := by
  induction levels generalizing more typeName selections with
  | zero => exact .inl ⟨_, rfl⟩
  | succ levels ih =>
      obtain ⟨more, rfl⟩ := Nat.exists_eq_succ_of_ne_zero (Nat.ne_zero_of_lt le)
      refine (StopsOrAgrees.refl _).bind fun fields => ?_
      exact .mapM (stopsOrAgrees_resolveField ctx other (ih (Nat.le_of_succ_le_succ le)) typeName) _

section Deeper

variable {ctx : Context} {m : Nat} (le : ctx.config.maxDepth ≤ m)
include le

/-- What has been looked up is projected alike, whatever the depth. -/
theorem stopsOrAgrees_projectSelection (typeName path : String) (frame : Nat)
    (selections : List Selection) (b : Builder) :
    let deeper := { ctx.config with maxDepth := m }
    StopsOrAgrees
      (projectSelection ctx ctx.config.maxDepth typeName path frame selections b)
      (projectSelection (ctx.withConfig deeper) m typeName path frame selections b) := by
  intro deeper
  rw [projectSelection_eq ctx _ _ _ frame [], projectSelection_eq (ctx.withConfig deeper) _ _ _
    frame []]
  exact (stopsOrAgrees_resolve ctx deeper le typeName selections).map _

theorem stopsOrAgrees_planRoot (root : Root) (field : Field) :
    let deeper := { ctx.config with maxDepth := m }
    StopsOrAgrees (Compiler.planRoot ctx root field)
      (Compiler.planRoot (ctx.withConfig deeper) root field) := by
  intro deeper
  refine @planRoot_related _ StopsOrAgrees.refl ctx (ctx.withConfig deeper) rfl root field
    field.selections rfl ?_ ?_
  · intro start _
    unfold projectRoot
    refine (stopsOrAgrees_projectSelection le _ _ _ _ _).bind fun b => .refl _
  · intro start _
    unfold projectWritten
    split
    · exact .refl _
    · refine (stopsOrAgrees_projectSelection le _ _ _ _ _).bind fun b => .refl _

end Deeper

namespace Compiler

theorem stopsOrAgrees_compileDocument (index : Index) (config : Config) {m : Nat}
    (le : config.maxDepth ≤ m) (document : Operation.Document) (name? : Option String) :
    StopsOrAgrees ((Compiler.mk index config).compileDocument document name?)
      ((Compiler.mk index { config with maxDepth := m }).compileDocument document name?) := by
  rw [compileDocument_eq, compileDocument_eq]
  refine StopsOrAgrees.map ?_ _
  unfold planDocument
  dsimp only
  cases document.operation? name? with
  | none => exact .refl _
  | some operation =>
      dsimp only
      cases operation.rootField? with
      | none => exact .refl _
      | some field =>
          refine (StopsOrAgrees.refl _).bind fun root => ?_
          exact @stopsOrAgrees_planRoot ⟨index, config, operation.fragments⟩ m le _ _

/-- The guard against deep selections: if no fragment comes upon itself outside of fields, every
projection comes to one outcome, that of `projectSelection`; and a greater depth changes neither
what an operation compiles to nor with which error it fails, unless it is too deep. -/
theorem compileDocument_maxDepth (index : Index) (config : Config) (document : Operation.Document)
    (name? : Option String)
    (grounded : ∀ o ∈ document.operations, FragmentDefinition.AreGrounded o.fragments) {m m' : Nat}
    (le : m ≤ m') :
    let c : Compiler := ⟨index, { config with maxDepth := m }⟩
    let c' : Compiler := ⟨index, { config with maxDepth := m' }⟩
    (∀ o ∈ document.operations, ∀ depth typeName path frame selections b found,
        let ctx : Context := ⟨index, c.config, o.fragments⟩
        Projecting ctx depth typeName path frame selections b found
          ↔ found = projectSelection ctx (m + 1 - depth) typeName path frame selections b)
      ∧ (∀ compiled, c.compileDocument document name? = .ok compiled →
          c'.compileDocument document name? = .ok compiled)
      ∧ ∀ e, c.compileDocument document name? = .error e →
          (∀ limit, e ≠ .compile (.depthExceeded limit)) →
          c'.compileDocument document name? = .error e := by
  intro c c'
  have agrees := stopsOrAgrees_compileDocument index c.config le document name?
  refine ⟨fun o mem depth typeName path frame selections b found => ⟨fun projecting => ?_, ?_⟩,
    fun compiled => agrees.eq_ok, fun e => agrees.eq_error⟩
  · exact projecting.eq_projectSelection (grounded o mem)
  · rintro rfl
    exact @projecting_projectSelection ⟨index, c.config, o.fragments⟩ depth (grounded o mem)
      typeName path frame selections b

theorem compileDocument_maxDepth_family :
    let index : Index := ⟨⟨⟨"Query", .object, [], [⟨"person", ⟨"Person", false, false⟩, [], []⟩]⟩
      :: keepersIndex.document.types⟩⟩
    let family : FragmentDefinition := ⟨"Family", "Person", [.field none "name" [] [],
      .field none "pets" [] [.spread "Family", .field none "name" [] []]]⟩
    let document : Operation.Document :=
      ⟨[⟨none, .query, [.field none "person" [] [.spread "Family"]], [family]⟩]⟩
    let c : Compiler := ⟨index, { maxDepth := 2 }⟩
    let c' : Compiler := ⟨index, { maxDepth := 5 }⟩
    (∀ o ∈ document.operations, FragmentDefinition.AreGrounded o.fragments)
      ∧ ¬ FragmentDefinition.AreAcyclic [family]
      ∧ ∃ compiled, c.compileDocument document none = .ok compiled
        ∧ c'.compileDocument document none = .ok compiled := by
  intro index family document c c'
  have grounded : FragmentDefinition.AreGrounded [family] := by
    intro name f found comes
    obtain rfl := List.mem_singleton.1 (List.mem_of_find?_eq_some found)
    rcases comes with _ | _ | _ | ⟨_, _ | _ | _ | ⟨_, comes⟩⟩
    cases comes
  have each : ∀ o ∈ document.operations, FragmentDefinition.AreGrounded o.fragments :=
    List.forall_mem_singleton.2 grounded
  have shape : ((c.compileDocument document none).toOption.any fun _ => true) = true := by
    decide +kernel
  obtain ⟨compiled, done, -⟩ := exists_ok_of_any shape
  refine ⟨each, fun acyclic => ?_, compiled, done, ?_⟩
  · exact acyclic "Family" (.single ⟨family, rfl, by decide⟩)
  · exact (@compileDocument_maxDepth index {} document none each 2 5 (by decide)).2.1 compiled done

end Compiler

end GraphBridge.Compile
