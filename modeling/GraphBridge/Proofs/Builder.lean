import GraphBridge.Proofs.Tables
import GraphBridge.Statement.Text
import Mathlib.Data.List.Forall2

/-!
# What the operations of a builder change

Each operation changes one or two parts of a builder. The lemmas of this module say what an
operation does to the part it changes and that it leaves the others alone, so that later proofs need
not open the definitions.
-/

namespace GraphBridge.Statement

/-- Changing an element leaves what is behind the list. -/
theorem modify_append_of_lt {α : Type} (f : α → α) {l : List α} (behind : List α) {i : Nat}
    (inside : i < l.length) : (l ++ behind).modify i f = l.modify i f ++ behind := by
  induction l generalizing i with
  | nil => cases inside
  | cons a l ih =>
      cases i with
      | zero => rfl
      | succ i =>
          rw [List.cons_append, List.modify_succ_cons, List.modify_succ_cons, List.cons_append,
            ih (Nat.lt_of_succ_lt_succ inside)]

/-- Changing the element behind a list. -/
theorem modify_append_length {α : Type} (f : α → α) (l : List α) (a : α) :
    (l ++ [a]).modify l.length f = l ++ [f a] := by
  induction l with
  | nil => rfl
  | cons b l ih =>
      rw [List.cons_append, List.length_cons, List.modify_succ_cons, ih]
      rfl

/-- Changing elements at one place keeps lists related, if it keeps those elements related. -/
theorem forall₂_modify {α β : Type} {related : α → β → Prop} {f : α → α} {g : β → β}
    (kept : ∀ a b, related a b → related (f a) (g b)) {as : List α} {bs : List β}
    (each : List.Forall₂ related as bs) (i : Nat) :
    List.Forall₂ related (as.modify i f) (bs.modify i g) := by
  induction each generalizing i with
  | nil => cases i <;> exact .nil
  | cons own others ih =>
      cases i with
      | zero => exact .cons (kept _ _ own) others
      | succ i => exact .cons own (ih i)

namespace Frame

/-- A frame with more entries. -/
def extend (content : List (String × Expression)) (f : Frame) : Frame :=
  { f with entries := f.entries ++ content }

theorem extend_nil : extend [] = id := by
  funext f
  simp [extend]

theorem extend_extend (first second : List (String × Expression)) (f : Frame) :
    (f.extend first).extend second = f.extend (first ++ second) := by
  simp [extend]

end Frame

namespace Builder

variable (b : Builder)

/-! ## Scope -/

@[simp] theorem clauses_bindScope (name : String) : (b.bindScope name).clauses = b.clauses := by
  unfold bindScope
  split <;> rfl

@[simp] theorem frames_bindScope (name : String) : (b.bindScope name).frames = b.frames := by
  unfold bindScope
  split <;> rfl

@[simp] theorem threads_bindScope (name : String) : (b.bindScope name).threads = b.threads := by
  unfold bindScope
  split <;> rfl

@[simp] theorem parameters_bindScope (name : String) :
    (b.bindScope name).parameters = b.parameters := by
  unfold bindScope
  split <;> rfl

/-- Binding a variable adds it to the scope and nothing else. -/
@[simp] theorem mem_scope_bindScope {name other : String} :
    other ∈ (b.bindScope name).scope ↔ other ∈ b.scope ∨ other = name := by
  unfold bindScope
  split
  · rename_i known
    have mem : name ∈ b.scope := by simpa using known
    constructor
    · exact Or.inl
    · rintro (h | rfl)
      · exact h
      · exact mem
  · simp

/-! ## Frames -/

/-- The variable of the frame at a place. -/
def carryOver? (place : Nat) : Option String :=
  b.frames[place]?.map (·.carryOver)

@[simp] theorem clauses_openFrame (carryOver : String) (closing : Closing) :
    (b.openFrame carryOver closing).clauses = b.clauses := by
  simp [openFrame]

@[simp] theorem frames_openFrame (carryOver : String) (closing : Closing) :
    (b.openFrame carryOver closing).frames = b.frames ++ [⟨carryOver, [], closing⟩] := by
  simp [openFrame]

@[simp] theorem threads_openFrame (carryOver : String) (closing : Closing) :
    (b.openFrame carryOver closing).threads = b.threads := by
  simp [openFrame]

@[simp] theorem parameters_openFrame (carryOver : String) (closing : Closing) :
    (b.openFrame carryOver closing).parameters = b.parameters := by
  simp [openFrame]

@[simp] theorem mem_scope_openFrame {carryOver other : String} {closing : Closing} :
    other ∈ (b.openFrame carryOver closing).scope ↔ other ∈ b.scope ∨ other = carryOver := by
  simp [openFrame]

/-- A new frame leaves the variables of the frames before it. -/
theorem carryOver?_openFrame {carryOver name : String} {closing : Closing} {place : Nat}
    (h : b.carryOver? place = some name) :
    (b.openFrame carryOver closing).carryOver? place = some name := by
  unfold carryOver? at h ⊢
  obtain ⟨f, found, rfl⟩ := Option.map_eq_some_iff.1 h
  have below : place < b.frames.length := (List.getElem?_eq_some_iff.1 found).1
  rw [frames_openFrame, List.getElem?_append_left below, found]
  rfl

/-- A new frame stands at the place behind all others. -/
theorem carryOver?_openFrame_length (carryOver : String) (closing : Closing) :
    (b.openFrame carryOver closing).carryOver? b.frames.length = some carryOver := by
  simp [carryOver?]

theorem getElem?_frames_project (place : Nat) (key : String) (expression : Expression)
    (other : Nat) :
    (b.project place key expression).frames[other]?
      = b.frames[other]?.map fun f =>
          if place = other then { f with entries := f.entries ++ [(key, expression)] } else f := by
  simp [project, List.getElem?_modify]

@[simp] theorem carryOver?_project (place : Nat) (key : String) (expression : Expression)
    (other : Nat) :
    (b.project place key expression).carryOver? other = b.carryOver? other := by
  simp only [carryOver?, getElem?_frames_project, Option.map_map]
  congr 1
  funext f
  simp only [Function.comp]
  split <;> rfl

@[simp] theorem length_frames_project (place : Nat) (key : String) (expression : Expression) :
    (b.project place key expression).frames.length = b.frames.length := by
  simp [project]

/-! ## Parameters -/

@[simp] theorem clauses_bindParameter (name : String) (value : Json) :
    (b.bindParameter name value).2.clauses = b.clauses := by
  simp only [bindParameter]
  split <;> rfl

@[simp] theorem frames_bindParameter (name : String) (value : Json) :
    (b.bindParameter name value).2.frames = b.frames := by
  simp only [bindParameter]
  split <;> rfl

@[simp] theorem threads_bindParameter (name : String) (value : Json) :
    (b.bindParameter name value).2.threads = b.threads := by
  simp only [bindParameter]
  split <;> rfl

@[simp] theorem scope_bindParameter (name : String) (value : Json) :
    (b.bindParameter name value).2.scope = b.scope := by
  simp only [bindParameter]
  split <;> rfl

@[simp] theorem clauses_refer (name : String) (s : Supplied) :
    (b.refer name s).2.clauses = b.clauses := by
  simp [refer]

@[simp] theorem frames_refer (name : String) (s : Supplied) :
    (b.refer name s).2.frames = b.frames := by
  simp [refer]

@[simp] theorem threads_refer (name : String) (s : Supplied) :
    (b.refer name s).2.threads = b.threads := by
  simp [refer]

@[simp] theorem scope_refer (name : String) (s : Supplied) :
    (b.refer name s).2.scope = b.scope := by
  simp [refer]

@[simp] theorem supplied_refer (name : String) (s : Supplied) :
    (b.refer name s).1.supplied = s := rfl

/-- Binding values one after the other. -/
theorem referAll_cons (path : String) (s : Supplied) (rest : List Supplied) :
    b.referAll path (s :: rest)
      = ((b.refer (path ++ "_" ++ s.name) s).1
          :: ((b.refer (path ++ "_" ++ s.name) s).2.referAll path rest).1,
        ((b.refer (path ++ "_" ++ s.name) s).2.referAll path rest).2) := rfl

variable {b} in
/-- What binding one value keeps, binding any number of them keeps. -/
theorem referAll_induction {motive : Builder → Prop}
    (kept : ∀ b name s, motive b → motive (b.refer name s).2) (path : String)
    (supplied : List Supplied) (start : motive b) : motive (b.referAll path supplied).2 := by
  induction supplied generalizing b with
  | nil => exact start
  | cons s rest ih =>
      rw [referAll_cons]
      exact ih (kept b _ s start)

@[simp] theorem clauses_referAll (path : String) (supplied : List Supplied) :
    (b.referAll path supplied).2.clauses = b.clauses :=
  referAll_induction (motive := fun b' => b'.clauses = b.clauses)
    (fun b' name s h => by simpa using h) path supplied rfl

@[simp] theorem frames_referAll (path : String) (supplied : List Supplied) :
    (b.referAll path supplied).2.frames = b.frames :=
  referAll_induction (motive := fun b' => b'.frames = b.frames)
    (fun b' name s h => by simpa using h) path supplied rfl

@[simp] theorem threads_referAll (path : String) (supplied : List Supplied) :
    (b.referAll path supplied).2.threads = b.threads :=
  referAll_induction (motive := fun b' => b'.threads = b.threads)
    (fun b' name s h => by simpa using h) path supplied rfl

@[simp] theorem scope_referAll (path : String) (supplied : List Supplied) :
    (b.referAll path supplied).2.scope = b.scope :=
  referAll_induction (motive := fun b' => b'.scope = b.scope)
    (fun b' name s h => by simpa using h) path supplied rfl

/-- There is one reference for each value, in order. -/
@[simp] theorem supplied_referAll (path : String) (supplied : List Supplied) :
    (b.referAll path supplied).1.map (·.supplied) = supplied := by
  induction supplied generalizing b with
  | nil => rfl
  | cons s rest ih => simp [referAll_cons, ih]

section

variable {b} {c : Builder} (same : b.parameters = c.parameters)
include same

/-- Under which name a value is bound depends on the parameters that are bound, and on nothing else
of a builder. -/
theorem refer_congr (name : String) (s : Supplied) :
    (b.refer name s).1 = (c.refer name s).1
      ∧ (b.refer name s).2.parameters = (c.refer name s).2.parameters := by
  simp only [refer, bindParameter, parameterName, accepts, same]
  split <;> exact ⟨rfl, by simp [same]⟩

theorem referAll_congr (path : String) (supplied : List Supplied) :
    (b.referAll path supplied).1 = (c.referAll path supplied).1
      ∧ (b.referAll path supplied).2.parameters = (c.referAll path supplied).2.parameters := by
  induction supplied generalizing b c with
  | nil => exact ⟨rfl, same⟩
  | cons s rest ih =>
      obtain ⟨first, bound⟩ := refer_congr same (path ++ "_" ++ s.name) s
      obtain ⟨references, parameters⟩ := ih bound
      rw [referAll_cons, referAll_cons, first, references]
      exact ⟨rfl, parameters⟩

end

end Builder

end GraphBridge.Statement
