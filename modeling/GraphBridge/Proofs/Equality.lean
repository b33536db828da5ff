import GraphBridge.Proofs.ArgumentOrder

/-!
# Equality of values

Values are equal if they are alike up to the order of members and the sign of a zero. On values as
they are read, with doubles in range and objects whose names are distinct, this is an equivalence.
Outside of them it is not: a double that is no number differs from itself, and of two members with
one name only the first is compared.
-/

namespace GraphBridge.Json

/-! ## Numbers -/

open Float.Model (UnpackedFloat)

/-- A double without the sign of a zero. -/
def unsigned : UnpackedFloat → UnpackedFloat
  | .zero _ => .zero .positive
  | other => other

/-- Sizes of doubles are compared by exponent and mantissa. -/
theorem compare_then_iff {e e' : Int} {m m' : Nat} :
    (compare e e').then (compare m m') = .eq ↔ e = e' ∧ m = m' := by
  rw [Ordering.then_eq_eq, Int.compare_eq_eq, Nat.compare_eq_eq]

/-- A double in range equals itself only, apart from the sign of a zero. -/
theorem beq_iff_unsigned {a b : UnpackedFloat} (finite : a.isFinite = true) :
    a.beq b = true ↔ unsigned a = unsigned b := by
  have size (s : UnpackedFloat.Sign) {m m' : Nat} {e e' : Int} (pos : 0 < m) (pos' : 0 < m') :
      e = e' ∧ m = m' ↔ UnpackedFloat.finite s m e pos = .finite s m' e' pos' := by
    constructor
    · rintro ⟨rfl, rfl⟩
      rfl
    · intro same
      obtain ⟨-, rfl, rfl⟩ := UnpackedFloat.finite.inj same
      exact ⟨rfl, rfl⟩
  unfold UnpackedFloat.beq
  rw [beq_iff_eq]
  cases a with
  | notANumber => cases finite
  | infinity s => cases finite
  | zero s =>
      cases b with
      | zero s' => exact iff_of_true rfl rfl
      | notANumber => constructor <;> intro equal <;> cases equal
      | infinity s' => cases s' <;> constructor <;> intro equal <;> cases equal
      | finite s' m e pos => cases s' <;> constructor <;> intro equal <;> cases equal
  | finite s m e pos =>
      cases b with
      | zero s' => cases s <;> constructor <;> intro equal <;> cases equal
      | notANumber => constructor <;> intro equal <;> cases equal
      | infinity s' => cases s' <;> constructor <;> intro equal <;> cases equal
      | finite s' m' e' pos' =>
          cases s <;> cases s'
          case negative.negative =>
            exact Option.some_inj.trans (Ordering.swap_eq_eq.trans
              (compare_then_iff.trans (size .negative pos pos')))
          case positive.positive =>
            exact Option.some_inj.trans (compare_then_iff.trans (size .positive pos pos'))
          all_goals constructor <;> intro equal <;> cases equal

namespace Number

/-- What tells a number apart from others. -/
def form : Number → Number ⊕ UnpackedFloat
  | .binary x => .inr (unsigned x.toModel.unpack)
  | other => .inl other

/-- A number in range equals those that have its form. -/
theorem same_iff {m n : Number} (finite : m.isFinite = true) :
    m.same n = true ↔ m.form = n.form := by
  cases m with
  | natural m => cases n <;> simp [same, form]
  | negative m => cases n <;> simp [same, form]
  | binary x =>
      cases n with
      | natural n => simp [same, form]
      | negative n => simp [same, form]
      | binary y =>
          rw [form, form, Sum.inr.injEq]
          exact beq_iff_unsigned finite

end Number

/-! ## Values as they are read -/

/-- An induction over a value. -/
@[elab_as_elim]
theorem induction {motive : Json → Prop} (null : motive .null) (bool : ∀ b, motive (.bool b))
    (number : ∀ n, motive (.number n)) (string : ∀ s, motive (.string s))
    (array : ∀ items, (∀ item ∈ items, motive item) → motive (.array items))
    (object : ∀ members, (∀ entry ∈ members, motive entry.2) → motive (.object members))
    (value : Json) : motive value := by
  cases value with
  | null => exact null
  | bool b => exact bool b
  | number n => exact number n
  | string s => exact string s
  | array items =>
      exact array items fun item _ => induction null bool number string array object item
  | object members =>
      exact object members fun entry _ => induction null bool number string array object entry.2
termination_by sizeOf value
decreasing_by
  · next inside =>
      have smaller := List.sizeOf_lt_of_mem inside
      simp only [Json.array.sizeOf_spec]
      omega
  · next inside =>
      have smaller := List.sizeOf_lt_of_mem inside
      obtain ⟨name, value⟩ := entry
      simp only [Prod.mk.sizeOf_spec, Json.object.sizeOf_spec] at smaller ⊢
      omega

/-- A value that can be read: its doubles are in range, and its objects are tables. -/
def IsProper (value : Json) : Prop :=
  value.isFinite = true ∧ value.tidy = value

theorem areFinite_iff {items : List Json} :
    areFinite items = true ↔ ∀ item ∈ items, item.isFinite = true := by
  induction items with
  | nil => simp [areFinite]
  | cons item rest ih => rw [areFinite, Bool.and_eq_true, ih, List.forall_mem_cons]

theorem haveFinite_iff {members : List (String × Json)} :
    haveFinite members = true ↔ ∀ entry ∈ members, entry.2.isFinite = true := by
  induction members with
  | nil => simp [haveFinite]
  | cons entry rest ih => rw [haveFinite, Bool.and_eq_true, ih, List.forall_mem_cons]

theorem tidyItems_eq (items : List Json) : tidyItems items = items.map tidy := by
  induction items with
  | nil => rfl
  | cons item rest ih => rw [tidyItems, ih, List.map_cons]

theorem tidyMembers_eq (members : List (String × Json)) :
    tidyMembers members = members.map fun entry => (entry.1, entry.2.tidy) := by
  induction members with
  | nil => rfl
  | cons entry rest ih => rw [tidyMembers, ih, List.map_cons]

theorem isProper_array {items : List Json} (proper : (array items).IsProper) :
    ∀ item ∈ items, item.IsProper := by
  intro item mem
  have tidy := array.inj proper.2
  rw [tidyItems_eq] at tidy
  exact ⟨areFinite_iff.1 proper.1 item mem,
    List.map_inj_left.1 (tidy.trans (List.map_id _).symm) item mem⟩

theorem isProper_object {members : List (String × Json)} (proper : (object members).IsProper) :
    (Table.keys members).Nodup ∧ ∀ entry ∈ members, entry.2.IsProper := by
  have tidy := object.inj proper.2
  have distinct : (Table.keys members).Nodup := tidy ▸ Table.nodup_keys_ofList _
  have named : Table.keys (tidyMembers members) = Table.keys members := by
    rw [tidyMembers_eq, Table.keys, Table.keys, List.map_map]
    rfl
  rw [Table.ofList_eq_self (named ▸ distinct), tidyMembers_eq] at tidy
  exact ⟨distinct, fun entry mem => ⟨haveFinite_iff.1 proper.1 entry mem,
    congrArg Prod.snd (List.map_inj_left.1 (tidy.trans (List.map_id _).symm) entry mem)⟩⟩

/-! ## Equality is an equivalence -/

theorem sameItems_iff {as bs : List Json} :
    sameItems as bs = true ↔ List.Forall₂ (fun a b => a.same b = true) as bs := by
  induction as generalizing bs with
  | nil => cases bs <;> simp [sameItems]
  | cons a as ih => cases bs <;> simp [sameItems, ih]

theorem sameMembers_iff {members : List (String × Json)} {other : Table Json} :
    sameMembers members other = true
      ↔ ∀ entry ∈ members, ∃ b, other.get? entry.1 = some b ∧ entry.2.same b = true := by
  induction members with
  | nil => simp [sameMembers]
  | cons entry rest ih =>
      rw [sameMembers, Bool.and_eq_true, ih, List.forall_mem_cons]
      refine and_congr_left fun _ => ?_
      cases other.get? entry.1 <;> simp

/-- A value that can be read equals itself. -/
theorem same_refl {value : Json} (proper : value.IsProper) : value.same value = true := by
  induction value using induction with
  | null => rfl
  | bool b => simp [same]
  | number n => exact (Number.same_iff proper.1).2 rfl
  | string s => simp [same]
  | array items ih =>
      rw [same, sameItems_iff]
      exact List.forall₂_same.2 fun item mem => ih item mem (isProper_array proper item mem)
  | object members ih =>
      obtain ⟨distinct, values⟩ := isProper_object proper
      rw [same, Bool.and_eq_true, sameMembers_iff]
      exact ⟨beq_self_eq_true _, fun entry mem =>
        ⟨entry.2, (Table.get?_eq_some_iff distinct).2 mem, ih entry mem (values entry mem)⟩⟩

/-- Equality of values that can be read goes both ways. -/
theorem same_symm {a b : Json} (proper : a.IsProper) (proper' : b.IsProper)
    (equal : a.same b = true) : b.same a = true := by
  induction a using induction generalizing b with
  | null => cases b <;> first | rfl | cases equal
  | bool x =>
      cases b with
      | bool y => exact beq_iff_eq.2 (beq_iff_eq.1 equal).symm
      | _ => cases equal
  | number m =>
      cases b with
      | number n => exact (Number.same_iff proper'.1).2 ((Number.same_iff proper.1).1 equal).symm
      | _ => cases equal
  | string s =>
      cases b with
      | string t => exact beq_iff_eq.2 (beq_iff_eq.1 equal).symm
      | _ => cases equal
  | array items ih =>
      cases b with
      | array others =>
          rw [same, sameItems_iff, List.forall₂_iff_get] at equal ⊢
          refine ⟨equal.1.symm, fun place inside inside' => ?_⟩
          exact ih _ (List.get_mem _ _) (isProper_array proper _ (List.get_mem _ _))
            (isProper_array proper' _ (List.get_mem _ _)) (equal.2 place inside' inside)
      | _ => cases equal
  | object members ih =>
      cases b with
      | object others =>
          obtain ⟨distinct, values⟩ := isProper_object proper
          obtain ⟨distinct', values'⟩ := isProper_object proper'
          rw [same, Bool.and_eq_true, beq_iff_eq, sameMembers_iff] at equal ⊢
          obtain ⟨lengths, equal⟩ := equal
          -- as many distinct names as in the other object, and all of them there: the same names
          have known : Table.keys members ⊆ Table.keys others := by
            intro name mem
            obtain ⟨entry, among, rfl⟩ := List.mem_map.1 mem
            obtain ⟨b, found, -⟩ := equal entry among
            exact List.mem_map.2 ⟨_, Table.mem_of_get? found, rfl⟩
          have names : (Table.keys members).Perm (Table.keys others) := by
            refine (List.subperm_of_subset distinct known).perm_of_length_le ?_
            simp [Table.keys, lengths]
          refine ⟨lengths.symm, fun entry among => ?_⟩
          obtain ⟨entry', among', same⟩ :=
            List.mem_map.1 (names.mem_iff.2 (List.mem_map_of_mem among))
          obtain ⟨b, found, equal⟩ := equal entry' among'
          rw [same, (Table.get?_eq_some_iff distinct').2 among, Option.some.injEq] at found
          obtain rfl := found
          refine ⟨entry'.2, ?_, ih entry' among' (values entry' among') (values' entry among) equal⟩
          rw [← same]
          exact (Table.get?_eq_some_iff distinct).2 among'
      | _ => cases equal

/-- Equality of values that can be read is transitive. -/
theorem same_trans {a b c : Json} (proper : a.IsProper) (proper' : b.IsProper)
    (first : a.same b = true) (second : b.same c = true) : a.same c = true := by
  induction a using induction generalizing b c with
  | null =>
      cases b with
      | null => exact second
      | _ => cases first
  | bool x =>
      cases b with
      | bool y =>
          obtain rfl : x = y := beq_iff_eq.1 first
          exact second
      | _ => cases first
  | number m =>
      cases b with
      | number n =>
          cases c with
          | number k =>
              exact (Number.same_iff proper.1).2
                (((Number.same_iff proper.1).1 first).trans ((Number.same_iff proper'.1).1 second))
          | _ => cases second
      | _ => cases first
  | string s =>
      cases b with
      | string t =>
          obtain rfl : s = t := beq_iff_eq.1 first
          exact second
      | _ => cases first
  | array items ih =>
      cases b with
      | array others =>
          cases c with
          | array more =>
              rw [same, sameItems_iff, List.forall₂_iff_get] at first second ⊢
              refine ⟨first.1.trans second.1, fun place inside inside' => ?_⟩
              have between : place < others.length := first.1 ▸ inside
              exact ih _ (List.get_mem _ _) (isProper_array proper _ (List.get_mem _ _))
                (isProper_array proper' _ (List.get_mem _ _)) (first.2 place inside between)
                (second.2 place between inside')
          | _ => cases second
      | _ => cases first
  | object members ih =>
      cases b with
      | object others =>
          cases c with
          | object more =>
              obtain ⟨-, values⟩ := isProper_object proper
              obtain ⟨-, values'⟩ := isProper_object proper'
              rw [same, Bool.and_eq_true, beq_iff_eq, sameMembers_iff] at first second ⊢
              refine ⟨first.1.trans second.1, fun entry among => ?_⟩
              obtain ⟨b, found, equal⟩ := first.2 entry among
              have among' := Table.mem_of_get? found
              obtain ⟨c, found', equal'⟩ := second.2 _ among'
              exact ⟨c, found', ih entry among (values entry among) (values' _ among') equal equal'⟩
          | _ => cases second
      | _ => cases first

end GraphBridge.Json
