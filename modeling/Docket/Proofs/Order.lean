import Docket.Json.Order
import Docket.Proofs.Preorder
import Docket.Proofs.Rounding

/-!
The order of JSON values. Swapping the sides always swaps the answer. Whether the order is
transitive is decided by the numbers alone: two signed words compare exactly, every other pair as
doubles, and a number that is compared as a double can tie with two words that differ.
-/

set_option autoImplicit false
set_option relaxedAutoImplicit false

namespace Docket

private theorem ord_trans {α : Type} [Ord α] [Std.TransOrd α] {a b c : α}
    (hab : Ord.compare a b ≠ .gt) (hbc : Ord.compare b c ≠ .gt) : Ord.compare a c ≠ .gt := by
  rw [Ne, Ordering.ne_gt_iff_isLE] at hab hbc ⊢
  exact Std.TransCmp.isLE_trans hab hbc

private theorem ord_ne_gt_iff (m n : Int) : Ord.compare m n ≠ .gt ↔ m ≤ n := by
  rw [Ne, Std.compare_eq_gt]
  omega

private theorem ord_eq_gt_iff (m n : Int) : Ord.compare m n = .gt ↔ n < m :=
  Std.compare_eq_gt

namespace Number

/-- Two signed words out of order, with a number between them that is no signed word, when all three
have the same double. -/
def Clash (x y z : Number) : Prop :=
  (∃ m n, x.signed? = some m ∧ z.signed? = some n ∧ n < m) ∧ y.signed? = none ∧
    x.toBinary64 = y.toBinary64 ∧ y.toBinary64 = z.toBinary64

theorem toBinary64_of_signed {x : Number} {n : Int} (h : x.signed? = some n) :
    x.toBinary64 = .ofInt n := by
  cases x with
  | double x => simp [signed?] at h
  | int value inRange =>
    simp only [signed?] at h
    split at h
    · simp only [Option.some.injEq] at h
      rw [toBinary64, h]
    · simp at h

theorem compare_of_signed {x y : Number} {m n : Int} (hx : x.signed? = some m)
    (hy : y.signed? = some n) : x.compare y = Ord.compare m n := by
  simp [compare, hx, hy]

theorem compare_of_left {x y : Number} (hx : x.signed? = none) :
    x.compare y = Ord.compare x.toBinary64.rank y.toBinary64.rank := by
  simp [compare, hx]

theorem compare_of_right {x y : Number} (hy : y.signed? = none) :
    x.compare y = Ord.compare x.toBinary64.rank y.toBinary64.rank := by
  cases hx : x.signed? <;> simp [compare, hx, hy]

theorem compare_swap (x y : Number) : y.compare x = (x.compare y).swap := by
  cases hx : x.signed? with
  | none =>
    rw [compare_of_right hx, compare_of_left hx]
    exact Std.OrientedOrd.eq_swap
  | some m =>
    cases hy : y.signed? with
    | none =>
      rw [compare_of_left hy, compare_of_right hy]
      exact Std.OrientedOrd.eq_swap
    | some n =>
      rw [compare_of_signed hy hx, compare_of_signed hx hy]
      exact Std.OrientedOrd.eq_swap

theorem rank_le_of_compare {x y : Number} (h : x.compare y ≠ .gt) :
    x.toBinary64.rank ≤ y.toBinary64.rank := by
  cases hx : x.signed? with
  | none => rwa [compare_of_left hx, ord_ne_gt_iff] at h
  | some m =>
    cases hy : y.signed? with
    | none => rwa [compare_of_right hy, ord_ne_gt_iff] at h
    | some n =>
      rw [compare_of_signed hx hy, ord_ne_gt_iff] at h
      rw [toBinary64_of_signed hx, toBinary64_of_signed hy]
      exact Binary64.rank_ofInt_mono h

theorem not_clash_iff (x y z : Number) :
    ¬ Clash x y z ↔ (x.compare y ≠ .gt → y.compare z ≠ .gt → x.compare z ≠ .gt) := by
  constructor
  · intro hclash hxy hyz hxz
    have rxy := rank_le_of_compare hxy
    have ryz := rank_le_of_compare hyz
    cases hx : x.signed? with
    | none =>
      rw [compare_of_left hx, ord_eq_gt_iff] at hxz
      omega
    | some m =>
      cases hz : z.signed? with
      | none =>
        rw [compare_of_right hz, ord_eq_gt_iff] at hxz
        omega
      | some n =>
        rw [compare_of_signed hx hz, ord_eq_gt_iff] at hxz
        cases hy : y.signed? with
        | some l =>
          rw [compare_of_signed hx hy, ord_ne_gt_iff] at hxy
          rw [compare_of_signed hy hz, ord_ne_gt_iff] at hyz
          omega
        | none =>
          -- The outer words are out of order, so their ranks leave no room around the middle one.
          have rzx : z.toBinary64.rank ≤ x.toBinary64.rank := by
            rw [toBinary64_of_signed hx, toBinary64_of_signed hz]
            exact Binary64.rank_ofInt_mono (Int.le_of_lt hxz)
          exact hclash ⟨⟨m, n, hx, hz, hxz⟩, hy, Binary64.rank_injective (by omega),
            Binary64.rank_injective (by omega)⟩
  · rintro htrans ⟨⟨m, n, hx, hz, hlt⟩, hy, hxy, hyz⟩
    refine htrans ?_ ?_ ?_
    · simp [compare_of_right hy, hxy]
    · simp [compare_of_left hy, hyz]
    · rw [compare_of_signed hx hz, ord_eq_gt_iff]
      exact hlt

end Number

namespace Json

/-- Every number of a value belongs to a class; objects are compared as texts, and theirs do not
count. -/
inductive NumbersIn (P : Number → Prop) : Json → Prop
  | null : NumbersIn P .null
  | bool (b : Bool) : NumbersIn P (.bool b)
  | number {n : Number} : P n → NumbersIn P (.number n)
  | string (s : String) : NumbersIn P (.string s)
  | array {items : List Json} : (∀ v ∈ items, NumbersIn P v) → NumbersIn P (.array items)
  | object (members : List (String × Json)) : NumbersIn P (.object members)

inductive SameKind : Json → Json → Prop
  | null : SameKind .null .null
  | bool (a b : Bool) : SameKind (.bool a) (.bool b)
  | number (a b : Number) : SameKind (.number a) (.number b)
  | string (a b : String) : SameKind (.string a) (.string b)
  | array (as bs : List Json) : SameKind (.array as) (.array bs)
  | object (as bs : List (String × Json)) : SameKind (.object as) (.object bs)

theorem sameKind_of_rank {a b : Json} (h : a.kindRank = b.kindRank) : SameKind a b := by
  cases a <;> cases b <;> simp_all [kindRank] <;> constructor

theorem compare_of_rank_ne {a b : Json} (h : a.kindRank ≠ b.kindRank) :
    compare a b = Ord.compare a.kindRank b.kindRank := by
  cases a <;> cases b <;> simp_all [compare, kindRank]

theorem compare_of_rank_lt {a b : Json} (h : a.kindRank < b.kindRank) : compare a b = .lt := by
  rw [compare_of_rank_ne (by omega)]
  exact Nat.compare_eq_lt.mpr h

theorem rank_le_of_compare {a b : Json} (h : compare a b ≠ .gt) : a.kindRank ≤ b.kindRank := by
  by_contra hlt
  rw [compare_of_rank_ne (by omega)] at h
  exact h (Nat.compare_eq_gt.mpr (by omega))

mutual

theorem compare_swap (a b : Json) : compare b a = (compare a b).swap := by
  by_cases hrank : a.kindRank = b.kindRank
  · match a, b, sameKind_of_rank hrank with
    | _, _, .null => rfl
    | _, _, .bool a b => exact Std.OrientedOrd.eq_swap
    | _, _, .number a b => exact Number.compare_swap a b
    | _, _, .string a b => exact Std.OrientedOrd.eq_swap
    | _, _, .array as bs => exact compareItems_swap as bs
    | _, _, .object as bs => exact Std.OrientedOrd.eq_swap
  · rw [compare_of_rank_ne hrank, compare_of_rank_ne (Ne.symm hrank)]
    exact Std.OrientedOrd.eq_swap

theorem compareItems_swap (as bs : List Json) :
    compareItems bs as = (compareItems as bs).swap := by
  match as, bs with
  | [], [] => rfl
  | [], _ :: _ => rfl
  | _ :: _, [] => rfl
  | a :: as, b :: bs =>
    rw [compareItems, compareItems, compare_swap a b, compareItems_swap as bs, Ordering.swap_then]

end

theorem compare_self (a : Json) : compare a a = .eq := by
  have hswap := compare_swap a a
  cases ho : compare a a <;> simp_all

theorem compareItems_transitiveOn {S : Json → Prop} (h : TotalPreorderOn compare S) :
    TransitiveOn compareItems fun as => ∀ a ∈ as, S a := by
  intro as
  induction as with
  | nil =>
    intro bs cs _ _ _ _ _
    cases cs <;> simp [compareItems]
  | cons a as ih =>
    intro bs cs hsa hsb hsc hab hbc
    match bs, cs with
    | [], _ => simp [compareItems] at hab
    | b :: bs, [] => simp [compareItems] at hbc
    | b :: bs, c :: cs =>
      simp only [List.forall_mem_cons] at hsa hsb hsc
      simp only [compareItems] at hab hbc ⊢
      have htail := ih bs cs hsa.2 hsb.2 hsc.2
      exact h.then_ne_gt hsa.1 hsb.1 hsc.1 htail hab hbc

theorem numbersIn_array_iff (P : Number → Prop) (items : List Json) :
    NumbersIn P (.array items) ↔ ∀ v ∈ items, NumbersIn P v := by
  constructor
  · rintro (_ | _ | _ | _ | hitems | _)
    exact hitems
  · exact .array

theorem numbersIn_number_iff (P : Number → Prop) (n : Number) :
    NumbersIn P (.number n) ↔ P n := by
  constructor
  · rintro (_ | _ | hn | _ | _ | _)
    exact hn
  · exact .number

private theorem compare_transitiveOn_below {P : Number → Prop}
    (hP : ∀ x y z, P x → P y → P z → ¬ Number.Clash x y z) (n : Nat) :
    TransitiveOn compare fun v => NumbersIn P v ∧ sizeOf v < n := by
  induction n with
  | zero =>
    intro a _ _ ha
    exact absurd ha.2 (Nat.not_lt_zero _)
  | succ n ih =>
    have below : ∀ items, NumbersIn P (.array items) ∧ sizeOf (Json.array items) < n + 1 →
        ∀ v ∈ items, NumbersIn P v ∧ sizeOf v < n := by
      intro items hitems v hv
      have hsize := List.sizeOf_lt_of_mem hv
      have hbound := hitems.2
      rw [array.sizeOf_spec] at hbound
      exact ⟨(numbersIn_array_iff P items).mp hitems.1 v hv, by omega⟩
    intro a b c ha hb hc hab hbc
    have hrab := rank_le_of_compare hab
    have hrbc := rank_le_of_compare hbc
    by_cases hrac : a.kindRank < c.kindRank
    · simp [compare_of_rank_lt hrac]
    · match a, b, c, sameKind_of_rank (a := a) (b := b) (by omega),
        sameKind_of_rank (a := b) (b := c) (by omega) with
      | _, _, _, .null, .null => simp [compare]
      | _, _, _, .bool a b, .bool _ c => exact ord_trans (a := a) (b := b) (c := c) hab hbc
      | _, _, _, .number x y, .number _ z =>
        have hclash := hP x y z ((numbersIn_number_iff P x).mp ha.1)
          ((numbersIn_number_iff P y).mp hb.1) ((numbersIn_number_iff P z).mp hc.1)
        exact (Number.not_clash_iff x y z).mp hclash hab hbc
      | _, _, _, .string a b, .string _ c => exact ord_trans (a := a) (b := b) (c := c) hab hbc
      | _, _, _, .array as bs, .array _ cs =>
        have hitems : TransitiveOn compareItems fun items =>
            ∀ v ∈ items, NumbersIn P v ∧ sizeOf v < n :=
          compareItems_transitiveOn ⟨compare_swap, ih⟩
        exact hitems as bs cs (below as ha) (below bs hb) (below cs hc) hab hbc
      | _, _, _, .object as bs, .object _ cs =>
        exact ord_trans (a := text (.object as)) (b := text (.object bs))
          (c := text (.object cs)) hab hbc

/-- Values are ordered transitively when no three of the numbers that may be in them clash. -/
theorem compare_transitiveOn {P : Number → Prop}
    (hP : ∀ x y z, P x → P y → P z → ¬ Number.Clash x y z) :
    TransitiveOn compare (NumbersIn P) := by
  intro a b c ha hb hc
  have hlt : ∀ v ∈ [a, b, c], sizeOf v < sizeOf a + sizeOf b + sizeOf c + 1 := by
    simp only [List.forall_mem_cons, List.not_mem_nil, false_implies, implies_true, and_true]
    omega
  exact compare_transitiveOn_below hP _ a b c ⟨ha, hlt a (by simp)⟩ ⟨hb, hlt b (by simp)⟩
    ⟨hc, hlt c (by simp)⟩

theorem transitiveOn_of_numberless {S : Json → Prop}
    (hS : ∀ v, S v → v.NumbersIn fun _ => False) : TransitiveOn compare S := by
  have htrans := compare_transitiveOn (P := fun _ => False) fun _ _ _ hx _ _ => hx.elim
  exact fun a b c ha hb hc => htrans a b c (hS a ha) (hS b hb) (hS c hc)

/-- The order is reflexive and can be swapped, and on the values with numbers of a class it is a
total preorder exactly when no three numbers of the class clash. -/
theorem compare_preorder_iff_no_clash (P : Number → Prop) :
    (∀ a, compare a a = .eq) ∧ (∀ a b, compare b a = (compare a b).swap) ∧
      (TransitiveOn compare (NumbersIn P) ↔
        ∀ x y z, P x → P y → P z → ¬ Number.Clash x y z) := by
  refine ⟨compare_self, compare_swap, ?_, compare_transitiveOn⟩
  intro htrans x y z hx hy hz
  rw [Number.not_clash_iff]
  exact htrans (.number x) (.number y) (.number z) (.number hx) (.number hy) (.number hz)

/-- The words `2 ^ 53` and `2 ^ 53 + 1` differ, and both tie with the double `2 ^ 53`. -/
theorem compare_not_transitive :
    ¬ ∀ a b c, compare a b ≠ .gt → compare b c ≠ .gt → compare a c ≠ .gt := by
  intro htrans
  refine htrans (.number (.int 9007199254740993 (by decide)))
    (.number (.double (.ofInt 9007199254740992)))
    (.number (.int 9007199254740992 (by decide))) ?_ ?_ ?_ <;> decide +kernel

end Json

end Docket
