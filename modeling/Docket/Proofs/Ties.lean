import Docket.Proofs.Order
import Mathlib.Data.List.Forall2

/-!
Values that tie. As long as whole numbers stay within the 53rd power of two, comparing them exactly
and comparing them as doubles comes to the same, so the order of values is a total preorder, and the
values that it does not tell apart are described kind by kind.
-/

set_option autoImplicit false
set_option relaxedAutoImplicit false

namespace Docket

namespace Number

/-- A double, or a whole number up to the 53rd power of two; all of these are doubles as well. -/
def Exact : Number → Prop
  | .int n _ => n.natAbs ≤ 2 ^ 53
  | .double _ => True

instance : DecidablePred Exact := fun
  | .int n _ => inferInstanceAs (Decidable (n.natAbs ≤ 2 ^ 53))
  | .double _ => isTrue trivial

variable {x y z : Number}

private theorem natAbs_le_of_signed {n : Int} (hx : x.Exact) (h : x.signed? = some n) :
    n.natAbs ≤ 2 ^ 53 := by
  cases x with
  | double x => simp [signed?] at h
  | int value inRange =>
    simp only [signed?] at h
    split at h
    · rw [← Option.some.inj h]
      exact hx
    · simp at h

private theorem compare_eq_iff (hx : x.Exact) (hy : y.Exact) :
    x.compare y = .eq ↔ x.toBinary64 = y.toBinary64 := by
  have hranks : Ord.compare x.toBinary64.rank y.toBinary64.rank = .eq ↔
      x.toBinary64 = y.toBinary64 := by
    rw [Std.compare_eq_iff_eq]
    exact ⟨Binary64.rank_injective, fun h => h ▸ rfl⟩
  cases hm : x.signed? with
  | none => rw [compare_of_left hm, hranks]
  | some m =>
    cases hn : y.signed? with
    | none => rw [compare_of_right hn, hranks]
    | some n =>
      rw [compare_of_signed hm hn, Std.compare_eq_iff_eq, toBinary64_of_signed hm,
        toBinary64_of_signed hn]
      exact (Binary64.ofInt_inj (natAbs_le_of_signed hx hm) (natAbs_le_of_signed hy hn)).symm

private theorem not_clash_of_exact (hx : x.Exact) (hz : z.Exact) : ¬ Clash x y z := by
  rintro ⟨⟨m, n, hm, hn, hlt⟩, -, hxy, hyz⟩
  have hdouble := hxy.trans hyz
  rw [toBinary64_of_signed hm, toBinary64_of_signed hn,
    Binary64.ofInt_inj (natAbs_le_of_signed hx hm) (natAbs_le_of_signed hz hn)] at hdouble
  omega

end Number

namespace Json

/-- Nulls, equal truth values and equal strings, numbers with the same double, lists of the same
length that tie item by item, and objects with the same text. -/
inductive Ties : Json → Json → Prop
  | null : Ties .null .null
  | bool (b : Bool) : Ties (.bool b) (.bool b)
  | number {x y : Number} : x.toBinary64 = y.toBinary64 → Ties (.number x) (.number y)
  | string (s : String) : Ties (.string s) (.string s)
  | array {as bs : List Json} : List.Forall₂ Ties as bs → Ties (.array as) (.array bs)
  | object {as bs : List (String × Json)} :
      text (.object as) = text (.object bs) → Ties (.object as) (.object bs)

private theorem Ties.kindRank_eq {a b : Json} (h : Ties a b) : a.kindRank = b.kindRank := by
  cases h <;> rfl

private theorem kindRank_eq_of_compare {a b : Json} (h : compare a b = .eq) :
    a.kindRank = b.kindRank := by
  by_contra hne
  rw [compare_of_rank_ne hne] at h
  exact hne (Nat.compare_eq_eq.mp h)

mutual

private theorem compare_eq_iff_ties (a b : Json) (ha : NumbersIn Number.Exact a)
    (hb : NumbersIn Number.Exact b) : compare a b = .eq ↔ Ties a b := by
  by_cases hrank : a.kindRank = b.kindRank
  · match a, b, sameKind_of_rank hrank with
    | _, _, .null => exact ⟨fun _ => .null, fun _ => rfl⟩
    | _, _, .bool a b =>
      rw [compare, Std.compare_eq_iff_eq]
      constructor
      · rintro rfl
        exact .bool a
      · rintro ⟨⟩
        rfl
    | _, _, .number x y =>
      rw [numbersIn_number_iff] at ha hb
      rw [compare, Number.compare_eq_iff ha hb]
      constructor
      · exact .number
      · rintro (_ | _ | hdouble)
        exact hdouble
    | _, _, .string a b =>
      rw [compare, Std.compare_eq_iff_eq]
      constructor
      · rintro rfl
        exact .string a
      · rintro ⟨⟩
        rfl
    | _, _, .array as bs =>
      rw [numbersIn_array_iff] at ha hb
      rw [compare, compareItems_eq_iff_ties as bs ha hb]
      constructor
      · exact .array
      · rintro (_ | _ | _ | _ | hitems)
        exact hitems
    | _, _, .object as bs =>
      rw [compare, Std.compare_eq_iff_eq]
      constructor
      · exact .object
      · rintro (_ | _ | _ | _ | _ | htext)
        exact htext
  · exact ⟨fun h => absurd (kindRank_eq_of_compare h) hrank, fun h => absurd h.kindRank_eq hrank⟩

private theorem compareItems_eq_iff_ties (as bs : List Json)
    (ha : ∀ a ∈ as, NumbersIn Number.Exact a) (hb : ∀ b ∈ bs, NumbersIn Number.Exact b) :
    compareItems as bs = .eq ↔ List.Forall₂ Ties as bs := by
  match as, bs with
  | [], [] => simp [compareItems]
  | [], _ :: _ => simp [compareItems]
  | _ :: _, [] => simp [compareItems]
  | a :: as, b :: bs =>
    rw [List.forall_mem_cons] at ha hb
    rw [compareItems, Ordering.then_eq_eq, List.forall₂_cons, compare_eq_iff_ties a b ha.1 hb.1,
      compareItems_eq_iff_ties as bs ha.2 hb.2]

end

/-- While the whole numbers outside objects stay within the 53rd power of two, the order is a total
preorder, and it answers equal for exactly the values that tie. -/
theorem compare_preorder_with_ties :
    TotalPreorderOn compare (NumbersIn Number.Exact) ∧
      ∀ a b, NumbersIn Number.Exact a → NumbersIn Number.Exact b →
        (compare a b = .eq ↔ Ties a b) := by
  refine ⟨⟨compare_swap, ?_⟩, compare_eq_iff_ties⟩
  exact compare_transitiveOn fun x y z hx _ hz => Number.not_clash_of_exact hx hz

def bounds (ofWord : (n : Int) → InWord n → Number) : Json :=
  .array [.number (ofWord 1 (by decide)), .number (ofWord 9007199254740992 (by decide)),
    .object [("n", .number (.int 9007199254740993 (by decide)))]]

theorem compare_preorder_with_ties_bounds :
    let words := bounds .int
    let doubles := bounds fun n _ => .double (.ofInt n)
    let zero : Json := .number (.int 0 (by decide))
    let minusZero : Json := .number (.double (.atPlace true 0))
    (∀ v ∈ [words, doubles, zero, minusZero], NumbersIn Number.Exact v) ∧
      compare words doubles = .eq ∧ compare zero minusZero ≠ .eq := by
  intro words doubles zero minusZero
  have hwords : NumbersIn Number.Exact words := by
    refine .array fun v hv => ?_
    simp only [List.mem_cons, List.not_mem_nil, or_false] at hv
    rcases hv with rfl | rfl | rfl
    · exact .number (by decide)
    · exact .number (by decide)
    · exact .object _
  have hdoubles : NumbersIn Number.Exact doubles := by
    refine .array fun v hv => ?_
    simp only [List.mem_cons, List.not_mem_nil, or_false] at hv
    rcases hv with rfl | rfl | rfl
    · exact .number trivial
    · exact .number trivial
    · exact .object _
  have hzero : NumbersIn Number.Exact zero := .number (by decide)
  have hminus : NumbersIn Number.Exact minusZero := .number trivial
  obtain ⟨-, hties⟩ := compare_preorder_with_ties
  refine ⟨by simp [hwords, hdoubles, hzero, hminus], ?_, ?_⟩
  · rw [hties words doubles hwords hdoubles]
    exact .array (.cons (.number rfl) (.cons (.number rfl) (.cons (.object rfl) .nil)))
  · rw [Ne, hties zero minusZero hzero hminus]
    change ¬ Ties (.number _) (.number _)
    rintro (_ | _ | hdouble)
    exact absurd hdouble (by decide +kernel)

end Json

end Docket
