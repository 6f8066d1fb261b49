import Docket.Number
import Mathlib.Algebra.Group.Nat.Defs
import Mathlib.Tactic.SplitIfs

/-!
Rounding of whole numbers to doubles keeps their order, so two whole numbers and all that lies
between them share a double as soon as the two do. Up to the 53rd power of two no two of them do.
-/

set_option autoImplicit false
set_option relaxedAutoImplicit false

namespace Docket.Binary64

def shiftOf (units : Nat) : Nat := units.log2 - 52

def placeOfUnits (units : Nat) : Nat :=
  shiftOf units * binade + roundHalfEven units (Nat.pow 2 (shiftOf units))

private theorem roundHalfEven_mono {a b : Nat} (den : Nat) (hab : a ≤ b) :
    roundHalfEven a den ≤ roundHalfEven b den := by
  have hq : a / den ≤ b / den := Nat.div_le_div_right hab
  rcases Nat.lt_or_eq_of_le hq with hlt | heq
  · simp only [roundHalfEven]
    split_ifs <;> omega
  · have ha := Nat.div_add_mod a den
    have hb := Nat.div_add_mod b den
    rw [← heq] at hb
    simp only [roundHalfEven, ← heq]
    split_ifs <;> omega

private theorem roundHalfEven_mul (k : Nat) {den : Nat} (hden : 0 < den) :
    roundHalfEven (k * den) den = k := by
  simp [roundHalfEven, Nat.mul_div_cancel k hden, hden]

private theorem le_roundHalfEven {k num den : Nat} (hden : 0 < den) (h : k * den ≤ num) :
    k ≤ roundHalfEven num den := by
  have hmono := roundHalfEven_mono den h
  rwa [roundHalfEven_mul k hden] at hmono

private theorem roundHalfEven_le {k num den : Nat} (hden : 0 < den) (h : num ≤ k * den) :
    roundHalfEven num den ≤ k := by
  have hmono := roundHalfEven_mono den h
  rwa [roundHalfEven_mul k hden] at hmono

private theorem log2_mono {a b : Nat} (hab : a ≤ b) : a.log2 ≤ b.log2 := by
  by_cases ha : a = 0
  · simp [ha]
  · have hb : b ≠ 0 := by omega
    exact (Nat.le_log2 hb).mpr (Nat.le_trans (Nat.log2_self_le ha) hab)

private theorem shiftOf_mono {a b : Nat} (hab : a ≤ b) : shiftOf a ≤ shiftOf b :=
  Nat.sub_le_sub_right (log2_mono hab) 52

private theorem significand_le (units : Nat) :
    roundHalfEven units (Nat.pow 2 (shiftOf units)) ≤ 2 * binade := by
  refine roundHalfEven_le (Nat.two_pow_pos _) ?_
  have hlt : units < 2 ^ (units.log2 + 1) := Nat.lt_log2_self
  have hpow : 2 ^ (units.log2 + 1) ≤ 2 ^ (53 + shiftOf units) :=
    Nat.pow_le_pow_right (by decide) (by simp only [shiftOf]; omega)
  have hsplit : 2 ^ (53 + shiftOf units) = 2 * binade * Nat.pow 2 (shiftOf units) := by
    rw [Nat.pow_add]
    rfl
  omega

private theorem le_significand {units : Nat} (hshift : 0 < shiftOf units) :
    binade ≤ roundHalfEven units (Nat.pow 2 (shiftOf units)) := by
  refine le_roundHalfEven (Nat.two_pow_pos _) ?_
  have hunits : units ≠ 0 := by
    rintro rfl
    simp [shiftOf] at hshift
  have hle : 2 ^ units.log2 ≤ units := Nat.log2_self_le hunits
  have hlog : units.log2 = 52 + shiftOf units := by
    simp only [shiftOf] at hshift ⊢
    omega
  have hsplit : 2 ^ (52 + shiftOf units) = binade * Nat.pow 2 (shiftOf units) := by
    rw [Nat.pow_add]
    rfl
  rw [hlog, hsplit] at hle
  exact hle

private theorem placeOfUnits_mono {a b : Nat} (hab : a ≤ b) : placeOfUnits a ≤ placeOfUnits b := by
  rcases Nat.lt_or_eq_of_le (shiftOf_mono hab) with hlt | heq
  · -- The larger number is in a higher binade, which starts where the lower one ends.
    have hhigh := le_significand (Nat.zero_lt_of_lt hlt)
    have hlow := significand_le a
    have hstep : (shiftOf a + 1) * binade ≤ shiftOf b * binade := Nat.mul_le_mul_right _ hlt
    rw [Nat.add_mul] at hstep
    simp only [placeOfUnits]
    omega
  · have hround := roundHalfEven_mono (Nat.pow 2 (shiftOf b)) hab
    simp only [placeOfUnits, heq]
    omega

private theorem nearest_whole (n : Nat) : nearest n 1 = placeOfUnits (n * unitsPerOne) := by
  have hlog : (1 : Nat).log2 = 0 := by decide
  simp only [nearest, placeOfUnits, shiftOf, Nat.pow_eq, hlog, Nat.one_mul]
  generalize hunits : n * unitsPerOne = units
  by_cases hlow : units.log2 ≤ 52
  · have hbound : units < 2 ^ (units.log2 + 1) := Nat.lt_log2_self
    have hpow : 2 ^ (units.log2 + 1) ≤ 2 ^ 53 := Nat.pow_le_pow_right (by decide) (by omega)
    have hzero : units.log2 - 0 - 53 = 0 := by omega
    have hzero' : units.log2 - 52 = 0 := by omega
    rw [hzero, hzero', if_pos (by simpa using Nat.lt_of_lt_of_le hbound hpow)]
  · have hne : units ≠ 0 := by
      rintro rfl
      simp at hlow
    have hle : 2 ^ units.log2 ≤ units := Nat.log2_self_le hne
    have hsum : units.log2 - 0 - 53 + 53 = units.log2 := by omega
    have hshift : units.log2 - 0 - 53 + 1 = units.log2 - 52 := by omega
    rw [hsum, if_neg (by omega), hshift]

private theorem nearest_whole_mono {m n : Nat} (h : m ≤ n) : nearest m 1 ≤ nearest n 1 := by
  rw [nearest_whole, nearest_whole]
  exact placeOfUnits_mono (Nat.mul_le_mul_right _ h)

private theorem atPlace_negative (negative : Bool) (place : Nat) :
    (atPlace negative place).negative = negative := by
  rw [atPlace]
  split <;> rfl

private theorem atPlace_place (negative : Bool) (place : Nat) :
    (atPlace negative place).place = min place (beyond - 1) := by
  rw [atPlace]
  split
  · simp only
    omega
  · simp only
    omega

private theorem rank_ofInt (n : Int) :
    (ofInt n).rank = if n < 0 then -((min (nearest n.natAbs 1) (beyond - 1) : Nat) : Int) - 1
      else (min (nearest n.natAbs 1) (beyond - 1) : Nat) := by
  simp only [rank, ofInt, atPlace_negative, atPlace_place, decide_eq_true_eq]

theorem rank_ofInt_mono {m n : Int} (h : m ≤ n) : (ofInt m).rank ≤ (ofInt n).rank := by
  rw [rank_ofInt, rank_ofInt]
  by_cases hm : m < 0
  · by_cases hn : n < 0
    · have hplace := nearest_whole_mono (m := n.natAbs) (n := m.natAbs) (by omega)
      simp only [hm, hn, if_true]
      omega
    · simp only [hm, hn, if_true, if_false]
      omega
  · have hn : ¬ n < 0 := by omega
    have hplace := nearest_whole_mono (m := m.natAbs) (n := n.natAbs) (by omega)
    simp only [hm, hn, if_false]
    omega

theorem rank_injective {x y : Binary64} (h : x.rank = y.rank) : x = y := by
  obtain ⟨negx, px, hx⟩ := x
  obtain ⟨negy, py, hy⟩ := y
  simp only [rank] at h
  cases negx <;> cases negy <;> simp only [if_true, if_false, Bool.false_eq_true] at h
  · simp only [mk.injEq, true_and]
    omega
  · omega
  · omega
  · simp only [mk.injEq, true_and]
    omega

section Exactness

/-- A significand of 53 bits and its shift are read off the place that they make. -/
theorem significand_scaled {shift m : Nat} (hlow : shift = 0 ∨ binade ≤ m)
    (hhigh : m < 2 * binade) :
    significand (shift * binade + m) = (m, shift) := by
  rw [significand]
  by_cases hsmall : shift * binade + m < binade
  · rw [if_pos hsmall, Prod.mk.injEq]
    simp only [binade] at hlow hsmall
    have hshift : shift = 0 := by omega
    simp [hshift]
  · rw [if_neg hsmall, Prod.mk.injEq]
    simp only [binade] at hlow hhigh hsmall ⊢
    omega

/-- A number of units that its shift divides is the value at its own place. -/
theorem units_placeOfUnits {u : Nat} (h : 2 ^ shiftOf u ∣ u) : units (placeOfUnits u) = u := by
  obtain ⟨m, hm⟩ := h
  have hpow : 0 < 2 ^ shiftOf u := Nat.two_pow_pos _
  have hround : roundHalfEven u (Nat.pow 2 (shiftOf u)) = m := by
    have hmul : roundHalfEven (m * 2 ^ shiftOf u) (2 ^ shiftOf u) = m := roundHalfEven_mul m hpow
    rwa [Nat.mul_comm, ← hm] at hmul
  have hlow : shiftOf u = 0 ∨ binade ≤ m := by
    rcases Nat.eq_zero_or_pos (shiftOf u) with hzero | hpos
    · exact .inl hzero
    · exact .inr (hround ▸ le_significand hpos)
  have hhigh : m < 2 * binade := by
    have hlt : u < 2 ^ (u.log2 + 1) := Nat.lt_log2_self
    have hle : 2 ^ (u.log2 + 1) ≤ 2 ^ (shiftOf u + 53) :=
      Nat.pow_le_pow_right (by decide) (by simp only [shiftOf]; omega)
    have hsplit : 2 ^ (shiftOf u + 53) = 2 ^ shiftOf u * (2 * binade) := by
      rw [Nat.pow_add]
      rfl
    refine Nat.lt_of_mul_lt_mul_left (a := 2 ^ shiftOf u) ?_
    omega
  have hunits : units (shiftOf u * binade + m) = m * 2 ^ shiftOf u := by
    rw [units, significand_scaled hlow hhigh]
    rfl
  rw [placeOfUnits, hround, hunits, Nat.mul_comm, ← hm]

private theorem unitsPerOne_eq_two_pow : ∃ k, unitsPerOne = 2 ^ k := by
  unfold unitsPerOne
  generalize 1074 = exponent
  exact ⟨exponent, rfl⟩

private theorem log2_mul_two_pow {n : Nat} (hn : n ≠ 0) (k : Nat) :
    (n * 2 ^ k).log2 = n.log2 + k := by
  have hlow : 2 ^ n.log2 * 2 ^ k ≤ n * 2 ^ k := Nat.mul_le_mul_right _ (Nat.log2_self_le hn)
  have hhigh : n * 2 ^ k < 2 ^ (n.log2 + 1) * 2 ^ k :=
    Nat.mul_lt_mul_of_pos_right Nat.lt_log2_self (Nat.two_pow_pos k)
  rw [← Nat.pow_add] at hlow hhigh
  have hexponent : n.log2 + 1 + k = n.log2 + k + 1 := by omega
  rw [hexponent] at hhigh
  exact (Nat.log2_eq_iff (Nat.mul_ne_zero hn (Nat.ne_of_gt (Nat.two_pow_pos k)))).mpr ⟨hlow, hhigh⟩

private theorem units_nearest_whole {n : Nat} (hn : n ≤ 2 ^ 53) :
    units (nearest n 1) = n * unitsPerOne := by
  rw [nearest_whole]
  apply units_placeOfUnits
  obtain ⟨k, hk⟩ := unitsPerOne_eq_two_pow
  by_cases hzero : n = 0
  · simp [hzero]
  have hshift : shiftOf (n * unitsPerOne) = n.log2 + k - 52 := by
    rw [shiftOf, hk, log2_mul_two_pow hzero]
  rw [hshift, hk]
  rcases Nat.lt_or_eq_of_le hn with hlt | rfl
  · have hlog : n.log2 < 53 := (Nat.log2_lt hzero).mpr hlt
    exact Nat.dvd_trans (Nat.pow_dvd_pow 2 (by omega)) (Nat.dvd_mul_left (2 ^ k) n)
  · -- the bound itself takes 54 bits, of which the last is zero
    rw [← Nat.pow_add, Nat.log2_two_pow]
    exact Nat.pow_dvd_pow 2 (by omega)

private theorem nearest_whole_lt_beyond {n : Nat} (hn : n ≤ 2 ^ 53) : nearest n 1 < beyond := by
  have hbound : nearest (2 ^ 53) 1 < beyond := by decide +kernel
  exact Nat.lt_of_le_of_lt (nearest_whole_mono hn) hbound

theorem ofInt_inj {m n : Int} (hm : m.natAbs ≤ 2 ^ 53) (hn : n.natAbs ≤ 2 ^ 53) :
    ofInt m = ofInt n ↔ m = n := by
  refine ⟨fun h => ?_, fun h => h ▸ rfl⟩
  have hrank := congrArg rank h
  have hmbeyond := nearest_whole_lt_beyond hm
  have hnbeyond := nearest_whole_lt_beyond hn
  rw [rank_ofInt, rank_ofInt, Nat.min_eq_left (by omega), Nat.min_eq_left (by omega)] at hrank
  have hplace : nearest m.natAbs 1 = nearest n.natAbs 1 → m.natAbs = n.natAbs := by
    intro heq
    have hunits := congrArg units heq
    rw [units_nearest_whole hm, units_nearest_whole hn] at hunits
    obtain ⟨k, hk⟩ := unitsPerOne_eq_two_pow
    exact Nat.mul_right_cancel (hk ▸ Nat.two_pow_pos k) hunits
  by_cases hmneg : m < 0 <;> by_cases hnneg : n < 0 <;>
    simp only [hmneg, hnneg, if_true, if_false] at hrank <;> omega

end Exactness

end Docket.Binary64
