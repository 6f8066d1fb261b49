import Docket.Client.Fetch
import Mathlib.Algebra.Order.Field.Basic
import Mathlib.Data.Rat.Floor

/-!
Marks of a download. Hits are recorded one at a time. The mark stands at the end of the band of five
percent that the share lies in, so a hit is logged exactly when it takes the share into a further
band, and a download that brings no more hits than expected logs 20 events at most.
-/

set_option autoImplicit false
set_option relaxedAutoImplicit false

namespace Docket

namespace Progress

/-- The band of five percent that the share of `downloaded` hits lies in. The first band is 1; a
share of zero lies before it. -/
def band (total downloaded : Nat) : Nat := ⌈(20 * downloaded / total : ℚ)⌉₊

/-- What raising a mark goes through: the marks that the share passes one after the other, their
number, and the mark that it does not pass. -/
inductive Raises (total downloaded : Nat) : Nat → Nat → Nat → Prop
  | done {mark : Nat} : ¬ Passes total downloaded mark → Raises total downloaded mark 0 mark
  | passed {mark steps last : Nat} : Passes total downloaded mark →
      Raises total downloaded (mark + step) steps last →
      Raises total downloaded mark (steps + 1) last

def after (total : Nat) : Nat → Progress
  | 0 => start total
  | n + 1 => ((after total n).record (n + 1)).1

/-- What is logged as the hit of a number comes. The first hit has the number 1. -/
def logged (total : Nat) : Nat → List Event
  | 0 => []
  | n + 1 => ((after total n).record (n + 1)).2

section Bands

variable {total downloaded k : Nat}

private theorem passes_iff_lt_share (hpos : 0 < total) (downloaded mark : Nat) :
    Passes total downloaded mark ↔ (mark : ℚ) < 100 * downloaded / total := by
  have htotal : (0 : ℚ) < total := Nat.cast_pos.mpr hpos
  rw [lt_div_iff₀ htotal, Passes]
  exact_mod_cast Iff.rfl

private theorem band_le_iff (hpos : 0 < total) :
    band total downloaded ≤ k ↔ 20 * downloaded ≤ k * total := by
  have htotal : (0 : ℚ) < total := Nat.cast_pos.mpr hpos
  rw [band, Nat.ceil_le, div_le_iff₀ htotal]
  exact_mod_cast Iff.rfl

private theorem passes_iff_lt_band (hpos : 0 < total) :
    Passes total downloaded (step * k) ↔ k < band total downloaded := by
  have hend : step * k * total = 5 * (k * total) := Nat.mul_assoc ..
  rw [← Nat.not_le, band_le_iff hpos, Passes, hend]
  omega

private theorem band_mono (hpos : 0 < total) {i j : Nat} (hij : i ≤ j) :
    band total i ≤ band total j := by
  have hlast := (band_le_iff hpos).mp (Nat.le_refl (band total j))
  exact (band_le_iff hpos).mpr (by omega)

private theorem band_zero (total : Nat) : band total 0 = 0 := by
  simp [band]

private theorem band_le_twenty (hpos : 0 < total) (hle : downloaded ≤ total) :
    band total downloaded ≤ 20 :=
  (band_le_iff hpos).mpr (Nat.mul_le_mul_left 20 hle)

end Bands

section Raising

variable {total downloaded : Nat}

private theorem raises_raise (hpos : 0 < total) (downloaded mark : Nat) :
    ∃ steps, Raises total downloaded mark steps (raise total downloaded mark) := by
  fun_induction raise total downloaded mark with
  | case1 mark hpasses ih =>
    obtain ⟨steps, hsteps⟩ := ih
    exact ⟨steps + 1, .passed hpasses.2 hsteps⟩
  | case2 mark hstops => exact ⟨0, .done fun hpasses => hstops ⟨hpos, hpasses⟩⟩

theorem Raises.eq_of_band (hpos : 0 < total) {mark steps last : Nat}
    (h : Raises total downloaded mark steps last) {k : Nat} (hmark : mark = step * k) :
    steps = band total downloaded - k ∧ last = step * (k + steps) := by
  induction h generalizing k with
  | done hstops =>
    subst hmark
    rw [passes_iff_lt_band hpos] at hstops
    exact ⟨by omega, rfl⟩
  | passed hpasses _ ih =>
    subst hmark
    rw [passes_iff_lt_band hpos] at hpasses
    obtain ⟨hsteps, hlast⟩ := ih (k := k + 1) rfl
    refine ⟨by omega, ?_⟩
    rw [hlast, Nat.add_right_comm, Nat.add_assoc]

private theorem raise_band (hpos : 0 < total) (k : Nat) :
    raise total downloaded (step * k) = step * max k (band total downloaded) := by
  obtain ⟨steps, hraises⟩ := raises_raise hpos downloaded (step * k)
  obtain ⟨hsteps, hlast⟩ := hraises.eq_of_band hpos rfl
  rw [hlast, hsteps]
  congr 1
  omega

end Raising

section Recording

variable {total : Nat}

theorem record_of_total_eq_zero {p : Progress} (h : p.total = 0) (downloaded : Nat) :
    p.record downloaded = (p, []) := by
  rw [record, if_neg]
  omega

theorem record_ends (p : Progress) (downloaded : Nat) :
    p.total = 0 ∧ p.record downloaded = (p, []) ∨
      ∃ steps, Raises p.total downloaded p.mark steps (p.record downloaded).1.mark := by
  rcases Nat.eq_zero_or_pos p.total with hzero | hpos
  · exact .inl ⟨hzero, record_of_total_eq_zero hzero downloaded⟩
  · right
    rw [record]
    split
    · exact raises_raise hpos downloaded p.mark
    · rename_i hstops
      exact ⟨0, .done fun hpasses => hstops ⟨hpos, hpasses⟩⟩

theorem record_band (hpos : 0 < total) (k downloaded : Nat) :
    record ⟨total, step * k⟩ downloaded =
      (⟨total, step * max k (band total downloaded)⟩,
        if k < band total downloaded then [event total downloaded] else []) := by
  simp only [record, hpos, true_and, passes_iff_lt_band hpos, raise_band hpos]
  split
  · rfl
  · rename_i hsame
    rw [Nat.max_eq_left (Nat.not_lt.mp hsame)]

private theorem after_eq_band (hpos : 0 < total) (n : Nat) :
    after total n = ⟨total, step * band total n⟩ := by
  induction n with
  | zero => rw [after, start, band_zero, Nat.mul_zero]
  | succ n ih =>
    rw [after, ih, record_band hpos, Nat.max_eq_right (band_mono hpos n.le_succ)]

private theorem logged_succ (hpos : 0 < total) (n : Nat) :
    logged total (n + 1) =
      if band total n < band total (n + 1) then [event total (n + 1)] else [] := by
  rw [logged, after_eq_band hpos, record_band hpos]

private theorem band_lt_of_logged (hpos : 0 < total) {i j : Nat} (hij : i < j)
    (hlogged : logged total j ≠ []) : band total i < band total j := by
  cases j with
  | zero => omega
  | succ n =>
    rw [logged_succ hpos] at hlogged
    split at hlogged
    · rename_i hfurther
      exact Nat.lt_of_le_of_lt (band_mono hpos (Nat.le_of_lt_succ hij)) hfurther
    · exact absurd rfl hlogged

theorem eq_of_band_eq (hpos : 0 < total) {i j : Nat} (hi : logged total i ≠ [])
    (hj : logged total j ≠ []) (hband : band total i = band total j) : i = j := by
  rcases Nat.lt_trichotomy i j with hlt | heq | hgt
  · have hless := band_lt_of_logged hpos hlt hj
    omega
  · exact heq
  · have hless := band_lt_of_logged hpos hgt hi
    omega

private theorem length_logged_le (hpos : 0 < total) (n : Nat) :
    ((List.range' 1 n).flatMap (logged total)).length ≤ band total n := by
  induction n with
  | zero => exact Nat.zero_le _
  | succ n ih =>
    have hmono : band total n ≤ band total (n + 1) := band_mono hpos n.le_succ
    rw [List.range'_concat, List.flatMap_append, List.length_append, Nat.one_mul, Nat.add_comm 1 n,
      List.flatMap_singleton, logged_succ hpos]
    split
    · rw [List.length_singleton]
      omega
    · rw [List.length_nil]
      omega

private theorem logged_of_total_eq_zero (n : Nat) : logged 0 n = [] := by
  have hafter : ∀ n, (after 0 n).total = 0 := by
    intro n
    induction n with
    | zero => rfl
    | succ n ih => rw [after, record_of_total_eq_zero ih, ih]
  cases n with
  | zero => rfl
  | succ n => rw [logged, record_of_total_eq_zero (hafter n)]

end Recording

end Progress

namespace Fetch

open Progress

def drained : List (Except EngineError Hit) → Nat
  | .ok _ :: rest => drained rest + 1
  | _ => 0

private theorem log_collect (total count : Nat) (items : List (Except EngineError Hit)) :
    (collect (after total count) count items).log =
      (List.range' (count + 1) (drained items)).flatMap (logged total) := by
  induction items generalizing count with
  | nil => rfl
  | cons item items ih =>
    cases item with
    | error e => rfl
    | ok hit =>
      rw [drained, List.range'_succ, List.flatMap_cons, ← ih (count + 1)]
      rfl

/-- A stream logs a hit exactly when its share lies in a further band of five percent than that of
the hit before. So a band is logged once at most, and up to the total there are no more than 20
events; the mark is the end of the band. Every call comes to an end, and with a total of zero
nothing is ever logged. -/
theorem collect_logs_bands (total : Nat) (items : List (Except EngineError Hit)) :
    let log := (collect (start total) 0 items).log
    log = (List.range' 1 (drained items)).flatMap (logged total) ∧
    (∀ (p : Progress) (downloaded : Nat), p.total = 0 ∧ p.record downloaded = (p, []) ∨
      ∃ steps, Raises p.total downloaded p.mark steps (p.record downloaded).1.mark) ∧
    (total = 0 → log = []) ∧
    (0 < total →
      (∀ downloaded mark : Nat,
        Passes total downloaded mark ↔ (mark : ℚ) < 100 * downloaded / total) ∧
      (∀ n, (after total n).mark = 5 * band total n) ∧
      (∀ n, logged total (n + 1) =
        if band total n < band total (n + 1) then [event total (n + 1)] else []) ∧
      (∀ i j, logged total i ≠ [] → logged total j ≠ [] → band total i = band total j → i = j) ∧
      (drained items ≤ total → log.length ≤ 20)) := by
  intro log
  have hlog : log = (List.range' 1 (drained items)).flatMap (logged total) :=
    log_collect total 0 items
  refine ⟨hlog, record_ends, ?_, ?_⟩
  · rintro rfl
    rw [hlog, List.flatMap_eq_nil_iff]
    exact fun n _ => logged_of_total_eq_zero n
  · intro hpos
    refine ⟨passes_iff_lt_share hpos, ?_, logged_succ hpos, fun i j => eq_of_band_eq hpos, ?_⟩
    · intro n
      rw [after_eq_band hpos, step]
    · intro hdrained
      rw [hlog]
      exact (length_logged_le hpos _).trans (band_le_twenty hpos hdrained)

theorem collect_logs_bands_three :
    let hits : List (Except EngineError Hit) := List.replicate 3 (.ok .empty)
    let log := (collect (start 3) 0 hits).log
    0 < 3 ∧ drained hits ≤ 3 ∧ log = [event 3 1, event 3 2, event 3 3] ∧ log.length ≤ 20 ∧
      (after 3 1).mark = 35 := by
  intro hits log
  have hdrained : drained hits ≤ 3 := Nat.le_refl 3
  obtain ⟨hlog, -, -, hbands⟩ := collect_logs_bands 3 hits
  obtain ⟨-, hmark, hlogged, -, hfew⟩ := hbands (by decide)
  have hbegun : [0, 1, 2, 3].map (band 3) = [0, 7, 14, 20] := by decide +kernel
  simp only [List.map_cons, List.map_nil, List.cons.injEq, and_true] at hbegun
  obtain ⟨hzero, hone, htwo, hthree⟩ := hbegun
  refine ⟨by decide, hdrained, ?_, hfew hdrained, ?_⟩
  · have hnumbers : List.range' 1 (drained hits) = [1, 2, 3] := rfl
    simp [log, hlog, hnumbers, hlogged, hzero, hone, htwo, hthree]
  · rw [hmark, hone]

end Fetch

end Docket
