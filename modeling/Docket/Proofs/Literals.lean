import Docket.Json.Tree
import Mathlib.Data.List.TakeDrop

/-!
Whole numbers read back. The digits of a whole number are read up to what follows them, unless that
would continue the number, and their value is the number itself.
-/

set_option autoImplicit false
set_option relaxedAutoImplicit false

namespace Docket

namespace Number

section Digits

theorem isDigit_of_mem_digits {c : Char} {n : Nat} (hc : c ∈ digits n) : c.isDigit = true :=
  Nat.isDigit_of_mem_toDigits (by decide) (by decide) hc

theorem digits_ne_nil (n : Nat) : digits n ≠ [] := Nat.toDigits_ne_nil

private theorem digits_step {n : Nat} (hn : 10 ≤ n) :
    digits n = digits (n / 10) ++ [(n % 10).digitChar] :=
  Nat.toDigits_of_base_le (by decide) hn

private theorem digits_small {n : Nat} (hn : n < 10) : digits n = [n.digitChar] :=
  Nat.toDigits_of_lt_base hn

private theorem digits_ne_zero_cons {n : Nat} (hn : n ≠ 0) (rest : List Char) :
    digits n ≠ '0' :: rest := by
  induction n using Nat.strongRecOn generalizing rest with
  | _ n ih =>
    by_cases hsmall : n < 10
    · rw [digits_small hsmall]
      have hall : ∀ m < 10, m ≠ 0 → m.digitChar ≠ '0' := by decide
      intro heq
      have hhead : n.digitChar = '0' := by
        simpa using congrArg List.head? heq
      exact hall n hsmall hn hhead
    · rw [digits_step (by omega)]
      intro heq
      obtain ⟨d, ds, hds⟩ := List.exists_cons_of_ne_nil (digits_ne_nil (n / 10))
      have hd : d = '0' := by
        rw [hds, List.cons_append] at heq
        exact (List.cons.inj heq).1
      exact ih (n / 10) (by omega) (by omega) ds (by rw [hds, hd])

private theorem digitsValue_digits (n : Nat) : digitsValue 0 (digits n) = n := by
  have hvalue : digitsValue 0 (digits n) = Nat.ofDigitChars 10 (digits n) 0 := by
    simp only [digitsValue, digitValue, Nat.ofDigitChars, Nat.mul_comm]
  rw [hvalue]
  exact Nat.ofDigitChars_ten_toDigits

private theorem le_digitsValue (value : Nat) (ds : List Char) : value ≤ digitsValue value ds := by
  induction ds generalizing value with
  | nil => exact Nat.le_refl value
  | cons c ds ih =>
    have hstep : value * 10 + digitValue c ≤ digitsValue value (c :: ds) := ih _
    omega

private theorem takeWord_of_lt {value : Nat} {ds : List Char}
    (h : digitsValue value ds < wordBound) :
    takeWord value ds = (digitsValue value ds, []) := by
  induction ds generalizing value with
  | nil => rfl
  | cons c ds ih =>
    have hstep : digitsValue value (c :: ds) = digitsValue (value * 10 + digitValue c) ds := rfl
    have hle := le_digitsValue (value * 10 + digitValue c) ds
    rw [takeWord, if_pos (by omega), hstep]
    exact ih (by omega)

end Digits

def literal (n : Int) : Literal := ⟨decide (n < 0), digits n.natAbs, none, none⟩

private theorem ofWord_natAbs (n : Int) (hn : InWord n) :
    ofWord (decide (n < 0)) n.natAbs = .int n hn := by
  have hint : ofInt? n = some (.int n hn) := by rw [ofInt?, dif_pos hn]
  by_cases hneg : n < 0
  · have hvalue : -(n.natAbs : Int) = n := by omega
    have hzero : (n.natAbs == 0) = false := by
      simp only [beq_eq_false_iff_ne]
      omega
    simp only [ofWord, hneg, decide_true, hzero, Bool.and_false, Bool.false_eq_true, if_false,
      if_true, hvalue, hint, Option.getD_some]
  · have hvalue : (n.natAbs : Int) = n := by omega
    simp only [ofWord, hneg, decide_false, Bool.false_and, Bool.false_eq_true, if_false, hvalue,
      hint, Option.getD_some]

theorem number?_literal (n : Int) (hn : InWord n) : (literal n).number? = some (.int n hn) := by
  have hword : takeWord 0 (digits n.natAbs) = (n.natAbs, []) := by
    have hlt : digitsValue 0 (digits n.natAbs) < wordBound := by
      obtain ⟨hlow, hhigh⟩ := hn
      rw [digitsValue_digits, wordBound]
      omega
    rw [takeWord_of_lt hlt, digitsValue_digits]
  simp only [literal, Literal.number?, hword, Option.isNone_none, List.isEmpty_nil, Bool.and_self,
    if_true, ofWord_natAbs n hn]

end Number

namespace Json.Tree

/-- What follows a whole number without continuing it: no digit, no point and no exponent. -/
def Stops (rest : List Char) : Prop :=
  ∀ c ∈ rest.head?, c.isDigit = false ∧ c ≠ '.' ∧ c ≠ 'e' ∧ c ≠ 'E'

private theorem isDigit_eq (c : Char) : isDigit c = c.isDigit := by
  rw [Bool.eq_iff_iff]
  simp [isDigit, Char.isDigit, Char.le_def]

section Numbers

variable {rest : List Char}

theorem Stops.nil : Stops [] := by simp [Stops]

theorem Stops.cons {c : Char} (hdigit : c.isDigit = false) (hpoint : c ≠ '.') (hsmall : c ≠ 'e')
    (hlarge : c ≠ 'E') : Stops (c :: rest) := by
  intro d hd
  obtain rfl : c = d := by simpa using hd
  exact ⟨hdigit, hpoint, hsmall, hlarge⟩

private theorem span_digits (n : Nat) (hrest : Stops rest) :
    (Number.digits n ++ rest).span isDigit = (Number.digits n, rest) := by
  have hall : ∀ c ∈ Number.digits n, isDigit c = true := by
    intro c hc
    rw [isDigit_eq]
    exact Number.isDigit_of_mem_digits hc
  rw [List.span_eq_takeWhile_dropWhile, List.takeWhile_append_of_pos hall,
    List.dropWhile_append_of_pos hall]
  cases rest with
  | nil => simp
  | cons c rest =>
    have hc : isDigit c = false := by
      rw [isDigit_eq]
      exact (hrest c rfl).1
    simp [hc]

private theorem whole?_digits (n : Nat) (hrest : Stops rest) :
    whole? (Number.digits n ++ rest) = some (Number.digits n, rest) := by
  have hdigits : digits? (Number.digits n ++ rest) = some (Number.digits n, rest) := by
    rw [digits?, span_digits n hrest]
    split
    · rename_i hnil
      exact absurd (Prod.mk.inj hnil).1 (Number.digits_ne_nil n)
    · rfl
  rw [whole?, hdigits]
  split
  · rename_i d ds _ hzero
    by_cases hn : n = 0
    · subst hn
      simp [Number.digits] at hzero
    · have heq := (Prod.mk.inj (Option.some.inj hzero)).1
      exact absurd heq (Number.digits_ne_zero_cons hn _)
  · rfl

private theorem fraction?_of_stops (hrest : Stops rest) : fraction? rest = some (none, rest) := by
  unfold fraction?
  split
  · rename_i rest
    exact absurd rfl (hrest '.' rfl).2.1
  · rfl

private theorem exponent?_of_stops (hrest : Stops rest) : exponent? rest = some (none, rest) := by
  unfold exponent?
  split
  · rename_i rest
    exact absurd rfl (hrest 'e' rfl).2.2.1
  · rename_i rest
    exact absurd rfl (hrest 'E' rfl).2.2.2
  · rfl

theorem literal?_renderInt (n : Int) (hrest : Stops rest) :
    literal? (Number.renderInt n ++ rest) = some (Number.literal n, rest) := by
  by_cases hneg : n < 0
  · simp [literal?, Number.renderInt, Number.literal, hneg, whole?_digits _ hrest,
      fraction?_of_stops hrest, exponent?_of_stops hrest]
  · obtain ⟨d, ds, hds⟩ := List.exists_cons_of_ne_nil (Number.digits_ne_nil n.natAbs)
    have hd : d.isDigit = true := Number.isDigit_of_mem_digits (n := n.natAbs) (by simp [hds])
    have hminus : d ≠ '-' := by
      rintro rfl
      simp at hd
    have hwhole := whole?_digits n.natAbs hrest
    rw [hds, List.cons_append] at hwhole
    simp [literal?, Number.renderInt, Number.literal, hneg, hds, hminus, hwhole,
      fraction?_of_stops hrest, exponent?_of_stops hrest]

end Numbers

end Json.Tree

end Docket
