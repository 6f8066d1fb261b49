import Docket.Json.Quoted
import Mathlib.Data.List.Forall2
import Mathlib.Tactic.SplitIfs

/-!
Quoted strings read back. Every character is written as a piece that stands for it alone, so a
string between quotes is read as itself, and what follows the closing quote is left. No newline is
written.
-/

set_option autoImplicit false
set_option relaxedAutoImplicit false

namespace Docket.Json.Quoted

/-- Pieces that stand for a character: the character as written, or its escaped unit. -/
inductive Stands : Piece → Char → Prop
  | char (c : Char) : Stands (.char c) c
  | unit (c : Char) : c.toNat < 32 → Stands (.unit c.toNat) c

section Characters

private theorem hexValue?_hexDigit {n : Nat} (hn : n < 16) : hexValue? (hexDigit n) = some n := by
  have hall : ∀ m < 16, hexValue? (hexDigit m) = some m := by decide
  exact hall n hn

private theorem unit?_hexDigit {n : Nat} (hn : n < 32) :
    unit? '0' '0' (hexDigit (n / 16)) (hexDigit (n % 16)) = some n := by
  have hzero : hexValue? '0' = some 0 := rfl
  have hhigh := hexValue?_hexDigit (n := n / 16) (by omega)
  have hlow := hexValue?_hexDigit (n := n % 16) (by omega)
  have hvalue : ((0 * 16 + 0) * 16 + n / 16) * 16 + n % 16 = n := by omega
  simp only [unit?, hzero, hhigh, hlow, Option.bind_eq_bind, Option.bind_some, Option.pure_def,
    hvalue]

private theorem pieces?_raw {c : Char} (hc : 32 ≤ c.toNat) (hquote : c ≠ '"') (hslash : c ≠ '\\')
    (seen : List Piece) (rest : List Char) :
    pieces? seen (c :: rest) = pieces? (.char c :: seen) rest := by
  have hlow : ¬ c.toNat < 32 := by omega
  simp [pieces?, hslash, hlow]

private theorem pieces?_letter {e c : Char} (he : e ≠ 'u') (hc : escaped? e = some c)
    (seen : List Piece) (rest : List Char) :
    pieces? seen ('\\' :: e :: rest) = pieces? (.char c :: seen) rest := by
  simp [pieces?, he, hc]

private theorem pieces?_escape (c : Char) :
    ∃ p, Stands p c ∧ ∀ seen rest, pieces? seen (escape c ++ rest) = pieces? (p :: seen) rest := by
  have hletter : ∀ e, e ≠ 'u' → escaped? e = some c → escape c = ['\\', e] →
      ∃ p, Stands p c ∧
        ∀ seen rest, pieces? seen (escape c ++ rest) = pieces? (p :: seen) rest := by
    intro e he hescaped hescape
    refine ⟨.char c, .char c, ?_⟩
    intro seen rest
    rw [hescape]
    exact pieces?_letter he hescaped seen rest
  by_cases hquote : c = '"'
  · subst hquote
    exact hletter '"' (by decide) rfl rfl
  by_cases hslash : c = '\\'
  · subst hslash
    exact hletter '\\' (by decide) rfl rfl
  by_cases hnewline : c = '\n'
  · subst hnewline
    exact hletter 'n' (by decide) rfl rfl
  by_cases hreturn : c = '\r'
  · subst hreturn
    exact hletter 'r' (by decide) rfl rfl
  by_cases htab : c = '\t'
  · subst htab
    exact hletter 't' (by decide) rfl rfl
  by_cases hbackspace : c.toNat = 8
  · obtain rfl : c = Char.ofNat 8 := by rw [← hbackspace, Char.ofNat_toNat]
    exact hletter 'b' (by decide) rfl rfl
  by_cases hfeed : c.toNat = 12
  · obtain rfl : c = Char.ofNat 12 := by rw [← hfeed, Char.ofNat_toNat]
    exact hletter 'f' (by decide) rfl rfl
  by_cases hlow : c.toNat < 32
  · refine ⟨.unit c.toNat, .unit c hlow, ?_⟩
    intro seen rest
    simp [escape, hquote, hslash, hnewline, hreturn, htab, hbackspace, hfeed, hlow, pieces?,
      unit?_hexDigit hlow]
  · refine ⟨.char c, .char c, ?_⟩
    intro seen rest
    have hescape : escape c = [c] := by
      simp [escape, hquote, hslash, hnewline, hreturn, htab, hbackspace, hfeed, hlow]
    rw [hescape]
    exact pieces?_raw (by omega) hquote hslash seen rest

private theorem chars?_stands {p : Piece} {c : Char} (h : Stands p c) (seen : List Char)
    (rest : List Piece) : chars? seen (p :: rest) = chars? (c :: seen) rest := by
  cases h with
  | char => rw [chars?]
  | unit hlow =>
    have hlead : isLead c.toNat = false := by
      simp only [isLead, Bool.and_eq_false_iff, decide_eq_false_iff_not]
      omega
    have htrail : isTrail c.toNat = false := by
      simp only [isTrail, Bool.and_eq_false_iff, decide_eq_false_iff_not]
      omega
    match rest with
    | [] => simp [chars?, hlead, htrail]
    | .char d :: rest => simp [chars?, hlead, htrail]
    | .unit trail :: rest => simp [chars?, hlead, htrail]

end Characters

section Strings

private theorem pieces?_flatMap_escape (cs : List Char) :
    ∃ ps, List.Forall₂ Stands ps cs ∧ ∀ seen rest,
      pieces? seen (cs.flatMap escape ++ '"' :: rest) = some (seen.reverse ++ ps, rest) := by
  induction cs with
  | nil => exact ⟨[], .nil, fun seen rest => by simp [pieces?]⟩
  | cons c cs ih =>
    obtain ⟨p, hstands, hp⟩ := pieces?_escape c
    obtain ⟨ps, hall, hps⟩ := ih
    refine ⟨p :: ps, .cons hstands hall, ?_⟩
    intro seen rest
    rw [List.flatMap_cons, List.append_assoc, hp, hps]
    simp

private theorem chars?_forall₂ {ps : List Piece} {cs : List Char} (h : List.Forall₂ Stands ps cs)
    (seen : List Char) : chars? seen ps = some (seen.reverse ++ cs) := by
  induction h generalizing seen with
  | nil => simp [chars?]
  | cons hstands _ ih =>
    rw [chars?_stands hstands, ih]
    simp

/-- A string is read back up to its closing quote. -/
theorem pieces?_render (s : String) :
    ∃ ps, string? ps = some s ∧ ∀ rest,
      pieces? [] (s.toList.flatMap escape ++ '"' :: rest) = some (ps, rest) := by
  obtain ⟨ps, hall, hps⟩ := pieces?_flatMap_escape s.toList
  refine ⟨ps, ?_, ?_⟩
  · simp [string?, chars?_forall₂ hall]
  · intro rest
    simpa using hps [] rest

private theorem newline_not_mem_escape (c : Char) : '\n' ∉ escape c := by
  have hdigits : ∀ n < 16, hexDigit n ≠ '\n' := by decide
  rw [escape]
  split_ifs with hquote hslash hnewline hreturn htab hbackspace hfeed hlow
  · decide
  · decide
  · decide
  · decide
  · decide
  · decide
  · decide
  · have hhigh := hdigits (c.toNat / 16) (by omega)
    have hrest := hdigits (c.toNat % 16) (by omega)
    simp [hhigh.symm, hrest.symm]
  · simpa using Ne.symm hnewline

theorem newline_not_mem_render (s : String) : '\n' ∉ render s := by
  simp [render, newline_not_mem_escape]

end Strings

end Docket.Json.Quoted
