import Docket.Json
import Docket.Proofs.Literals
import Docket.Proofs.Quoting

/-!
Texts of lines. No text of a value holds a newline, so values that are each ended by a newline can
be told apart again without knowing them.
-/

set_option autoImplicit false
set_option relaxedAutoImplicit false

namespace Docket

/-- The lines of a text, every one of which must be ended by a newline. -/
def lines? : List Char → Option (List (List Char))
  | [] => some []
  | '\n' :: rest => (lines? rest).map ([] :: ·)
  | c :: rest =>
    match lines? rest with
    | some (line :: lines) => some ((c :: line) :: lines)
    | _ => none

theorem lines?_cons {line : List Char} (hline : '\n' ∉ line) (rest : List Char) :
    lines? (line ++ '\n' :: rest) = (lines? rest).map (line :: ·) := by
  induction line with
  | nil => rfl
  | cons c line ih =>
    have hc : c ≠ '\n' := by
      rintro rfl
      exact hline (by simp)
    have hrest : '\n' ∉ line := fun hmem => hline (by simp [hmem])
    rw [List.cons_append, lines?]
    · rw [ih hrest]
      cases lines? rest <;> rfl
    · exact hc

namespace Number

section Newlines

private theorem newline_not_mem_digits (n : Nat) : '\n' ∉ digits n := by
  intro hmem
  have hdigit := isDigit_of_mem_digits hmem
  simp at hdigit

private theorem newline_not_mem_renderInt (n : Int) : '\n' ∉ renderInt n := by
  rw [renderInt]
  split <;> simp [newline_not_mem_digits]

private theorem newline_not_mem_positional {ds : List Char} (hds : '\n' ∉ ds) (whole : Int) :
    '\n' ∉ positional ds whole := by
  have htake : '\n' ∉ ds.take whole.toNat := fun hmem => hds (List.mem_of_mem_take hmem)
  have hdrop : '\n' ∉ ds.drop whole.toNat := fun hmem => hds (List.mem_of_mem_drop hmem)
  simp only [positional]
  split_ifs <;> simp [hds, htake, hdrop]

private theorem newline_not_mem_scientific {ds : List Char} (hds : '\n' ∉ ds) (leading : Int) :
    '\n' ∉ scientific ds leading := by
  have hexponent := newline_not_mem_digits leading.natAbs
  have hsign : '\n' ≠ if leading < 0 then '-' else '+' := by split <;> decide
  cases ds with
  | nil => simp [scientific, hsign, hexponent]
  | cons d rest =>
    obtain ⟨hd, hrest⟩ : '\n' ≠ d ∧ '\n' ∉ rest := by simpa using hds
    cases rest with
    | nil => simp [scientific, hd, hsign, hexponent]
    | cons e rest =>
      have he : '\n' ∉ '.' :: e :: rest := by simpa using hrest
      simpa [scientific, hd, hsign, hexponent] using he

private theorem newline_not_mem_renderPlace (style : PositionalRange) (place : Nat) :
    '\n' ∉ renderPlace style place := by
  rw [renderPlace]
  split_ifs with hzero
  · decide
  · simp only
    split_ifs
    · exact newline_not_mem_positional (newline_not_mem_digits _) _
    · exact newline_not_mem_scientific (newline_not_mem_digits _) _

theorem newline_not_mem_render (n : Number) : '\n' ∉ n.render := by
  cases n with
  | int n => exact newline_not_mem_renderInt n
  | double x =>
    have hplace := newline_not_mem_renderPlace jsonRange x.place
    simp only [render, renderBinary64]
    split_ifs <;> simp [hplace]

end Newlines

end Number

namespace Json

private theorem newline_not_mem_commaSeparated {texts : List (List Char)}
    (h : ∀ t ∈ texts, '\n' ∉ t) : '\n' ∉ commaSeparated texts := by
  cases texts with
  | nil => simp [commaSeparated]
  | cons t rest =>
    have ht : '\n' ∉ t := h t (by simp)
    have hrest : ∀ u ∈ rest, '\n' ∉ u := fun u hu => h u (by simp [hu])
    simpa [commaSeparated, ht] using hrest

mutual

theorem newline_not_mem_render : (v : Json) → '\n' ∉ v.render
  | .null => by simp [render]
  | .bool true => by simp [render]
  | .bool false => by simp [render]
  | .number n => by simpa [render] using n.newline_not_mem_render
  | .string s => by simpa [render] using Quoted.newline_not_mem_render s
  | .array items => by
    have hitems := newline_not_mem_commaSeparated (newline_not_mem_renderItems items)
    simp [render, hitems]
  | .object members => by
    have hmembers := newline_not_mem_commaSeparated (newline_not_mem_renderMembers members)
    simp [render, hmembers]

private theorem newline_not_mem_renderItems :
    (items : List Json) → ∀ t ∈ renderItems items, '\n' ∉ t
  | [] => by simp [renderItems]
  | v :: rest => by
    have hv := newline_not_mem_render v
    have hrest := newline_not_mem_renderItems rest
    simpa [renderItems, hv] using hrest

private theorem newline_not_mem_renderMembers :
    (members : List (String × Json)) → ∀ t ∈ renderMembers members, '\n' ∉ t
  | [] => by simp [renderMembers]
  | (k, v) :: rest => by
    have hk := Quoted.newline_not_mem_render k
    have hv := newline_not_mem_render v
    have hrest := newline_not_mem_renderMembers rest
    simpa [renderMembers, hk, hv] using hrest

end

end Json

end Docket
