import Docket.Text.Cut
import Mathlib.Data.String.Basic

/-!
Texts cut to a number of bytes. The place of the cut is found backwards from the limit; what is kept
is the longest beginning that fits, taken character by character. So the next character no longer
fits, and a part is found in what is kept exactly when the part ends within these bytes somewhere in
the whole text.
-/

set_option autoImplicit false
set_option relaxedAutoImplicit false

namespace Docket.Cut

open String (utf8Len)

/-- The longest run of whole characters from the start that takes at most `bytes` in UTF-8. -/
def fitting (bytes : Nat) : List Char → List Char
  | [] => []
  | c :: rest => if c.utf8Size ≤ bytes then c :: fitting (bytes - c.utf8Size) rest else []

/-- A part stands in a text and ends within some bytes from its start. -/
def EndsWithin (bytes : Nat) (part text : String) : Prop :=
  ∃ before after, text = before ++ part ++ after ∧ (before ++ part).utf8ByteSize ≤ bytes

private theorem fitting_prefix (bytes : Nat) (cs : List Char) : fitting bytes cs <+: cs := by
  induction cs generalizing bytes with
  | nil => exact List.prefix_rfl
  | cons c cs ih =>
    rw [fitting]
    split
    · exact (List.prefix_cons_inj c).mpr (ih _)
    · exact List.nil_prefix

private theorem utf8Len_fitting (bytes : Nat) (cs : List Char) : utf8Len
    (fitting bytes cs) ≤ bytes := by
  induction cs generalizing bytes with
  | nil => exact Nat.zero_le bytes
  | cons c cs ih =>
    rw [fitting]
    split
    · have htail := ih (bytes - c.utf8Size)
      rw [String.utf8Len_cons]
      omega
    · exact Nat.zero_le bytes

private theorem prefix_fitting {bytes : Nat} {part cs : List Char} (hpart : part <+: cs)
    (hbytes : utf8Len part ≤ bytes) : part <+: fitting bytes cs := by
  induction cs generalizing bytes part with
  | nil => exact hpart
  | cons c cs ih =>
    cases part with
    | nil => exact List.nil_prefix
    | cons d part =>
      obtain ⟨rfl, htail⟩ := List.cons_prefix_cons.mp hpart
      rw [String.utf8Len_cons] at hbytes
      have hfits : d.utf8Size ≤ bytes := by omega
      rw [fitting, if_pos hfits]
      exact (List.prefix_cons_inj d).mpr (ih htail (by omega))

private theorem fitting_eq_self {bytes : Nat} {cs : List Char} (h : utf8Len cs ≤ bytes) :
    fitting bytes cs = cs := by
  have hprefix := fitting_prefix bytes cs
  exact hprefix.eq_of_length_le (prefix_fitting List.prefix_rfl h).length_le

private theorem lt_of_fitting_append {bytes : Nat} {cs rest : List Char} {c : Char}
    (h : cs = fitting bytes cs ++ c :: rest) : bytes < utf8Len (fitting bytes cs) + c.utf8Size := by
  have hlonger : ¬ fitting bytes cs ++ [c] <+: fitting bytes cs := fun hprefix => by
    simpa using hprefix.length_le
  by_contra hfits
  apply hlonger
  apply prefix_fitting
  · exact ⟨rest, by rw [List.append_assoc, List.singleton_append, ← h]⟩
  · rw [String.utf8Len_append, String.utf8Len_cons, String.utf8Len_nil]
    omega

section Boundaries

private theorem offset_lastBoundary_le (s : String) (bytes : Nat) :
    (lastBoundary s bytes).offset.byteIdx ≤ bytes := by
  induction bytes with
  | zero => exact Nat.le_refl 0
  | succ bytes ih =>
    rw [lastBoundary]
    split
    · exact Nat.le_refl _
    · exact Nat.le_succ_of_le ih

private theorem le_offset_lastBoundary {s : String} {offset bytes : Nat}
    (hvalid : String.Pos.Raw.IsValid s ⟨offset⟩) (hle : offset ≤ bytes) :
    offset ≤ (lastBoundary s bytes).offset.byteIdx := by
  induction bytes with
  | zero => exact hle
  | succ bytes ih =>
    rw [lastBoundary]
    split
    · exact hle
    · rename_i hinside
      rcases Nat.lt_or_eq_of_le hle with hlt | rfl
      · exact ih (Nat.le_of_lt_succ hlt)
      · exact absurd hvalid hinside

private theorem isValid_utf8Len {s : String} {start : List Char} (h : start <+: s.toList) :
    String.Pos.Raw.IsValid s ⟨utf8Len start⟩ := by
  obtain ⟨rest, hrest⟩ := h
  refine String.Pos.Raw.isValid_iff_exists_append.mpr
    ⟨String.ofList start, String.ofList rest, ?_, ?_⟩
  · rw [← String.ofList_append, hrest, String.ofList_toList]
  · rw [String.Pos.Raw.ext_iff, String.byteIdx_rawEndPos, String.utf8ByteSize_ofList]

theorem eq_of_prefix_of_utf8Len_le {start whole : List Char} (h : start <+: whole)
    (hle : utf8Len whole ≤ utf8Len start) : start = whole := by
  obtain ⟨rest, rfl⟩ := h
  rw [String.utf8Len_append] at hle
  have hrest : rest = [] := String.utf8Len_eq_zero.mp (by omega)
  rw [hrest, List.append_nil]

/-- Searching backwards for the place of the cut keeps what taking the characters one by one
does. -/
theorem toList_toBytes (bytes : Nat) (s : String) :
    (toBytes bytes s).toList = fitting bytes s.toList := by
  rw [toBytes]
  split
  · have hsplits := (lastBoundary s bytes).splits
    have hsize := congrArg String.Pos.Raw.byteIdx hsplits.offset_eq_rawEndPos
    rw [String.byteIdx_rawEndPos, ← String.utf8Len_toList] at hsize
    have hprefix : (s.sliceTo (lastBoundary s bytes)).copy.toList <+: s.toList := by
      refine ⟨(s.sliceFrom (lastBoundary s bytes)).copy.toList, ?_⟩
      rw [← String.toList_append, ← hsplits.eq_append]
    apply eq_of_prefix_of_utf8Len_le
    · apply prefix_fitting hprefix
      rw [← hsize]
      exact offset_lastBoundary_le s bytes
    · have hkept := fitting_prefix bytes s.toList
      rw [← hsize]
      exact le_offset_lastBoundary (isValid_utf8Len hkept) (utf8Len_fitting bytes s.toList)
  · rename_i hfits
    rw [fitting_eq_self]
    rw [String.utf8Len_toList]
    omega

theorem toBytes_append (bytes : Nat) (s : String) : ∃ rest, s = toBytes bytes s ++ rest := by
  obtain ⟨rest, hrest⟩ := fitting_prefix bytes s.toList
  refine ⟨String.ofList rest, ?_⟩
  rw [← String.toList_inj, String.toList_append, toList_toBytes, String.toList_ofList, hrest]

theorem utf8ByteSize_toBytes_le (bytes : Nat) (s : String) :
    (toBytes bytes s).utf8ByteSize ≤ bytes := by
  rw [← String.utf8Len_toList, toList_toBytes]
  exact utf8Len_fitting bytes s.toList

theorem toBytes_eq_self {bytes : Nat} {s : String} (h : s.utf8ByteSize ≤ bytes) :
    toBytes bytes s = s := by
  rw [toBytes, if_neg (Nat.not_lt.mpr h)]

theorem append_toBytes {bytes : Nat} {start : String} (behind : String)
    (h : start.utf8ByteSize ≤ bytes) : ∃ more, toBytes bytes (start ++ behind) = start ++ more := by
  have hprefix : start.toList <+: fitting bytes (start ++ behind).toList := by
    apply prefix_fitting
    · rw [String.toList_append]
      exact List.prefix_append _ _
    · rwa [String.utf8Len_toList]
  obtain ⟨more, hmore⟩ := hprefix
  refine ⟨String.ofList more, ?_⟩
  rw [← String.toList_inj, String.toList_append, toList_toBytes, String.toList_ofList, hmore]

theorem le_utf8ByteSize_toBytes {bytes offset : Nat} {s : String}
    (hvalid : String.Pos.Raw.IsValid s ⟨offset⟩) (hle : offset ≤ bytes) :
    offset ≤ (toBytes bytes s).utf8ByteSize := by
  obtain ⟨start, behind, rfl, hoffset⟩ := String.Pos.Raw.isValid_iff_exists_append.mp hvalid
  have hsize : offset = start.utf8ByteSize := congrArg String.Pos.Raw.byteIdx hoffset
  obtain ⟨more, hmore⟩ := append_toBytes behind (hsize ▸ hle)
  rw [hmore, String.utf8ByteSize_append]
  omega

theorem exists_of_append_toBytes {bytes : Nat} {s rest : String} (h : s = toBytes bytes s ++ rest)
    (hlong : bytes < s.utf8ByteSize) : ∃ c behind, rest = String.singleton c ++ behind ∧
      bytes < (toBytes bytes s).utf8ByteSize + c.utf8Size := by
  have hchars : s.toList = fitting bytes s.toList ++ rest.toList := by
    rw [← toList_toBytes, ← String.toList_append, ← h]
  cases hrest : rest.toList with
  | nil =>
    have hfits := utf8Len_fitting bytes s.toList
    rw [hrest, List.append_nil] at hchars
    rw [← hchars, String.utf8Len_toList] at hfits
    omega
  | cons c behind =>
    rw [hrest] at hchars
    refine ⟨c, String.ofList behind, ?_, ?_⟩
    · rw [← String.toList_inj, hrest]
      simp
    · rw [← String.utf8Len_toList, toList_toBytes]
      exact lt_of_fitting_append hchars

end Boundaries

private theorem occurs_iff (part cs : List Char) : occurs part cs = true ↔ part <:+: cs := by
  induction cs with
  | nil =>
    rw [occurs, List.isEmpty_iff, List.infix_nil]
  | cons c cs ih =>
    rw [occurs, Bool.or_eq_true, List.isPrefixOf_iff_prefix, ih, List.infix_cons_iff]

private theorem infix_fitting_iff (bytes : Nat) (part cs : List Char) :
    part <:+: fitting bytes cs ↔
      ∃ before after, cs = before ++ part ++ after ∧ utf8Len (before ++ part) ≤ bytes := by
  constructor
  · rintro ⟨before, after, hkept⟩
    obtain ⟨rest, hrest⟩ := fitting_prefix bytes cs
    refine ⟨before, after ++ rest, ?_, ?_⟩
    · rw [← List.append_assoc, hkept, hrest]
    · have hlength := utf8Len_fitting bytes cs
      rw [← hkept, String.utf8Len_append] at hlength
      omega
  · rintro ⟨before, after, rfl, hbytes⟩
    have hkept := prefix_fitting (List.prefix_append (before ++ part) after) hbytes
    exact (List.suffix_append before part).isInfix.trans hkept.isInfix

/-- A part is found in a text that was cut exactly when it ends within the bytes kept. -/
theorem occurs_toBytes_iff (bytes : Nat) (part text : String) :
    occurs part.toList (toBytes bytes text).toList = true ↔ EndsWithin bytes part text := by
  rw [occurs_iff, toList_toBytes, infix_fitting_iff]
  constructor
  · rintro ⟨before, after, htext, hbytes⟩
    refine ⟨String.ofList before, String.ofList after, ?_, ?_⟩
    · apply String.toList_inj.mp
      simpa using htext
    · rw [String.utf8ByteSize_append, String.utf8ByteSize_ofList]
      rw [String.utf8Len_append, String.utf8Len_toList] at hbytes
      exact hbytes
  · rintro ⟨before, after, rfl, hbytes⟩
    refine ⟨before.toList, after.toList, by simp, ?_⟩
    rwa [← String.toList_append, ← String.utf8ByteSize_ofList, String.ofList_toList]

end Docket.Cut
