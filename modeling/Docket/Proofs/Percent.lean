import Docket.Http.Url
import Mathlib.Data.List.Basic

/-!
Percent-encoded segments read back. A segment stands for the bytes of a text in UTF-8, so it tells
the text; and it is made of unreserved characters and escapes, so it holds nothing that separates
the parts of a URL.
-/

set_option autoImplicit false
set_option relaxedAutoImplicit false

namespace Docket.Percent

def hexValue? (c : Char) : Option Nat :=
  if '0' ≤ c ∧ c ≤ '9' then some (c.toNat - 48)
  else if 'A' ≤ c ∧ c ≤ 'F' then some (c.toNat - 55)
  else if 'a' ≤ c ∧ c ≤ 'f' then some (c.toNat - 87)
  else none

/-- The bytes that a segment stands for. What is no escape stands for itself. -/
def decode : List Char → List UInt8
  | [] => []
  | '%' :: a :: b :: rest =>
    match hexValue? a, hexValue? b with
    | some high, some low => UInt8.ofNat (high * 16 + low) :: decode rest
    | _, _ => String.utf8EncodeChar '%' ++ decode (a :: b :: rest)
  | c :: rest => String.utf8EncodeChar c ++ decode rest

def text? (segment : String) : Option String :=
  String.fromUTF8? (decode segment.toList).toByteArray

def isHexDigit (c : Char) : Bool := ('0' ≤ c && c ≤ '9') || ('A' ≤ c && c ≤ 'F')

/-- Texts of unreserved characters and escapes, and of nothing else. -/
inductive Encoded : List Char → Prop
  | nil : Encoded []
  | unreserved {c : Char} {rest : List Char} :
      isUnreserved c → Encoded rest → Encoded (c :: rest)
  | escape {high low : Char} {rest : List Char} :
      isHexDigit high → isHexDigit low → Encoded rest → Encoded ('%' :: high :: low :: rest)

structure IsSegment (segment text : String) : Prop where
  ne_empty : segment ≠ ""
  encoded : Encoded segment.toList
  text?_eq : text? segment = some text

private theorem hexValue?_hexDigit : ∀ n < 16, hexValue? (hexDigit n) = some n := by decide

private theorem isHexDigit_hexDigit : ∀ n < 16, isHexDigit (hexDigit n) = true := by decide

private theorem isUnreserved_of_isHexDigit {c : Char} (hc : isHexDigit c = true) :
    isUnreserved c = true := by
  simp only [isHexDigit, isUnreserved, Bool.or_eq_true, Bool.and_eq_true, decide_eq_true_eq] at *
  rcases hc with hdecimal | ⟨hlow, hhigh⟩
  · simp [hdecimal]
  · have hletter : c ≤ 'Z' := Char.le_trans hhigh (by decide)
    simp [hlow, hletter]

theorem le_of_isUnreserved {c : Char} (hc : isUnreserved c = true) : '-' ≤ c := by
  simp only [isUnreserved, Bool.or_eq_true, Bool.and_eq_true, decide_eq_true_eq] at hc
  rcases hc with (((((⟨hlow, -⟩ | ⟨hlow, -⟩) | ⟨hlow, -⟩) | rfl) | rfl) | rfl) | rfl
  · exact Char.le_trans (by decide) hlow
  · exact Char.le_trans (by decide) hlow
  · exact Char.le_trans (by decide) hlow
  all_goals decide

private theorem decode_escapeByte (b : UInt8) (rest : List Char) :
    decode (escapeByte b ++ rest) = b :: decode rest := by
  have hb := b.toNat_lt
  have hhigh := hexValue?_hexDigit (b.toNat / 16) (by omega)
  have hlow := hexValue?_hexDigit (b.toNat % 16) (by omega)
  simp only [escapeByte, List.cons_append, List.nil_append, decode, hhigh, hlow,
    Nat.div_add_mod', UInt8.ofNat_toNat]

private theorem decode_escapes (bytes : List UInt8) (rest : List Char) :
    decode (bytes.flatMap escapeByte ++ rest) = bytes ++ decode rest := by
  induction bytes with
  | nil => rfl
  | cons b bytes ih =>
    rw [List.flatMap_cons, List.append_assoc, decode_escapeByte, ih, List.cons_append]

private theorem decode_encodeChar (c : Char) (rest : List Char) :
    decode (encodeChar c ++ rest) = String.utf8EncodeChar c ++ decode rest := by
  rw [encodeChar]
  split
  · rename_i hc
    have hpercent : c ≠ '%' := by
      rintro rfl
      exact absurd hc (by decide)
    rw [List.singleton_append, decode]
    exact fun _ _ _ h => absurd h hpercent
  · exact decode_escapes _ rest

private theorem decode_encode (s : String) :
    decode (encode s).toList = s.toList.flatMap String.utf8EncodeChar := by
  rw [encode, String.toList_ofList]
  induction s.toList with
  | nil => rfl
  | cons c cs ih => rw [List.flatMap_cons, decode_encodeChar, ih, List.flatMap_cons]

private theorem text?_encode (s : String) : text? (encode s) = some s := by
  have hbytes : (decode (encode s).toList).toByteArray = s.toByteArray := by
    rw [decode_encode]
    exact String.utf8Encode_toList
  rw [text?, hbytes, String.fromUTF8?, dif_pos s.isValidUTF8]
  rfl

theorem encode_injective {s t : String} (h : encode s = encode t) : s = t := by
  apply Option.some.inj
  rw [← text?_encode, ← text?_encode, h]

theorem encode_inj {s t : String} : encode s = encode t ↔ s = t :=
  ⟨encode_injective, congrArg encode⟩

theorem encode_eq_empty {s : String} : encode s = "" ↔ s = "" :=
  encode_inj (t := "")

section Characters

private theorem Encoded.append {cs ds : List Char} (hcs : Encoded cs) (hds : Encoded ds) :
    Encoded (cs ++ ds) := by
  induction hcs with
  | nil => exact hds
  | unreserved hc _ ih => exact .unreserved hc ih
  | escape hhigh hlow _ ih => exact .escape hhigh hlow ih

private theorem encoded_escapes (bytes : List UInt8) : Encoded (bytes.flatMap escapeByte) := by
  induction bytes with
  | nil => exact .nil
  | cons b bytes ih =>
    have hb := b.toNat_lt
    exact .escape (isHexDigit_hexDigit _ (by omega)) (isHexDigit_hexDigit _ (by omega)) ih

private theorem encoded_encode (s : String) : Encoded (encode s).toList := by
  rw [encode, String.toList_ofList]
  induction s.toList with
  | nil => exact .nil
  | cons c cs ih =>
    rw [List.flatMap_cons, encodeChar]
    split
    · rename_i hc
      exact .unreserved hc ih
    · exact (encoded_escapes _).append ih

theorem Encoded.isUnreserved_of_mem {cs : List Char} (h : Encoded cs) {c : Char} (hc : c ∈ cs) :
    isUnreserved c = true ∨ c = '%' := by
  induction h with
  | nil => simp at hc
  | unreserved hfirst _ ih =>
    rcases List.mem_cons.mp hc with rfl | hc
    · exact .inl hfirst
    · exact ih hc
  | escape hhigh hlow _ ih =>
    simp only [List.mem_cons] at hc
    rcases hc with rfl | rfl | rfl | hc
    · exact .inr rfl
    · exact .inl (isUnreserved_of_isHexDigit hhigh)
    · exact .inl (isUnreserved_of_isHexDigit hlow)
    · exact ih hc

theorem Encoded.not_mem {cs : List Char} (h : Encoded cs) {c : Char}
    (hc : isUnreserved c = false) (hpercent : c ≠ '%') : c ∉ cs := by
  intro hmem
  rcases h.isUnreserved_of_mem hmem with hunreserved | rfl
  · simp [hc] at hunreserved
  · exact hpercent rfl

theorem isSegment_encode {s : String} (h : s ≠ "") : IsSegment (encode s) s where
  ne_empty := mt encode_eq_empty.mp h
  encoded := encoded_encode s
  text?_eq := text?_encode s

theorem not_mem_encode {c : Char} (hc : isUnreserved c = false) (hpercent : c ≠ '%') (s : String) :
    c ∉ (encode s).toList :=
  (encoded_encode s).not_mem hc hpercent

end Characters

end Docket.Percent
