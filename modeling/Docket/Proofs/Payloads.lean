import Docket.Client.Post
import Docket.Proofs.BulkBody

/-!
Payloads of datagrams. A payload is the text of a bulk request with one action that has no id. It
tells index, type and record, however deep the record nests, as long as its numbers are whole.
-/

set_option autoImplicit false
set_option relaxedAutoImplicit false

namespace Docket

namespace Json

/-- Values whose numbers are whole and whose objects are records with their fields in order. -/
inductive Whole : Json → Prop
  | null : Whole .null
  | bool (b : Bool) : Whole (.bool b)
  | int (n : Int) (h : InWord n) : Whole (.number (.int n h))
  | string (s : String) : Whole (.string s)
  | array {items : List Json} : (∀ v ∈ items, Whole v) → Whole (.array items)
  | object {members : Record} :
      members.Sorted → (∀ m ∈ members, Whole m.2) → Whole (.object members)

private theorem exists_depth {vs : List Json} (h : ∀ v ∈ vs, ∃ depth, Canonical depth v) :
    ∃ depth, ∀ v ∈ vs, Canonical depth v := by
  induction vs with
  | nil => exact ⟨0, by simp⟩
  | cons v vs ih =>
    obtain ⟨first, hfirst⟩ := h v (by simp)
    obtain ⟨rest, hrest⟩ := ih fun w hw => h w (by simp [hw])
    refine ⟨max first rest, List.forall_mem_cons.mpr ⟨hfirst.mono (Nat.le_max_left ..), ?_⟩⟩
    exact fun w hw => (hrest w hw).mono (Nat.le_max_right ..)

private theorem Whole.exists_canonical {v : Json} (h : Whole v) : ∃ depth, Canonical depth v := by
  induction h with
  | null => exact ⟨0, .null 0⟩
  | bool b => exact ⟨0, .bool 0 b⟩
  | int n hn => exact ⟨0, .int 0 n hn⟩
  | string s => exact ⟨0, .string 0 s⟩
  | array _ ih =>
    obtain ⟨depth, hdepth⟩ := exists_depth ih
    exact ⟨depth + 1, .array hdepth⟩
  | object hsorted _ ih =>
    obtain ⟨depth, hdepth⟩ := exists_depth (List.forall_mem_map.mpr ih)
    exact ⟨depth + 1, .object hsorted (List.forall_mem_map.mp hdepth)⟩

theorem Canonical.eq_of_render_eq {m n : Nat} {v w : Json} (hv : Canonical m v)
    (hw : Canonical n w) (h : v.render = w.render) : v = w := by
  have hreadV := read?_text (hv.mono (Nat.le_max_left m n))
  have hreadW := read?_text (hw.mono (Nat.le_max_right m n))
  rw [text, h] at hreadV
  exact Option.some.inj (hreadV.symm.trans hreadW)

theorem Whole.eq_of_render_eq {v w : Json} (hv : Whole v) (hw : Whole w)
    (h : v.render = w.render) : v = w := by
  obtain ⟨m, hm⟩ := hv.exists_canonical
  obtain ⟨n, hn⟩ := hw.exists_canonical
  exact hm.eq_of_render_eq hn h

end Json

namespace Payload

variable {index docType index' docType' : String} {r r' : Record}

theorem text_eq_body (index docType : String) (r : Record) :
    text index docType r = Bulk.body [⟨index, docType, none, r⟩] := by
  rw [← String.toList_inj]
  simp [text, Bulk.body, Bulk.bodyChars, BulkAction.lines, Json.text, header, BulkAction.header]

private theorem render_eq_of_text_eq (h : text index docType r = text index' docType' r') :
    (header index docType).render = (header index' docType').render ∧
      Json.render (.object r) = Json.render (.object r') := by
  rw [text_eq_body, text_eq_body, Bulk.body, Bulk.body, String.ofList_inj] at h
  have hlines := congrArg lines? h
  simpa [Bulk.lines?_bodyChars, BulkAction.texts, BulkAction.header, header] using hlines

private theorem canonical_header (index docType : String) : Json.Canonical 2
    (header index docType) :=
  BulkAction.canonical_header ⟨index, docType, none, []⟩ 0

/-- A payload is the text of a bulk request with one action that has no id, and payloads of records
whose numbers are whole are the same only if index, type and record are. -/
theorem text_is_body (index docType : String) (r : Record) :
    text index docType r = Bulk.body [⟨index, docType, none, r⟩] ∧
    ∀ (index' docType' : String) (r' : Record), Json.Whole (.object r) → Json.Whole (.object r') →
      text index docType r = text index' docType' r' →
        index = index' ∧ docType = docType' ∧ r = r' := by
  refine ⟨text_eq_body index docType r, ?_⟩
  intro index' docType' r' hr hr' h
  obtain ⟨hheader, hrecord⟩ := render_eq_of_text_eq h
  have hheaders :=
    (canonical_header index docType).eq_of_render_eq (canonical_header index' docType') hheader
  have hrecords := hr.eq_of_render_eq hr' hrecord
  simp only [header, Json.object.injEq, List.cons.injEq, Prod.mk.injEq, Json.string.injEq, true_and,
    and_true] at hheaders hrecords
  exact ⟨hheaders.1, hheaders.2, hrecords⟩

theorem text_is_body_digits :
    let number : Record := [("n", .array [.number (.int 7 (by decide))])]
    let digits : Record := [("n", .array [.string "7"])]
    Json.Whole (.object number) ∧ Json.Whole (.object digits) ∧
      text "logs" "entry" number = Bulk.body [⟨"logs", "entry", none, number⟩] ∧
      text "logs" "entry" number ≠ text "logs" "entry" digits := by
  intro number digits
  have hnumber : Json.Whole (.object number) := by
    refine .object (.singleton _) fun m hm => ?_
    obtain rfl := List.mem_singleton.mp hm
    refine .array fun v hv => ?_
    obtain rfl := List.mem_singleton.mp hv
    exact .int 7 (by decide)
  have hdigits : Json.Whole (.object digits) := by
    refine .object (.singleton _) fun m hm => ?_
    obtain rfl := List.mem_singleton.mp hm
    refine .array fun v hv => ?_
    obtain rfl := List.mem_singleton.mp hv
    exact .string "7"
  obtain ⟨hbody, hother⟩ := text_is_body "logs" "entry" number
  refine ⟨hnumber, hdigits, hbody, fun hsame => ?_⟩
  obtain ⟨-, -, hrecord⟩ := hother "logs" "entry" digits hnumber hdigits hsame
  simp [number, digits] at hrecord

end Payload

end Docket
