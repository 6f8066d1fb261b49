import Docket.Proofs.Record
import Docket.Store.Search

/-!
Stored documents as results show them, and the value by which a hit made from a document is sorted.
A hit carries the source or a projection, so it sorts by what it carries and not by the document.
-/

set_option autoImplicit false
set_option relaxedAutoImplicit false

namespace Docket.StoredDocument

/-- The record that a result shows for a document: its source, or its projection with lists of one
unwrapped. -/
def rendered (d : StoredDocument) : Option (List String) → Record
  | none => d.source
  | some names => (d.project names).map fun m => (m.1, Hit.unwrap m.2)

/-- The value under a key in what a hit carries of a document: the field of the source, or the first
item of a projected field; null when the hit does not carry it. -/
def carriedValue (d : StoredDocument) (key : String) : Option (List String) → Json
  | none => (d.source.get? key).getD .null
  | some names => if key ∈ names then (d.sortValue key).asList.headD .null else .null

theorem normalize_toHit (d : StoredDocument) (index : String) (fields : Option (List String)) :
    (d.toHit index fields).normalize = d.rendered fields := by
  cases fields <;> rfl

private def withField (d : StoredDocument) (r : Record) (name : String) : Record :=
  match d.field? name with
  | some v => r.insert name (.array v.asList)
  | none => r

private theorem get?_withField (d : StoredDocument) (r : Record) (name key : String) :
    (d.withField r name).get? key =
      (if key = name then (d.field? key).map fun v => .array v.asList else none).or
        (r.get? key) := by
  by_cases hk : key = name
  · subst hk
    cases hf : d.field? key <;> simp [withField, hf]
  · cases hf : d.field? name <;> simp [withField, hf, hk]

private theorem get?_foldl_withField (d : StoredDocument) (names : List String) (r : Record)
    (key : String) :
    (names.foldl d.withField r).get? key =
      (if key ∈ names then (d.field? key).map fun v => .array v.asList else none).or
        (r.get? key) := by
  induction names generalizing r with
  | nil => simp
  | cons name names ih =>
    rw [List.foldl_cons, ih, get?_withField, ← Option.or_assoc]
    by_cases hk : key = name
    · subst hk
      by_cases hmem : key ∈ names <;> simp [hmem]
    · simp [hk]

theorem get?_project (d : StoredDocument) (names : List String) (key : String) :
    (d.project names).get? key =
      if key ∈ names then (d.field? key).map fun v => .array v.asList else none := by
  have hproject : d.project names = names.foldl d.withField [] := rfl
  rw [hproject, get?_foldl_withField]
  simp

theorem sortValue_toHit (d : StoredDocument) (index : String) (fields : Option (List String))
    (key : String) : (d.toHit index fields).sortValue key = d.carriedValue key fields := by
  cases fields with
  | none => rfl
  | some names =>
    have hread : (d.toHit index (some names)).sortValue key =
        (((d.project names).get? key).map Hit.firstOf).getD .null := rfl
    rw [hread, get?_project, carriedValue]
    by_cases hk : key ∈ names
    · simp only [hk, if_true, sortValue]
      cases d.field? key with
      | none => rfl
      | some v =>
        have hfirst : Hit.firstOf (.array v.asList) = v.asList.headD .null := by
          cases v.asList <;> rfl
        simpa using hfirst
    · simp [hk]

theorem carriedValue_source (d : StoredDocument) {key : String} (hid : key ≠ Record.idField)
    (htype : key ≠ Record.typeField) : d.carriedValue key none = d.sortValue key := by
  simp [carriedValue, sortValue, field?, hid, htype]

theorem carriedValue_projected (d : StoredDocument) {key : String} {names : List String}
    (hkey : key ∈ names) (hlist : ∀ items, d.field? key ≠ some (.array items)) :
    d.carriedValue key (some names) = d.sortValue key := by
  simp only [carriedValue, hkey, if_true, sortValue]
  cases hf : d.field? key with
  | none => rfl
  | some v =>
    cases v with
    | array items => exact absurd hf (hlist items)
    | _ => rfl

end Docket.StoredDocument
