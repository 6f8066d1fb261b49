import Docket.Query.Document
import Docket.Store.Search

/-!
The bodies made from a query, read back as a store reads them. All of them select and project alike;
they differ in the page size and in the sort keys.
-/

set_option autoImplicit false
set_option relaxedAutoImplicit false

namespace Docket.Query

def keys (q : Query) : List SortKey := q.sort.getD []

private theorem fields?_of_get? {body : Json} {fields : Option (List String)}
    (h : body.get? "fields" = fields.map fun names => .array (names.map .string)) :
    SearchBody.fields? body = fields := by
  rw [SearchBody.fields?, h]
  cases fields with
  | none => rfl
  | some names => simp [Json.items?, Json.string?, List.filterMap_map, Function.comp_def]

theorem sortKey?_toJson (k : SortKey) : SearchBody.sortKey? k.toJson = some k := by
  obtain ⟨field, order⟩ := k
  cases order <;> rfl

theorem filterMap_sortKey? (ks : List SortKey) :
    (ks.map SortKey.toJson).filterMap SearchBody.sortKey? = ks := by
  induction ks with
  | nil => rfl
  | cons k ks ih => rw [List.map_cons, List.filterMap_cons_some (sortKey?_toJson k), ih]

section Sized

variable (q : Query) (size : UInt64)

theorem clauses_sizedBody : SearchBody.clauses (q.sizedBody size) = .ok q.clauses := by
  obtain ⟨fields, _, _, _, _⟩ := q
  cases fields <;> rfl

theorem size_sizedBody : SearchBody.size (q.sizedBody size) = size.toNat := by
  obtain ⟨fields, _, _, _, _⟩ := q
  cases fields <;> rfl

theorem get?_sort_sizedBody :
    (q.sizedBody size).get? "sort" = q.sort.map fun ks => .array (ks.map SortKey.toJson) := by
  obtain ⟨fields, _, _, sort, _⟩ := q
  cases fields <;> cases sort <;> rfl

theorem sortKeys_sizedBody : SearchBody.sortKeys (q.sizedBody size) = q.keys := by
  rw [SearchBody.sortKeys, get?_sort_sizedBody, keys]
  cases q.sort with
  | none => rfl
  | some ks => exact filterMap_sortKey? ks

theorem fields?_sizedBody : SearchBody.fields? (q.sizedBody size) = q.fields := by
  apply fields?_of_get?
  obtain ⟨fields, _, _, sort, _⟩ := q
  cases fields <;> cases sort <;> rfl

end Sized

section Scan

variable (q : Query)

theorem clauses_scanBody : SearchBody.clauses q.scanBody = .ok q.clauses := by
  obtain ⟨fields, _, _, _, _⟩ := q
  cases fields <;> rfl

theorem sortKeys_scanBody : SearchBody.sortKeys q.scanBody = [] := by
  obtain ⟨fields, _, _, _, _⟩ := q
  cases fields <;> rfl

theorem fields?_scanBody : SearchBody.fields? q.scanBody = q.fields := by
  apply fields?_of_get?
  obtain ⟨fields, _, _, _, _⟩ := q
  cases fields <;> rfl

end Scan

end Docket.Query
