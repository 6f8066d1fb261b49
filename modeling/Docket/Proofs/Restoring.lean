import Docket.Response
import Mathlib.Data.List.Nodup

/-!
Answers and results written as values and read back. What is left out when writing is what reading
takes for absent, so nothing is lost, and reading a document, writing what was read and reading that
comes to the same as reading once.
-/

set_option autoImplicit false
set_option relaxedAutoImplicit false

namespace Docket

namespace Json

def present (parts : List (String × Option Json)) : List (String × Json) :=
  parts.flatMap fun part => (part.2.map fun v => (part.1, v)).toList

section Members

variable {parts : List (String × Option Json)}

private theorem filter_present_of_not_mem {key : String} (h : key ∉ parts.map Prod.fst) :
    (present parts).filter (fun m => m.1 == key) = [] := by
  rw [List.filter_eq_nil_iff]
  intro m hm
  obtain ⟨part, hpart, hmem⟩ := List.mem_flatMap.mp hm
  obtain ⟨v, -, rfl⟩ : ∃ v, part.2 = some v ∧ (part.1, v) = m := by simpa using hmem
  have hne : part.1 ≠ key := fun heq => h (heq ▸ List.mem_map_of_mem hpart)
  simpa using hne

private theorem field?_present (hkeys : (parts.map Prod.fst).Nodup) {part : String × Option Json}
    (hpart : part ∈ parts) : field? part.1 (present parts) = some part.2 := by
  have hfilter : (present parts).filter (fun m => m.1 == part.1) =
      (part.2.map fun v => (part.1, v)).toList := by
    induction parts with
    | nil => simp at hpart
    | cons first rest ih =>
      rw [List.map_cons, List.nodup_cons] at hkeys
      have hsplit : present (first :: rest) =
          (first.2.map fun v => (first.1, v)).toList ++ present rest := by simp [present]
      rw [hsplit, List.filter_append]
      rcases List.mem_cons.mp hpart with rfl | hrest
      · rw [filter_present_of_not_mem hkeys.1]
        cases part.2 <;> simp
      · have hne : first.1 ≠ part.1 := fun heq => hkeys.1 (heq ▸ List.mem_map_of_mem hrest)
        rw [ih hkeys.2 hrest]
        cases first.2 <;> simp [hne]
  rw [field?, hfilter]
  cases part.2 <;> rfl

/-- A reader gets the parts in the order in which it asks for them. -/
theorem fields?_present (parts asked : List (String × Option Json))
    (hkeys : (parts.map Prod.fst).Nodup) (hasked : ∀ part ∈ asked, part ∈ parts) :
    fields? (asked.map Prod.fst) (Json.object (present parts)) = some (asked.map Prod.snd) := by
  have hmapM : (asked.map Prod.fst).mapM (fun key => field? key (present parts)) =
      some (asked.map Prod.snd) := by
    induction asked with
    | nil => rfl
    | cons part asked ih =>
      have hpart := field?_present hkeys (hasked part (by simp))
      have hrest := ih fun other hother => hasked other (List.mem_cons_of_mem part hother)
      simp [List.mapM_cons, hpart, hrest]
  exact hmapM

private theorem fields?_members (members asked : List (String × Json))
    (hkeys : (members.map Prod.fst).Nodup) (hasked : ∀ m ∈ asked, m ∈ members) :
    fields? (asked.map Prod.fst) (Json.object members) = some (asked.map fun m => some m.2) := by
  have hpresent : present (members.map fun m => (m.1, some m.2)) = members := by
    simp [present, List.flatMap_map]
  have hnodup : ((members.map fun m => (m.1, some m.2)).map Prod.fst).Nodup := by
    simpa [Function.comp_def] using hkeys
  have hfields := fields?_present _ (asked.map fun m => (m.1, some m.2)) hnodup
    fun part hpart => by
      obtain ⟨m, hm, rfl⟩ := List.mem_map.mp hpart
      exact List.mem_map.mpr ⟨m, hasked m hm, rfl⟩
  simpa [hpresent, Function.comp_def] using hfields

end Members

section Parts

private theorem optional?_string (s : Option String) :
    optional? stringOf? (s.map Json.string) = some s := by
  cases s <;> rfl

private theorem optional?_record (r : Option Record) :
    optional? recordOf? (r.map Json.object) = some r := by
  cases r <;> rfl

theorem naturalOf?_ofNat {bound n : Nat} (hn : n < bound) (hbound : bound ≤ wordBound) :
    naturalOf? bound (Json.ofNat n) = some n := by
  have hword : n < wordBound := Nat.lt_of_lt_of_le hn hbound
  have hint : Number.ofNat n = .int n ⟨by omega, by simp only [wordBound] at hword; omega⟩ := by
    rw [Number.ofNat, dif_pos hword]
  simp [naturalOf?, Node.view, Json.ofNat, hint, Number.unsigned?, Option.filter, hn]

private theorem listOf?_map {α : Type} {item : Json → Option α} {write : α → Json} {xs : List α}
    (h : ∀ x ∈ xs, item (write x) = some x) : listOf? item (.array (xs.map write)) = some xs := by
  have hmapM : (xs.map write).mapM item = some xs := by
    induction xs with
    | nil => rfl
    | cons x xs ih =>
      rw [List.forall_mem_cons] at h
      simp [List.mapM_cons, h.1, ih h.2]
  exact hmapM

private theorem lt_of_naturalOf? {ν : Type} [Node ν] {node : ν} {bound n : Nat}
    (h : naturalOf? bound node = some n) : n < bound := by
  rw [naturalOf?] at h
  split at h
  · obtain ⟨-, hlt⟩ := Option.filter_eq_some_iff.mp h
    simpa using hlt
  · simp at h

end Parts

end Json

namespace Hit

def parts (h : Hit) : List (String × Option Json) :=
  [("_id", h.id.map .string), ("_index", h.index.map .string), ("_source", h.source.map .object),
    ("_type", h.docType.map .string), ("fields", h.fields.map .object)]

private theorem toJson_eq_present (h : Hit) : h.toJson = .object (Json.present h.parts) := by
  simp [toJson, textMember, recordMember, Json.present, parts, Function.comp_def]

theorem decode?_toJson (h : Hit) : decode? h.toJson = some h := by
  have hfields := Json.fields?_present h.parts
    [("_index", h.index.map .string), ("_type", h.docType.map .string), ("_id", h.id.map .string),
      ("_source", h.source.map .object), ("fields", h.fields.map .object)]
    (by simp [parts]) (by simp [parts])
  simp only [List.map_cons, List.map_nil, ← toJson_eq_present] at hfields
  simp [decode?, hfields, Json.optional?_string, Json.optional?_record]

end Hit

namespace Total

theorem decode?_toJson {t : Total} (ht : t.value < wordBound) : decode? t.toJson = some t := by
  cases t with
  | count n =>
    have hn : Json.naturalOf? wordBound (Json.ofNat n) = some n :=
      Json.naturalOf?_ofNat ht (Nat.le_refl _)
    have hbare : decode? (count n).toJson =
        (Json.naturalOf? wordBound (Json.ofNat n)).map .count := rfl
    rw [hbare, hn, Option.map_some]
  | object n =>
    have hn : Json.naturalOf? wordBound (Json.ofNat n) = some n :=
      Json.naturalOf?_ofNat ht (Nat.le_refl _)
    have hmember : decode? (object n).toJson =
        (Json.naturalOf? wordBound (Json.ofNat n)).map .object := rfl
    rw [hmember, hn, Option.map_some]

private theorem value_lt_of_decode? {ν : Type} [Json.Node ν] {node : ν} {t : Total}
    (h : decode? node = some t) : t.value < wordBound := by
  rw [decode?] at h
  split at h
  · obtain ⟨n, hn, rfl⟩ := Option.map_eq_some_iff.mp h
    exact Json.lt_of_naturalOf? hn
  · obtain ⟨n, hn, rfl⟩ := Option.map_eq_some_iff.mp h
    obtain ⟨part, -, hpart⟩ := Option.bind_eq_some_iff.mp hn
    cases part with
    | none => simp [Json.required?] at hpart
    | some node => exact Json.lt_of_naturalOf? hpart
  · simp at h

end Total

namespace SearchResponse

def page (r : SearchResponse) : List (String × Json) :=
  [("hits", .array (r.hits.map Hit.toJson)), ("total", r.total.toJson)]

private theorem decodeHits?_page {r : SearchResponse} (hr : r.total.value < wordBound) :
    decodeHits? (Json.object r.page) = some (r.total, r.hits) := by
  have hfields := Json.fields?_members r.page
    [("total", r.total.toJson), ("hits", .array (r.hits.map Hit.toJson))]
    (by simp [page]) (by simp [page])
  have hlist := Json.listOf?_map fun h (_ : h ∈ r.hits) => h.decode?_toJson
  simp only [List.map_cons, List.map_nil] at hfields
  simp [decodeHits?, hfields, Json.defaulted?, Total.decode?_toJson hr, hlist]

theorem decode?_toJson {r : SearchResponse} (hr : r.total.value < wordBound) :
    decode? r.toJson = some r := by
  have hpresent : r.toJson = .object (Json.present
      [("_scroll_id", r.scrollId.map .string), ("hits", some (.object r.page))]) := by
    simp [toJson, page, Hit.textMember, Json.present, Function.comp_def]
  have hfields := Json.fields?_present
    [("_scroll_id", r.scrollId.map .string), ("hits", some (.object r.page))]
    [("_scroll_id", r.scrollId.map .string), ("hits", some (.object r.page))]
    (by simp) (by simp)
  simp only [List.map_cons, List.map_nil, ← hpresent] at hfields
  simp [decode?, hfields, Json.optional?_string, Json.defaulted?, decodeHits?_page hr]

private theorem total_lt_of_decodeHits? {ν : Type} [Json.Node ν] {node : ν} {total : Total}
    {hits : List Hit} (h : decodeHits? node = some (total, hits)) : total.value < wordBound := by
  rw [decodeHits?] at h
  split at h
  · rename_i part _ _
    simp only [Option.pure_def, Option.bind_eq_bind, Option.bind_eq_some_iff] at h
    obtain ⟨t, ht, _, -, heq⟩ := h
    obtain ⟨rfl, -⟩ := Prod.mk.inj (Option.some.inj heq)
    cases part with
    | none =>
      obtain rfl := Option.some.inj ht
      decide
    | some node => exact Total.value_lt_of_decode? ht
  · simp at h

theorem total_lt_of_decode? {ν : Type} [Json.Node ν] {node : ν} {r : SearchResponse}
    (h : decode? node = some r) : r.total.value < wordBound := by
  rw [decode?] at h
  split at h
  · rename_i _ part _
    simp only [Option.pure_def, Option.bind_eq_bind, Option.bind_eq_some_iff] at h
    obtain ⟨_, -, ⟨total, hits⟩, hpart, heq⟩ := h
    obtain rfl := Option.some.inj heq
    cases part with
    | none =>
      obtain ⟨rfl, -⟩ := Prod.mk.inj (Option.some.inj hpart)
      change Total.default.value < wordBound
      decide
    | some node => exact total_lt_of_decodeHits? hpart
  · simp at h

end SearchResponse

namespace QueryResult

theorem decode?_toJson {r : QueryResult} (hr : r.total < wordBound) :
    decode? r.toJson = some r := by
  have hfields := Json.fields?_members
    [("hits", .array (r.hits.map .object)), ("total", .ofNat r.total)]
    [("total", .ofNat r.total), ("hits", .array (r.hits.map .object))] (by simp) (by simp)
  have hlist : Json.listOf? Json.recordOf? (Json.array (r.hits.map .object)) = some r.hits :=
    Json.listOf?_map fun _ _ => rfl
  simp only [List.map_cons, List.map_nil] at hfields
  simp [decode?, toJson, hfields, Json.required?, Json.naturalOf?_ofNat hr (Nat.le_refl _), hlist]

theorem total_lt_of_decode? {ν : Type} [Json.Node ν] {node : ν} {r : QueryResult}
    (h : decode? node = some r) : r.total < wordBound := by
  rw [decode?] at h
  split at h
  · rename_i part _ _
    simp only [Option.pure_def, Option.bind_eq_bind, Option.bind_eq_some_iff] at h
    obtain ⟨total, htotal, _, -, heq⟩ := h
    obtain rfl := Option.some.inj heq
    cases part with
    | none => simp [Json.required?] at htotal
    | some node => exact Json.lt_of_naturalOf? htotal
  · simp at h

end QueryResult

/-- Answers and results are read back from what they are written as. So whatever document was read,
writing what was read and reading that gives it again. -/
theorem written_reads_back {ν : Type} [Json.Node ν] :
    (∀ r : SearchResponse, r.total.value < wordBound →
      SearchResponse.decode? r.toJson = some r) ∧
    (∀ r : QueryResult, r.total < wordBound → QueryResult.decode? r.toJson = some r) ∧
    (∀ node : ν, (SearchResponse.decode? node).bind (fun r => SearchResponse.decode? r.toJson) =
      SearchResponse.decode? node) ∧
    ∀ node : ν, (QueryResult.decode? node).bind (fun r => QueryResult.decode? r.toJson) =
      QueryResult.decode? node := by
  refine ⟨fun _ => SearchResponse.decode?_toJson, fun _ => QueryResult.decode?_toJson, ?_, ?_⟩
  · intro node
    cases h : SearchResponse.decode? node with
    | none => rfl
    | some r => exact SearchResponse.decode?_toJson (SearchResponse.total_lt_of_decode? h)
  · intro node
    cases h : QueryResult.decode? node with
    | none => rfl
    | some r => exact QueryResult.decode?_toJson (QueryResult.total_lt_of_decode? h)

def positionalAnswer : Json :=
  .array [.null, .array [
    .object [("relation", .string "eq"), ("value", .ofNat 18446744073709551615)],
    .array [.array [.string "metadata", .null, .string "a"],
      .object [("_source", .object [("n", .ofNat 1)]), ("took", .ofNat 3)]]]]

theorem written_reads_back_positional :
    let answer : SearchResponse := ⟨none, .object 18446744073709551615,
      [⟨some "metadata", none, some "a", none, none⟩, .ofSource [("n", .ofNat 1)]]⟩
    let result : QueryResult := ⟨18446744073709551615, [[("n", .ofNat 1)], []]⟩
    answer.total.value < wordBound ∧ result.total < wordBound ∧
      SearchResponse.decode? positionalAnswer = some answer ∧
      SearchResponse.decode? answer.toJson = some answer ∧
      QueryResult.decode? result.toJson = some result := by
  intro answer result
  have hanswer : answer.total.value < wordBound := by decide
  have hresult : result.total < wordBound := by decide
  obtain ⟨hanswers, hresults, -⟩ := @written_reads_back Json _
  exact ⟨hanswer, hresult, by decide +kernel, hanswers answer hanswer, hresults result hresult⟩

end Docket
