import Docket.Client.Fetch
import Docket.InMemory
import Docket.Proofs.Order
import Docket.Proofs.Rendering
import Docket.Proofs.Request
import Docket.Proofs.Selection
import Docket.Proofs.Sorting

/-!
Executing a query on a store in memory. Whether the first page is complete or the matches are
streamed, the result shows the selected documents; the way taken decides only by which value they
are ordered.
-/

set_option autoImplicit false
set_option relaxedAutoImplicit false

namespace Docket

section Comparisons

theorem SortOrder.apply_totalPreorderOn {S : Json → Prop} (h : TransitiveOn Json.compare S)
    (o : SortOrder) : TotalPreorderOn (fun a b => o.apply (a.compare b)) S := by
  have hcompare : TotalPreorderOn Json.compare S := ⟨Json.compare_swap, h⟩
  cases o with
  | asc => exact hcompare
  | desc => exact hcompare.reversed

theorem Hit.compareBy_totalPreorderOn (k : SortKey) {hits : List Hit}
    (htrans : TransitiveOn Json.compare (· ∈ hits.map fun h => h.sortValue k.field)) :
    TotalPreorderOn (Hit.compareBy k) (· ∈ hits) := by
  have hpreorder := (SortOrder.apply_totalPreorderOn htrans k.order).comap
    fun h : Hit => h.sortValue k.field
  exact hpreorder.mono fun _ hh => List.mem_map_of_mem hh

namespace StoredDocument

variable {keys : List SortKey} {docs : List StoredDocument}

theorem compareBy_totalPreorderOn {k : SortKey}
    (htrans : TransitiveOn Json.compare (· ∈ docs.map fun d => d.sortValue k.field)) :
    TotalPreorderOn (compareBy k) (· ∈ docs) := by
  have hpreorder := (SortOrder.apply_totalPreorderOn htrans k.order).comap
    fun d : StoredDocument => d.sortValue k.field
  exact hpreorder.mono fun _ hd => List.mem_map_of_mem hd

theorem compareByAll_totalPreorderOn
    (hkeys : ∀ k ∈ keys, TotalPreorderOn (compareBy k) (· ∈ docs)) :
    TotalPreorderOn (fun a b => compareByAll a b keys) (· ∈ docs) := by
  induction keys with
  | nil => exact ⟨fun _ _ => rfl, fun _ _ _ _ _ _ _ _ => by simp [compareByAll]⟩
  | cons k rest ih =>
    rw [List.forall_mem_cons] at hkeys
    exact hkeys.1.lexicographic (ih hkeys.2)

end StoredDocument

end Comparisons

namespace Store

variable {s : Store} {index : String} {docs : List StoredDocument}

theorem matching_of_documents {body : Json} {clauses : List Json}
    (hdocs : s.documents? index = some docs) (hclauses : SearchBody.clauses body = .ok clauses) :
    s.matching index body = (Clause.select clauses docs).map
      (StoredDocument.sortByAll (SearchBody.sortKeys body)) := by
  simp only [matching, hdocs, hclauses, bind, Except.bind]
  cases Clause.select clauses docs <;> rfl

theorem page_sizedBody (hdocs : s.documents? index = some docs) (q : Query) (size : UInt64)
    (cap : Option Nat) :
    s.page index (q.sizedBody size) cap = (Clause.select q.clauses docs).map fun found =>
      .ofPage found.length (((StoredDocument.sortByAll q.keys found).map fun d =>
        d.toHit index q.fields).take (capped size.toNat cap)) := by
  simp only [page, hits, matching_of_documents hdocs (q.clauses_sizedBody size),
    q.sortKeys_sizedBody, q.fields?_sizedBody, q.size_sizedBody]
  cases Clause.select q.clauses docs with
  | error e => rfl
  | ok found =>
    have hlength : (StoredDocument.sortByAll q.keys found).length = found.length :=
      (stableSort_perm _ found).length_eq
    simp [Except.map, hlength]

theorem hits_scanBody (hdocs : s.documents? index = some docs) (q : Query) :
    s.hits index q.scanBody = (Clause.select q.clauses docs).map fun found =>
      found.map fun d => d.toHit index q.fields := by
  simp only [hits, matching_of_documents hdocs q.clauses_scanBody, q.sortKeys_scanBody,
    q.fields?_scanBody]
  cases Clause.select q.clauses docs with
  | error e => rfl
  | ok found =>
    have hsort : StoredDocument.sortByAll [] found = found :=
      stableSort_of_ties _ found fun _ _ => rfl
    simp [Except.map, hsort]

end Store

namespace Query

def streams (q : Query) (cap : Option Nat) (matched : Nat) : Bool :=
  Store.capped q.size.toNat cap < matched

/-- The value by which a result orders a document: the document's own, or, once the matches are
streamed, the one that its hit carries. -/
def readValue (q : Query) (streamed : Bool) (key : String) (d : StoredDocument) : Json :=
  if streamed then d.carriedValue key q.fields else d.sortValue key

def resultOrder (q : Query) (streamed : Bool) (k : SortKey) (a b : StoredDocument) : Ordering :=
  k.order.apply ((q.readValue streamed k.field a).compare (q.readValue streamed k.field b))

def arranged (q : Query) (streamed : Bool) (found : List StoredDocument) : List StoredDocument :=
  match q.keys with
  | [] => found
  | k :: _ => stableSort (q.resultOrder streamed k) found

theorem arranged_perm (q : Query) (streamed : Bool) (found : List StoredDocument) :
    (q.arranged streamed found).Perm found := by
  rw [arranged]
  cases q.keys with
  | nil => exact .refl _
  | cons k rest => exact stableSort_perm _ found

/-- The engine's own order is the order by the documents' values. -/
theorem sortByAll_keys {q : Query} (hkeys : q.keys.length ≤ 1) (found : List StoredDocument) :
    StoredDocument.sortByAll q.keys found = q.arranged false found := by
  rw [arranged]
  match hk : q.keys with
  | [] => exact stableSort_of_ties _ found fun _ _ => rfl
  | [k] =>
    refine stableSort_congr _ found fun a _ b _ => ?_
    simp [StoredDocument.compareByAll, StoredDocument.compareBy, resultOrder, readValue]
  | _ :: _ :: _ => simp [hk] at hkeys

theorem streamKey_of_keys {q : Query} (hkeys : q.keys.length ≤ 1) :
    Fetch.streamKey q = .ok q.keys.head? := by
  rw [keys] at hkeys ⊢
  rw [Fetch.streamKey]
  cases hs : q.sort with
  | none => rfl
  | some sort =>
    rw [hs] at hkeys
    rcases sort with _ | ⟨k, _ | ⟨l, rest⟩⟩
    · rfl
    · rfl
    · simp at hkeys

theorem arrange_hits (q : Query) (index : String) (found : List StoredDocument) :
    (Fetch.arrange q.keys.head? (found.map fun d => d.toHit index q.fields)).answer =
      (q.arranged true found).map fun d => d.toHit index q.fields := by
  rw [arranged]
  cases q.keys with
  | nil => rfl
  | cons k rest =>
    refine stableSort_map _ _ found fun a _ b _ => ?_
    simp [Hit.compareBy, StoredDocument.sortValue_toHit, resultOrder, readValue]

end Query

namespace Fetch

theorem collect_ok (p : Progress) (count : Nat) (hits : List Hit) :
    (collect p count (hits.map .ok)).answer = .ok hits := by
  induction hits generalizing p count with
  | nil => rfl
  | cons hit hits ih => simp [collect, ih, Except.map]

variable {c : ClientConfig} {cap : Option Nat} {freshId : Nat → String} {m : InMemory} {q : Query}

theorem execute_missing (hfailure : m.failure = none)
    (hdocs : m.store.documents? c.index = none) :
    (execute c (.inMemory cap freshId) q m).1.answer = .ok none := by
  simp [execute, Engine.inMemory, InMemory.unlessFailing, hfailure, Store.has, hdocs]

theorem execute_failing {detail : String} (hfailure : m.failure = some detail) :
    (execute c (.inMemory cap freshId) q m).1.answer = .error (.engine (.network detail)) := by
  simp [execute, Engine.inMemory, InMemory.unlessFailing, hfailure]

theorem execute_refused {docs : List StoredDocument} {e : EngineError}
    (hfailure : m.failure = none) (hdocs : m.store.documents? c.index = some docs)
    (hselect : Clause.select q.clauses docs = .error e) :
    (execute c (.inMemory cap freshId) q m).1.answer =
      if e.isIndexNotFound then .ok none else .error (.engine e) := by
  have hpage := Store.page_sizedBody hdocs q q.size cap
  rw [hselect] at hpage
  simp only [execute, Engine.inMemory, InMemory.unlessFailing, hfailure, Store.has, hdocs,
    Option.isSome_some, Query.body, hpage, Except.map]
  split <;> rfl

theorem fallsShort_page (hall : q.fetchAll = true) (limit : Option Nat) (hits : List Hit) :
    fallsShort q (.ofPage hits.length (hits.take (Store.capped q.size.toNat limit))) =
      q.streams limit hits.length := by
  simp only [fallsShort, hall, SearchResponse.ofPage, Total.value, List.length_take, Bool.true_and,
    Query.streams, decide_eq_decide]
  omega

theorem stream_selected {docs found : List StoredDocument} (hkeys : q.keys.length ≤ 1)
    (hfailure : m.failure = none) (hdocs : m.store.documents? c.index = some docs)
    (hselect : Clause.select q.clauses docs = .ok found) :
    (stream c (.inMemory cap freshId) q m).1.answer =
      .ok ((q.arranged true found).map fun d => d.toHit c.index q.fields) := by
  have hcount := Store.page_sizedBody hdocs q 1 cap
  have hscan := Store.hits_scanBody hdocs q
  rw [hselect] at hcount hscan
  simp only [stream, Query.streamKey_of_keys hkeys, Engine.inMemory, InMemory.unlessFailing,
    hfailure, Query.countBody, hcount, hscan, Except.map, finish, Scan.quiet, takeUpTo, collect_ok,
    Query.arrange_hits]

theorem normalize_hits (docs : List StoredDocument) (index : String)
    (fields : Option (List String)) :
    (docs.map fun d => d.toHit index fields).map Hit.normalize =
      docs.map fun d => d.rendered fields := by
  rw [List.map_map]
  exact List.map_congr_left fun d _ => d.normalize_toHit index fields

theorem complete_selected {docs found : List StoredDocument} (hall : q.fetchAll = true)
    (hkeys : q.keys.length ≤ 1) (hfailure : m.failure = none)
    (hdocs : m.store.documents? c.index = some docs)
    (hselect : Clause.select q.clauses docs = .ok found) :
    (complete c (.inMemory cap freshId) q (.ofPage found.length
      (((q.arranged false found).map fun d => d.toHit c.index q.fields).take
        (Store.capped q.size.toNat cap))) m).1.answer = .ok (some ⟨found.length,
      (q.arranged (q.streams cap found.length) found).map fun d => d.rendered q.fields⟩) := by
  have hlength : ((q.arranged false found).map fun d => d.toHit c.index q.fields).length =
      found.length := by
    rw [List.length_map]
    exact (q.arranged_perm false found).length_eq
  have hshort := fallsShort_page hall cap
    ((q.arranged false found).map fun d => d.toHit c.index q.fields)
  rw [hlength] at hshort
  simp only [complete, hshort]
  cases hs : q.streams cap found.length with
  | true =>
    simp only [if_true, stream_selected hkeys hfailure hdocs hselect, Except.map, normalize_hits]
    rfl
  | false =>
    have hfits : found.length ≤ Store.capped q.size.toNat cap := by
      simpa [Query.streams] using hs
    simp only [Bool.false_eq_true, if_false, SearchResponse.ofPage, Total.value]
    rw [List.take_of_length_le (by omega), normalize_hits]

/-- The result of a query whose selection succeeds: every selected document, rendered, in the order
of the way taken. -/
theorem execute_selected {docs found : List StoredDocument} (hall : q.fetchAll = true)
    (hkeys : q.keys.length ≤ 1) (hfailure : m.failure = none)
    (hdocs : m.store.documents? c.index = some docs)
    (hselect : Clause.select q.clauses docs = .ok found) :
    (execute c (.inMemory cap freshId) q m).1.answer = .ok (some ⟨found.length,
      (q.arranged (q.streams cap found.length) found).map fun d => d.rendered q.fields⟩) := by
  have hpage := Store.page_sizedBody hdocs q q.size cap
  simp only [hselect, Except.map, Query.sortByAll_keys hkeys] at hpage
  simp only [execute, Engine.inMemory, InMemory.unlessFailing, hfailure, Store.has, hdocs,
    Option.isSome_some, Query.body, hpage]
  exact complete_selected hall hkeys (by rfl) (by exact hdocs) hselect

end Fetch

end Docket
