import Docket.Proofs.Conduct
import Docket.Proofs.HitOrder
import Mathlib.Data.List.Perm.Subperm

/-!
Results of queries that ask for some fields. Whichever way the hits of a query are fetched, its
records are those of stored documents that it selects, each at most once. A record has just the
fields asked for that its document has, with the document's values; a list of one item is shown by
the item. The store wraps a value that is no list into one, and the client takes this off again, so
that of nested lists the outermost alone can get lost.
-/

set_option autoImplicit false
set_option relaxedAutoImplicit false

namespace Docket

/-- How a value of a document looks in a record: a list of one item as the item, anything else as
it is. -/
inductive Json.LooksLike : Json → Json → Prop
  | item (v : Json) : LooksLike (.array [v]) v
  | itself {v : Json} (h : ∀ item, v ≠ .array [item]) : LooksLike v v

private theorem Json.looksLike_unwrap (v : Json) : v.LooksLike (Hit.unwrap v) := by
  match v with
  | .array [item] => exact .item item
  | .array [] => exact .itself (by simp)
  | .array (_ :: _ :: _) => exact .itself (by simp)
  | .null | .bool _ | .number _ | .string _ | .object _ => exact .itself (by simp)

private theorem Hit.unwrap_asList (v : Json) : unwrap (.array v.asList) = unwrap v := by
  cases v <;> rfl

namespace StoredDocument

variable {d : StoredDocument} {names : List String} {r : Record}

structure ShownAs (d : StoredDocument) (names : List String) (r : Record) : Prop where
  sorted : r.Sorted
  has_iff (key : String) : r.has key ↔ key ∈ names ∧ (d.field? key).isSome
  looks (key : String) (v shown : Json) :
    d.field? key = some v → r.get? key = some shown → v.LooksLike shown

private theorem sorted_project (d : StoredDocument) (names : List String) :
    (d.project names).Sorted := by
  rw [project]
  refine List.foldlRecOn names _ .nil ?_
  intro r hr name _
  cases d.field? name with
  | none => exact hr
  | some v => exact hr.insert name _

private theorem get?_rendered (d : StoredDocument) (names : List String) (key : String) :
    (d.rendered (some names)).get? key =
      if key ∈ names then (d.field? key).map Hit.unwrap else none := by
  rw [rendered, Hit.get?_unwrapped, get?_project]
  split
  · rw [Option.map_map]
    exact congrArg (Option.map · _) (funext Hit.unwrap_asList)
  · rfl

private theorem shownAs_rendered (d : StoredDocument) (names : List String) :
    d.ShownAs names (d.rendered (some names)) where
  sorted := by
    rw [rendered]
    exact List.pairwise_map.mpr (d.sorted_project names)
  has_iff key := by
    rw [Record.has, get?_rendered]
    by_cases h : key ∈ names <;> simp [h]
  looks key v shown hv hshown := by
    rw [get?_rendered, hv] at hshown
    split at hshown
    · obtain rfl := Option.some.inj hshown
      exact v.looksLike_unwrap
    · cases hshown

private theorem ShownAs.exists (h : d.ShownAs names r) {key : String} {v : Json}
    (hkey : key ∈ names)
    (hv : d.field? key = some v) : ∃ shown, r.get? key = some shown ∧ v.LooksLike shown := by
  have hhas : r.has key := (h.has_iff key).mpr ⟨hkey, by rw [hv, Option.isSome_some]⟩
  obtain ⟨shown, hshown⟩ := Option.isSome_iff_exists.mp hhas
  exact ⟨shown, hshown, h.looks key v shown hv hshown⟩

private theorem ShownAs.empty (h : d.ShownAs names r) {key : String} (hkey : key ∈ names)
    (hv : d.field? key = some (.array [])) : r.get? key = some (.array []) := by
  obtain ⟨shown, hshown, hlooks⟩ := h.exists hkey hv
  cases hlooks
  exact hshown

private theorem ShownAs.nested (h : d.ShownAs names r) {key : String} {items : List Json}
    (hkey : key ∈ names) (hv : d.field? key = some (.array [.array items])) :
    r.get? key = some (.array items) := by
  obtain ⟨shown, hshown, hlooks⟩ := h.exists hkey hv
  cases hlooks with
  | item => exact hshown
  | itself hne => exact absurd rfl (hne (.array items))

end StoredDocument

namespace Fetch

variable {c : ClientConfig} {cap : Option Nat} {freshId : Nat → String} {m : InMemory} {q : Query}
  {r : QueryResult}

private theorem complete_shown {docs found : List StoredDocument} (size : Nat)
    (hfailure : m.failure = none) (hdocs : m.store.documents? c.index = some docs)
    (hselect : Clause.select q.clauses docs = .ok found)
    (h : (complete c (.inMemory cap freshId) q (.ofPage found.length
      (((StoredDocument.sortByAll q.keys found).map fun d => d.toHit c.index q.fields).take size))
      m).1.answer = .ok (some r)) :
    ∃ shown : List StoredDocument, shown.Subperm found ∧
      r.hits = shown.map fun d => d.rendered q.fields := by
  rw [complete] at h
  split at h
  · -- the matches were streamed, which takes one sort key at most
    generalize hstream : stream c (.inMemory cap freshId) q m = streamed at h
    by_cases hkeys : q.keys.length ≤ 1
    · have hanswer : (stream c (.inMemory cap freshId) q m).1.answer =
          .ok ((q.arranged true found).map fun d => d.toHit c.index q.fields) :=
        stream_selected hkeys hfailure hdocs hselect
      rw [hstream] at hanswer
      simp only [hanswer, Except.map] at h
      obtain rfl := Option.some.inj (Except.ok.inj h)
      exact ⟨_, (q.arranged_perm true found).subperm, normalize_hits _ _ _⟩
    · have hseveral : streamKey q = .error (severalKeys q.keys) := streamKey_of_several (by omega)
      rw [stream, hseveral] at hstream
      subst hstream
      cases h
  · obtain rfl := Option.some.inj (Except.ok.inj h)
    have hpage : ((StoredDocument.sortByAll q.keys found).take size).Subperm found :=
      (List.take_sublist size _).subperm.trans (stableSort_perm _ found).subperm
    refine ⟨_, hpage, ?_⟩
    simp only [SearchResponse.ofPage, ← List.map_take, normalize_hits]

private theorem execute_shown
    (h : (execute c (.inMemory cap freshId) q m).1.answer = .ok (some r)) :
    ∃ docs found shown, m.store.documents? c.index = some docs ∧
      Clause.select q.clauses docs = .ok found ∧ List.Subperm shown found ∧
      r.hits = shown.map fun d => d.rendered q.fields := by
  cases hfailure : m.failure with
  | some detail => simp [execute_failing hfailure] at h
  | none =>
    cases hdocs : m.store.documents? c.index with
    | none => simp [execute_missing hfailure hdocs] at h
    | some docs =>
      cases hselect : Clause.select q.clauses docs with
      | error e =>
        rw [execute_refused hfailure hdocs hselect] at h
        split at h <;> cases h
      | ok found =>
        have hpage := Store.page_sizedBody hdocs q q.size cap
        simp only [hselect, Except.map] at hpage
        simp only [execute, Engine.inMemory, InMemory.unlessFailing, hfailure, Store.has, hdocs,
          Option.isSome_some, Query.body, hpage] at h
        obtain ⟨shown, hshown, hhits⟩ := complete_shown _ (by rfl) (by exact hdocs) hselect h
        exact ⟨docs, found, shown, rfl, hselect, hshown, hhits⟩

/-- The records of a query that asks for some fields show those fields of documents that it selects,
each document at most once. An empty list is shown as it is, and of a list within a list of one the
inner list. -/
theorem execute_shows_projection (c : ClientConfig) (cap : Option Nat) (freshId : Nat → String)
    (m : InMemory) (q : Query) (names : List String) (r : QueryResult)
    (hfields : q.fields = some names)
    (h : (execute c (.inMemory cap freshId) q m).1.answer = .ok (some r)) :
    ∃ docs found shown, m.store.documents? c.index = some docs ∧
      Clause.select q.clauses docs = .ok found ∧ List.Subperm shown found ∧
      List.Forall₂ (fun (d : StoredDocument) (record : Record) =>
        d.ShownAs names record ∧
        ∀ key ∈ names,
          (d.field? key = some (.array []) → record.get? key = some (.array [])) ∧
          ∀ items, d.field? key = some (.array [.array items]) →
            record.get? key = some (.array items)) shown r.hits := by
  obtain ⟨docs, found, shown, hdocs, hselect, hsubperm, hhits⟩ := execute_shown h
  refine ⟨docs, found, shown, hdocs, hselect, hsubperm, ?_⟩
  rw [hhits, hfields, List.forall₂_map_right_iff, List.forall₂_same]
  intro d _
  have hshown := d.shownAs_rendered names
  refine ⟨hshown, fun key hkey => ⟨?_, ?_⟩⟩
  · exact hshown.empty hkey
  · intro items
    exact hshown.nested hkey

/-- Runs with lists of steps: none, one, one that is a list itself, and no list. -/
def runs : InMemory :=
  { store := ⟨[("metadata",
      [⟨"1", "run", [("steps", .array [])]⟩,
        ⟨"2", "run", [("steps", .array [.string "boot"])]⟩,
        ⟨"3", "run", [("steps", .array [.array [.string "boot"]])]⟩,
        ⟨"4", "run", [("steps", .string "boot")]⟩, ⟨"5", "run", []⟩])]⟩ }

def runQuery : Query where
  fields := some ["steps", "_id", "steps", "host"]
  constraints := []
  size := 2
  sort := none
  fetchAll := true

def shownRuns : QueryResult where
  total := 5
  hits :=
    [[("_id", .string "1"), ("steps", .array [])],
      [("_id", .string "2"), ("steps", .string "boot")],
      [("_id", .string "3"), ("steps", .array [.string "boot"])],
      [("_id", .string "4"), ("steps", .string "boot")], [("_id", .string "5")]]

theorem execute_shows_projection_runs :
    runQuery.fields = some ["steps", "_id", "steps", "host"] ∧
    (execute .default (.inMemory none fun _ => "new") runQuery runs).1.answer =
      .ok (some shownRuns) ∧
    ∃ docs found shown, runs.store.documents? ClientConfig.default.index = some docs ∧
      Clause.select runQuery.clauses docs = .ok found ∧ List.Subperm shown found ∧
      List.Forall₂ (fun (d : StoredDocument) (record : Record) =>
        d.ShownAs ["steps", "_id", "steps", "host"] record ∧
        ∀ key ∈ ["steps", "_id", "steps", "host"],
          (d.field? key = some (.array []) → record.get? key = some (.array [])) ∧
          ∀ items, d.field? key = some (.array [.array items]) →
            record.get? key = some (.array items)) shown shownRuns.hits := by
  have hruns : (execute .default (.inMemory none fun _ => "new") runQuery runs).1.answer =
      .ok (some shownRuns) := by rfl
  exact ⟨rfl, hruns, execute_shows_projection .default none (fun _ => "new") runs runQuery
    ["steps", "_id", "steps", "host"] shownRuns rfl hruns⟩

end Fetch

end Docket
