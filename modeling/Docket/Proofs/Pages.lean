import Docket.InMemory
import Docket.Proofs.Sorting

/-!
A page and a stream of one body. Both show the hits that the body selects, in one order: the stream
shows all of them, the page the first ones, and it counts them all. What a body says about size and
projection, and the cap of the store, decide how much of each hit a page shows and of how many, but
not how many there are.
-/

set_option autoImplicit false
set_option relaxedAutoImplicit false

namespace Docket

namespace SearchBody

/-- The page size that a body asks for: its `size`, if that is a whole number from zero on, and else
ten. -/
inductive AsksFor (body : Json) : Nat → Prop
  | stated (n : Nat) (h : InWord n) (hsize : body.get? "size" = some (.number (.int n h))) :
    AsksFor body n
  | unstated (hsize : ∀ (n : Nat) (h : InWord n), body.get? "size" ≠ some (.number (.int n h))) :
    AsksFor body 10

private theorem unsigned?_eq_some_iff {v : Json} {n : Nat} :
    v.unsigned? = some n ↔ ∃ h : InWord n, v = .number (.int n h) := by
  constructor
  · intro h
    match v with
    | .number (.int (.ofNat k) inRange) =>
      obtain rfl : k = n := by simpa [Json.unsigned?, Number.unsigned?] using h
      exact ⟨inRange, rfl⟩
    | .number (.int (.negSucc k) _) =>
      have hnegative : ¬ 0 ≤ Int.negSucc k := by omega
      simp [Json.unsigned?, Number.unsigned?, hnegative] at h
    | .number (.double _) | .null | .bool _ | .string _ | .array _ | .object _ =>
      simp [Json.unsigned?, Number.unsigned?] at h
  · rintro ⟨h, rfl⟩
    simp [Json.unsigned?, Number.unsigned?]

private theorem stated_iff {body : Json} {n : Nat} :
    (body.get? "size").bind Json.unsigned? = some n ↔
      ∃ h : InWord n, body.get? "size" = some (.number (.int n h)) := by
  simp only [Option.bind_eq_some_iff, unsigned?_eq_some_iff]
  constructor
  · rintro ⟨v, hv, h, rfl⟩
    exact ⟨h, hv⟩
  · rintro ⟨h, hv⟩
    exact ⟨_, hv, h, rfl⟩

private theorem asksFor_iff {body : Json} {n : Nat} : AsksFor body n ↔ n = size body := by
  rw [size]
  constructor
  · rintro (⟨n, h, hsize⟩ | hsize)
    · rw [stated_iff.mpr ⟨h, hsize⟩, Option.getD_some]
    · have hnone : (body.get? "size").bind Json.unsigned? = none := by
        rw [Option.eq_none_iff_forall_ne_some]
        intro n hn
        obtain ⟨h, hstated⟩ := stated_iff.mp hn
        exact hsize n h hstated
      rw [hnone]
      rfl
  · rintro rfl
    cases hsize : (body.get? "size").bind Json.unsigned? with
    | some n =>
      obtain ⟨h, hstated⟩ := stated_iff.mp hsize
      exact .stated n h hstated
    | none =>
      refine .unstated fun n h hstated => ?_
      rw [stated_iff.mpr ⟨h, hstated⟩] at hsize
      cases hsize

end SearchBody

namespace Store

variable {s : Store} {index : String} {body other : Json}

private theorem clauses_congr (hquery : other.get? "query" = body.get? "query") :
    SearchBody.clauses other = SearchBody.clauses body := by
  rw [SearchBody.clauses, SearchBody.clauses, hquery]

/-- How many hits a body selects, or why it is refused, depends on its query alone. -/
theorem hits_length_congr (hquery : other.get? "query" = body.get? "query") :
    (s.hits index other).map List.length = (s.hits index body).map List.length := by
  simp only [hits, matching, clauses_congr hquery, bind, Except.bind]
  cases s.documents? index with
  | none => rfl
  | some docs =>
    cases SearchBody.clauses body with
    | error e => rfl
    | ok clauses =>
      simp only
      cases Clause.select clauses docs with
      | error e => rfl
      | ok found =>
        have hlength : ∀ keys, (StoredDocument.sortByAll keys found).length = found.length :=
          fun keys => (stableSort_perm _ found).length_eq
        simp [Except.map, pure, Except.pure, hlength]

private theorem hits_congr (hquery : other.get? "query" = body.get? "query")
    (hsort : other.get? "sort" = body.get? "sort")
    (hfields : other.get? "fields" = body.get? "fields") :
    s.hits index other = s.hits index body := by
  have hkeys : SearchBody.sortKeys other = SearchBody.sortKeys body := by
    rw [SearchBody.sortKeys, SearchBody.sortKeys, hsort]
  have hnames : SearchBody.fields? other = SearchBody.fields? body := by
    rw [SearchBody.fields?, SearchBody.fields?, hfields]
  simp only [hits, matching, clauses_congr hquery, hkeys, hnames]

end Store

namespace InMemory

variable (cap : Option Nat) (freshId : Nat → String) (m : InMemory) (index : String) (body : Json)

def found : Except EngineError (List Hit) :=
  match m.failure with
  | some detail => .error (.network detail)
  | none => m.store.hits index body

private theorem search_found :
    ((Engine.inMemory cap freshId).search index body m).1 = (m.found index body).map fun hits =>
      .ofPage hits.length (hits.take (Store.capped (SearchBody.size body) cap)) := by
  simp only [Engine.inMemory, unlessFailing, found]
  cases m.failure <;> rfl

private theorem scan_found (batch : Nat) (limit : Option Nat) :
    ((Engine.inMemory cap freshId).scan index body batch limit m).1 =
      (m.found index body).map fun hits => .quiet (takeUpTo limit (hits.map .ok)) := by
  simp only [Engine.inMemory, unlessFailing, found]
  cases m.failure <;> rfl

variable {m index body} {other : Json}

private theorem found_length_congr (hquery : other.get? "query" = body.get? "query") :
    (m.found index other).map List.length = (m.found index body).map List.length := by
  simp only [found]
  cases m.failure with
  | some detail => rfl
  | none => exact Store.hits_length_congr hquery

private theorem found_congr (hquery : other.get? "query" = body.get? "query")
    (hsort : other.get? "sort" = body.get? "sort")
    (hfields : other.get? "fields" = body.get? "fields") :
    m.found index other = m.found index body := by
  simp only [found, Store.hits_congr hquery hsort hfields]

private theorem search_total :
    ((Engine.inMemory cap freshId).search index body m).1.map SearchResponse.total =
      ((m.found index body).map List.length).map Total.count := by
  rw [search_found]
  cases m.found index body <;> rfl

private theorem hits_of_search {page : SearchResponse}
    (h : ((Engine.inMemory cap freshId).search index body m).1 = .ok page) {size : Nat}
    (hsize : SearchBody.AsksFor body size) :
    ∃ hits, m.found index body = .ok hits ∧ page.hits = hits.take (Store.capped size cap) := by
  rw [search_found] at h
  cases hfound : m.found index body with
  | error e =>
    rw [hfound] at h
    cases h
  | ok hits =>
    rw [hfound] at h
    obtain rfl := Except.ok.inj h
    exact ⟨hits, rfl, by rw [SearchBody.asksFor_iff.mp hsize]; rfl⟩

/-- Whatever the state of the store and the body, a search and a scan fail alike, or the search
counts the hits of the scan and shows the first of them, as many as the size that the body asks for
and the cap allow. So bodies that select alike are refused alike or have the same total, however
they page and project, under any caps; and if they also sort and project alike, the smaller page is
the beginning of the larger one. -/
theorem search_agrees_with_scan (m : InMemory) (index : String) (body : Json) (cap : Option Nat)
    (freshId : Nat → String) :
    let search (cap : Option Nat) (body : Json) :=
      ((Engine.inMemory cap freshId).search index body m).1
    let scan (batch : Nat) (limit : Option Nat) :=
      ((Engine.inMemory cap freshId).scan index body batch limit m).1
    ((∃ e, search cap body = .error e ∧ ∀ batch limit, scan batch limit = .error e) ∨
      ∃ (hits : List Hit) (size : Nat), SearchBody.AsksFor body size ∧
        search cap body = .ok (.ofPage hits.length (hits.take (Store.capped size cap))) ∧
        ∀ batch limit, scan batch limit = .ok (.quiet (takeUpTo limit (hits.map .ok)))) ∧
    ∀ (other : Json) (cap' : Option Nat), other.get? "query" = body.get? "query" →
      (search cap' other).map SearchResponse.total = (search cap body).map SearchResponse.total ∧
      (other.get? "sort" = body.get? "sort" → other.get? "fields" = body.get? "fields" →
        ∀ page page' size size', search cap body = .ok page → search cap' other = .ok page' →
          SearchBody.AsksFor body size → SearchBody.AsksFor other size' →
          Store.capped size cap ≤ Store.capped size' cap' → page.hits <+: page'.hits) := by
  intro search scan
  have hsearch := search_found cap freshId m index body
  have hscan := scan_found cap freshId m index body
  constructor
  · cases hfound : m.found index body with
    | error e =>
      simp only [hfound] at hsearch hscan
      exact .inl ⟨e, hsearch, hscan⟩
    | ok hits =>
      simp only [hfound] at hsearch hscan
      exact .inr ⟨hits, _, SearchBody.asksFor_iff.mpr rfl, hsearch, hscan⟩
  · intro other cap' hquery
    constructor
    · simp only [search, search_total, found_length_congr hquery]
    · intro hsort hfields page page' size size' hpage hpage' hsize hsize' hle
      obtain ⟨hits, hfound, hhits⟩ := hits_of_search cap freshId hpage hsize
      obtain ⟨hits', hfound', hhits'⟩ := hits_of_search cap' freshId hpage' hsize'
      rw [found_congr hquery hsort hfields, hfound] at hfound'
      obtain rfl := Except.ok.inj hfound'
      rw [hhits, hhits']
      exact List.take_prefix_take_left hle

def queue : InMemory :=
  { store := ⟨[("jobs", [⟨"a", "job", [("n", .ofNat 3)]⟩, ⟨"b", "job", [("n", .ofNat 1)]⟩,
    ⟨"c", "job", [("n", .ofNat 2)]⟩])]⟩ }

def jobsByNumber (size : Json) : Json :=
  .object [("query", .object []), ("size", size), ("sort", .array [.string "n", .null])]

theorem search_agrees_with_scan_queue :
    let search (cap : Option Nat) (body : Json) :=
      ((Engine.inMemory cap fun _ => "new").search "jobs" body queue).1
    (jobsByNumber (.string "all")).get? "query" = (jobsByNumber (.ofNat 1)).get? "query" ∧
    ∃ page page', search none (jobsByNumber (.ofNat 1)) = .ok page ∧
      search (some 2) (jobsByNumber (.string "all")) = .ok page' ∧
      page.hits.map Hit.id = [some "b"] ∧ page'.hits.map Hit.id = [some "b", some "c"] ∧
      page.hits <+: page'.hits := by
  intro search
  obtain ⟨-, halike⟩ := search_agrees_with_scan queue "jobs" (jobsByNumber (.ofNat 1)) none
    fun _ => "new"
  obtain ⟨-, hprefix⟩ := halike (jobsByNumber (.string "all")) (some 2) rfl
  exact ⟨rfl, _, _, rfl, rfl, by decide +kernel, by decide +kernel,
    hprefix rfl rfl _ _ _ _ rfl rfl (SearchBody.asksFor_iff.mpr rfl)
      (SearchBody.asksFor_iff.mpr rfl) (by decide +kernel)⟩

end InMemory

end Docket
