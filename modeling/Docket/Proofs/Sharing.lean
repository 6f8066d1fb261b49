import Docket.Proofs.Conduct
import Docket.Proofs.Results
import Docket.Proofs.Writing

/-!
Executing a query on a store that others write to. Every call sees the documents of its own moment:
the total of a result counts the matches at the search for the first page, and streamed hits are the
matches at the scan.
-/

set_option autoImplicit false
set_option relaxedAutoImplicit false

namespace Docket

inductive Write where
  | index (index docType : String) (document : Record)
  | bulk (actions : List BulkAction)

namespace Write

variable {σ : Type}

def run (e : Engine σ) (s : σ) : Write → σ
  | .index i docType document => (e.index i docType document s).2
  | .bulk actions => (e.bulk actions s).2

def actions : Write → List BulkAction
  | .index i docType document => [⟨i, docType, none, document⟩]
  | .bulk actions => actions

end Write

section Sharing

variable {σ α : Type}

/-- Runs a call after what the others write before it; the state numbers the calls. -/
def Engine.inTurn (e : Engine σ) (others : Nat → List Write) (call : σ → α × σ) (s : σ × Nat) :
    α × (σ × Nat) :=
  let (answer, t) := call ((others s.2).foldl (Write.run e) s.1)
  (answer, (t, s.2 + 1))

/-- The same store, shared with others; what they write before a call goes by the number of calls
that have been made. -/
def Engine.shared (e : Engine σ) (others : Nat → List Write) : Engine (σ × Nat) where
  indexExists i := e.inTurn others (e.indexExists i)
  index i t d := e.inTurn others (e.index i t d)
  search i b := e.inTurn others (e.search i b)
  bulk as := e.inTurn others (e.bulk as)
  scan i b n limit := e.inTurn others (e.scan i b n limit)

def writtenBefore (others : Nat → List Write) (calls : Nat) : List BulkAction :=
  (List.range calls).flatMap fun k => (others k).flatMap Write.actions

private theorem writtenBefore_succ (others : Nat → List Write) (calls : Nat) :
    writtenBefore others (calls + 1) =
      writtenBefore others calls ++ (others calls).flatMap Write.actions := by
  simp [writtenBefore, List.range_succ]

end Sharing

namespace InMemory

variable {freshId : Nat → String} {others : Nat → List Write} {cap : Option Nat} {m : InMemory}

private theorem sameContents_write (w : Write) :
    (w.run (.inMemory cap freshId) m).SameContents (m.afterWrites freshId w.actions) := by
  cases w with
  | index i docType document => exact index_sameContents freshId cap m i docType document
  | bulk actions => exact bulk_sameContents freshId cap m actions

private theorem sameContents_writes (ws : List Write) :
    (ws.foldl (Write.run (.inMemory cap freshId)) m).SameContents
      (m.afterWrites freshId (ws.flatMap Write.actions)) := by
  induction ws generalizing m with
  | nil =>
    rw [List.flatMap_nil, afterWrites_nil]
    exact .refl m
  | cons w ws ih =>
    rw [List.flatMap_cons, afterWrites_append]
    exact ih.trans ((sameContents_write w).afterWrites freshId _)

/-- What a store holds at the call with a number, counted from one. -/
def atCall (freshId : Nat → String) (others : Nat → List Write) (m : InMemory) (number : Nat) :
    InMemory :=
  m.afterWrites freshId (writtenBefore others number)

private theorem atCall_succ (number : Nat) :
    m.atCall freshId others (number + 1) =
      (m.atCall freshId others number).afterWrites freshId
        ((others number).flatMap Write.actions) := by
  rw [atCall, writtenBefore_succ, afterWrites_append, atCall]

structure Reached (freshId : Nat → String) (others : Nat → List Write) (m : InMemory)
    (calls : Nat) (s : InMemory × Nat) : Prop where
  made : s.2 = calls
  contents : s.1.SameContents (m.atCall freshId others calls)

private theorem Reached.start : Reached freshId others m 0 (m, 0) := by
  refine ⟨rfl, ?_⟩
  rw [atCall, writtenBefore, List.range_zero, List.flatMap_nil, afterWrites_nil]
  exact .refl m

variable {calls : Nat} {s : InMemory × Nat}

/-- One more call that only reads. If it succeeds, its answer is that of what the store holds in its
turn. -/
theorem Reached.inTurn {α : Type} (h : Reached freshId others m calls s)
    {call : InMemory → Except EngineError α × InMemory} (answer : InMemory → Except EngineError α)
    (hanswer : ∀ n a, (call n).1 = .ok a → ∀ k, n.SameContents k → answer k = .ok a)
    (hreads : ∀ n, (call n).2.SameContents n) {a : α}
    (ha : ((Engine.inMemory cap freshId).inTurn others call s).1 = .ok a) :
    answer (m.atCall freshId others (calls + 1)) = .ok a ∧
      Reached freshId others m (calls + 1)
        ((Engine.inMemory cap freshId).inTurn others call s).2 := by
  obtain ⟨n, k⟩ := s
  obtain ⟨rfl, hcontents⟩ := h
  have hturn : ((others k).foldl (Write.run (.inMemory cap freshId)) n).SameContents
      (m.atCall freshId others (k + 1)) := by
    rw [atCall_succ]
    exact (sameContents_writes (others k)).trans (hcontents.afterWrites freshId _)
  exact ⟨hanswer _ a ha _ hturn, rfl, (hreads _).trans hturn⟩

private theorem unlessFailing_ok {α : Type} {run : InMemory → Except EngineError α × InMemory}
    {a : α} (h : (m.unlessFailing run).1 = .ok a) : (run m).1 = .ok a := by
  unfold unlessFailing at h
  split at h
  · cases h
  · exact h

private theorem Reached.indexExists (h : Reached freshId others m calls s) {index : String}
    {a : Bool}
    (ha : (((Engine.inMemory cap freshId).shared others).indexExists index s).1 = .ok a) :
    Reached freshId others m (calls + 1)
      (((Engine.inMemory cap freshId).shared others).indexExists index s).2 := by
  refine (h.inTurn (fun k => .ok (k.store.has index)) ?_ ?_ ha).2
  · intro n a ha k hk
    rw [← hk.store]
    exact unlessFailing_ok ha
  · intro n
    exact ((readsAgree_contents freshId cap n).indexExists ⟨rfl, .refl n⟩ index).2.2

private theorem Reached.search (h : Reached freshId others m calls s) {index : String} {body : Json}
    {page : SearchResponse}
    (ha : (((Engine.inMemory cap freshId).shared others).search index body s).1 = .ok page) :
    (m.atCall freshId others (calls + 1)).store.page index body cap = .ok page ∧
      Reached freshId others m (calls + 1)
        (((Engine.inMemory cap freshId).shared others).search index body s).2 := by
  refine h.inTurn (fun k => k.store.page index body cap) ?_ ?_ ha
  · intro n a ha k hk
    rw [← hk.store]
    exact unlessFailing_ok ha
  · intro n
    exact ((readsAgree_contents freshId cap n).search ⟨rfl, .refl n⟩ index body).2.2

private theorem Reached.scan (h : Reached freshId others m calls s) {index : String} {body : Json}
    {batch : Nat} {scan : Scan}
    (ha : (((Engine.inMemory cap freshId).shared others).scan index body batch none s).1 =
      .ok scan) :
    ∃ hits, (m.atCall freshId others (calls + 1)).store.hits index body = .ok hits ∧
      scan = .quiet (hits.map .ok) := by
  have hanswer := (h.inTurn (fun k => (k.store.hits index body).map fun hits =>
    Scan.quiet (hits.map .ok)) ?_ ?_ ha).1
  · cases hhits : (m.atCall freshId others (calls + 1)).store.hits index body with
    | error e => simp [hhits, Except.map] at hanswer
    | ok hits =>
      simp only [hhits, Except.map, Except.ok.injEq] at hanswer
      exact ⟨hits, rfl, hanswer.symm⟩
  · intro n a ha k hk
    rw [← hk.store]
    exact unlessFailing_ok ha
  · intro n
    exact ((readsAgree_contents freshId cap n).scan ⟨rfl, .refl n⟩ index body batch none).2.2

end InMemory

section Matches

variable {m : InMemory} {index : String} {q : Query}

def InMemory.selected (m : InMemory) (index : String) (q : Query) : List StoredDocument :=
  (m.documents index).filter q.Selects

private theorem InMemory.selected_atCall_succ {freshId : Nat → String} {others : Nat → List Write}
    {number : Nat} (h : ∀ w ∈ others number, ∀ a ∈ w.actions, index ≠ a.index) :
    (m.atCall freshId others (number + 1)).selected index q =
      (m.atCall freshId others number).selected index q := by
  have helsewhere : ∀ a ∈ (others number).flatMap Write.actions, index ≠ a.index := by
    intro a ha
    obtain ⟨w, hw, haw⟩ := List.mem_flatMap.mp ha
    exact h w hw a haw
  rw [selected, documents, atCall_succ, afterWrites]
  split
  · rfl
  · rw [documents?_writeAll_of_ne freshId helsewhere]
    rfl

theorem InMemory.eq_of_select {α : Type} {docs : List StoredDocument}
    (hdocs : m.store.documents? index = some docs) {f : List StoredDocument → α} {a : α}
    (h : (Clause.select q.clauses docs).map f = .ok a) : a = f (m.selected index q) := by
  cases hselect : Clause.select q.clauses docs with
  | error e => simp [hselect, Except.map] at h
  | ok found =>
    simp only [hselect, Except.map, Except.ok.injEq] at h
    rw [← h, selected, documents, hdocs, Option.getD_some, ← Query.select_ok hselect]

private theorem InMemory.total_of_page {size : UInt64} {cap : Option Nat} {page : SearchResponse}
    (h : m.store.page index (q.sizedBody size) cap = .ok page) :
    page.total.value = (m.selected index q).length := by
  cases hdocs : m.store.documents? index with
  | none => simp [Store.page, Store.hits, Store.matching, hdocs, Except.map] at h
  | some docs =>
    rw [Store.page_sizedBody hdocs] at h
    rw [eq_of_select hdocs h]
    rfl

private theorem InMemory.hits_of_scan {hits : List Hit}
    (h : m.store.hits index q.scanBody = .ok hits) :
    hits = (m.selected index q).map fun d => d.toHit index q.fields := by
  cases hdocs : m.store.documents? index with
  | none => simp [Store.hits, Store.matching, hdocs, Except.map] at h
  | some docs =>
    rw [Store.hits_scanBody hdocs] at h
    exact eq_of_select hdocs h

end Matches

namespace Fetch

variable {σ : Type} {c : ClientConfig} {e : Engine σ} {q : Query} {s t : σ}
  {first : SearchResponse} {s₂ : σ} {r : Logged (Except QueryError (Option QueryResult))}
  {made : List Engine.Observation} {result : QueryResult}

private theorem Course.of_short (h : Course c e q s r t made)
    (hfirst : firstPage c e q s = some (first, s₂)) (hshort : fallsShort q first = true)
    (hr : r.answer = .ok (some result)) :
    ∃ counted scan hits s₃ s₄, e.search c.index q.countBody s₂ = (.ok counted, s₃) ∧
      e.scan c.index q.scanBody Query.scrollSize none s₃ = (.ok scan, s₄) ∧
      (finish q.keys.head? counted.total.value scan).answer = .ok hits ∧
      result = ⟨first.total.value, hits.map Hit.normalize⟩ := by
  cases h with
  | paged first' s' hfirst' hshort' =>
    obtain ⟨rfl, -⟩ := Prod.mk.inj (Option.some.inj (hfirst.symm.trans hfirst'))
    simp [hshort] at hshort'
  | streamed first' counted scan s' s₃ s₄ hfirst' hshort' hkeys hcount hscan =>
    obtain ⟨rfl, rfl⟩ := Prod.mk.inj (Option.some.inj (hfirst.symm.trans hfirst'))
    cases hfinish : (finish q.keys.head? counted.total.value scan).answer with
    | error x => simp [hfinish, Except.map] at hr
    | ok hits =>
      simp only [hfinish, Except.map, Except.ok.injEq, Option.some.injEq] at hr
      exact ⟨counted, scan, hits, s₃, t, hcount, hscan, hfinish, hr.symm⟩
  | _ => simp at hr

variable {cap : Option Nat} {freshId : Nat → String} {others : Nat → List Write} {m : InMemory}

private theorem firstPage_shared {s₂ : InMemory × Nat}
    (hfirst : firstPage c ((Engine.inMemory cap freshId).shared others) q (m, 0) =
      some (first, s₂)) :
    first.total.value = ((m.atCall freshId others 2).selected c.index q).length ∧
      InMemory.Reached freshId others m 2 s₂ := by
  unfold firstPage at hfirst
  split at hfirst
  · rename_i s₁ hexists
    have hasked := InMemory.Reached.start.indexExists (congrArg Prod.fst hexists)
    rw [hexists] at hasked
    split at hfirst
    · rename_i page t hsearch
      obtain ⟨rfl, rfl⟩ := Prod.mk.inj (Option.some.inj hfirst)
      obtain ⟨hpage, hreached⟩ := hasked.search (congrArg Prod.fst hsearch)
      rw [hsearch] at hreached
      exact ⟨InMemory.total_of_page hpage, hreached⟩
    · simp at hfirst
  · simp at hfirst

/-- A query on a store in memory that others write to before each of its calls, whose first page
falls short and that has a result. The total counts the matches that the store holds when the first
page is asked for, which is the second call; the hits are the matches that it holds when it is
scanned, which is the fourth. They agree exactly when in between the number of matches has not
changed, so they do when nothing is written to the index in between. -/
theorem execute_shared (c : ClientConfig) (cap : Option Nat) (freshId : Nat → String)
    (others : Nat → List Write) (q : Query) (m : InMemory) (first : SearchResponse)
    (s₂ : InMemory × Nat) (result : QueryResult)
    (hfirst : firstPage c ((Engine.inMemory cap freshId).shared others) q (m, 0) =
      some (first, s₂))
    (hshort : fallsShort q first = true)
    (hresult : (execute c ((Engine.inMemory cap freshId).shared others) q (m, 0)).1.answer =
      .ok (some result)) :
    let counted := (m.atCall freshId others 2).selected c.index q
    let scanned := (m.atCall freshId others 4).selected c.index q
    result.total = counted.length ∧
      result.hits = (q.arranged true scanned).map (fun d => d.rendered q.fields) ∧
      (result.total = result.hits.length ↔ counted.length = scanned.length) ∧
      ((∀ w ∈ others 2 ++ others 3, ∀ a ∈ w.actions, c.index ≠ a.index) →
        result.total = result.hits.length) := by
  intro counted scanned
  obtain ⟨htotal, hreached⟩ := firstPage_shared hfirst
  obtain ⟨r, t, made, hcourse, hexecute, -⟩ := exists_course c
    ((Engine.inMemory cap freshId).shared others) q (m, 0)
  rw [hexecute] at hresult
  obtain ⟨recounted, scan, hits, s₃, s₄, hcount, hscan, hfinish, rfl⟩ :=
    hcourse.of_short hfirst hshort hresult
  have hreached' := (hreached.search (congrArg Prod.fst hcount)).2
  rw [hcount] at hreached'
  obtain ⟨found, hfound, rfl⟩ := hreached'.scan (congrArg Prod.fst hscan)
  obtain rfl := InMemory.hits_of_scan hfound
  simp only [finish, Scan.quiet, collect_ok, Query.arrange_hits, Except.ok.injEq] at hfinish
  have hhits : hits.map Hit.normalize =
      (q.arranged true scanned).map fun d => d.rendered q.fields := by
    rw [← hfinish, normalize_hits]
  have hlength : (hits.map Hit.normalize).length = scanned.length := by
    rw [hhits, List.length_map, (q.arranged_perm true scanned).length_eq]
  refine ⟨htotal, hhits, ?_, ?_⟩
  · rw [hlength, htotal]
  · intro helsewhere
    rw [List.forall_mem_append] at helsewhere
    have hsame : scanned = counted := (InMemory.selected_atCall_succ helsewhere.2).trans
      (InMemory.selected_atCall_succ helsewhere.1)
    rw [hlength, hsame, htotal]

def neighbours (calls : Nat) : List Write :=
  if calls = 0 then [.index "metadata" "host" [("name", .string "h1"), ("state", .string "up")]]
  else if calls = 3 then [.bulk [⟨"guests", "host", some "e", [("state", .string "up")]⟩]]
  else []

def latecomer (calls : Nat) : List Write :=
  if calls = 3 then [.index "metadata" "host" [("name", .string "h1"), ("state", .string "up")]]
  else []

def fourUp : List Record :=
  [[("name", .string "h3")], [("name", .array [.string "h2", .string "alias"])],
    [("name", .string "h1")], [("name", .string "h1")]]

def hostsShared (others : Nat → List Write) : Engine (InMemory × Nat) :=
  (Engine.inMemory (some 1) fun _ => "new").shared others

theorem execute_shared_neighbours :
    (execute .default (hostsShared neighbours) hostQuery (hostStore, 0)).1.answer =
        .ok (some ⟨4, fourUp⟩) ∧
      4 = ((hostStore.atCall (fun _ => "new") neighbours 2).selected "metadata" hostQuery).length ∧
      4 = fourUp.length := by
  have hresult : (execute .default (hostsShared neighbours) hostQuery (hostStore, 0)).1.answer =
      .ok (some ⟨4, fourUp⟩) := by decide +kernel
  have hfirst : (firstPage .default (hostsShared neighbours) hostQuery (hostStore, 0)).map
      (fun page => fallsShort hostQuery page.1) = some true := by decide +kernel
  obtain ⟨⟨first, s₂⟩, hfirst, hshort⟩ := Option.map_eq_some_iff.mp hfirst
  have helsewhere : ∀ w ∈ neighbours 2 ++ neighbours 3, ∀ a ∈ w.actions,
      ClientConfig.default.index ≠ a.index := by
    simp [neighbours, Write.actions, ClientConfig.default]
  obtain ⟨htotal, -, -, hagree⟩ := execute_shared .default (some 1) (fun _ => "new") neighbours
    hostQuery hostStore first s₂ ⟨4, fourUp⟩ hfirst hshort hresult
  exact ⟨hresult, htotal, hagree helsewhere⟩

/-- The total of streamed hits need not be their number: a match that is written before the scan is
streamed, but it has not been counted. -/
theorem shared_total_may_differ :
    ¬ ∀ (c : ClientConfig) (cap : Option Nat) (freshId : Nat → String)
      (others : Nat → List Write) (q : Query) (m : InMemory) (first : SearchResponse)
      (s₂ : InMemory × Nat) (result : QueryResult),
      firstPage c ((Engine.inMemory cap freshId).shared others) q (m, 0) = some (first, s₂) →
      fallsShort q first = true →
      (execute c ((Engine.inMemory cap freshId).shared others) q (m, 0)).1.answer =
        .ok (some result) →
      result.total = result.hits.length := by
  intro hclaim
  have hresult : (execute .default (hostsShared latecomer) hostQuery (hostStore, 0)).1.answer =
      .ok (some ⟨3, fourUp⟩) := by decide +kernel
  have hfirst : (firstPage .default (hostsShared latecomer) hostQuery (hostStore, 0)).map
      (fun page => fallsShort hostQuery page.1) = some true := by decide +kernel
  obtain ⟨⟨first, s₂⟩, hfirst, hshort⟩ := Option.map_eq_some_iff.mp hfirst
  cases hclaim .default (some 1) (fun _ => "new") latecomer hostQuery hostStore first s₂
    ⟨3, fourUp⟩ hfirst hshort hresult

end Fetch

end Docket
