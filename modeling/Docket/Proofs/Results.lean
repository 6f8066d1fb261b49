import Docket.Proofs.Execution
import Docket.Proofs.Order

/-!
Results of queries that want every match of a store in memory: they are complete, they do not depend
on the size of pages as long as hits carry the values that they are sorted by, and they are stably
sorted by the values that the way taken reads. All of this is for values that are ordered
transitively. Then every sort on the way is given a total preorder, as it has to be.
-/

set_option autoImplicit false
set_option relaxedAutoImplicit false

namespace Docket.Fetch

open Record (idField typeField)

section Preorders

/-- The values that a query sorts by are ordered transitively: the documents' own, and, if hits are
streamed, the ones that the hits carry. -/
def OrdersValues (q : Query) (streamed : Bool) (found : List StoredDocument) : Prop :=
  ∀ k ∈ q.keys, TransitiveOn Json.compare (· ∈ found.map fun d => d.sortValue k.field) ∧
    (streamed = true →
      TransitiveOn Json.compare (· ∈ found.map fun d => d.carriedValue k.field q.fields))

/-- The sorts of an execution are given total preorders: those of the documents found, one for each
page, and that of the hits, if they are streamed. -/
structure SortsPreordered (c : ClientConfig) (q : Query) (streamed : Bool)
    (found : List StoredDocument) : Prop where
  documents : TotalPreorderOn (fun a b => StoredDocument.compareByAll a b q.keys) (· ∈ found)
  hits : streamed = true → ∀ k ∈ q.keys,
    TotalPreorderOn (Hit.compareBy k) (· ∈ found.map fun d => d.toHit c.index q.fields)

variable {q : Query} {streamed : Bool} {found : List StoredDocument}

private theorem OrdersValues.sortsPreordered (h : OrdersValues q streamed found)
    (c : ClientConfig) :
    SortsPreordered c q streamed found where
  documents := StoredDocument.compareByAll_totalPreorderOn fun k hk =>
    StoredDocument.compareBy_totalPreorderOn (h k hk).1
  hits := by
    intro hstreamed k hk
    apply Hit.compareBy_totalPreorderOn k
    have hcarried : (found.map fun d => d.toHit c.index q.fields).map (·.sortValue k.field) =
        found.map fun d => d.carriedValue k.field q.fields := by
      rw [List.map_map]
      exact List.map_congr_left fun d _ => d.sortValue_toHit c.index q.fields k.field
    rw [hcarried]
    exact (h k hk).2 hstreamed

private theorem OrdersValues.resultOrder (h : OrdersValues q streamed found) {k : SortKey}
    (hk : k ∈ q.keys) : TotalPreorderOn (q.resultOrder streamed k) (· ∈ found) := by
  have htrans : TransitiveOn Json.compare (· ∈ found.map (q.readValue streamed k.field)) := by
    cases streamed with
    | false => exact (h k hk).1
    | true => exact (h k hk).2 rfl
  have hpreorder := (SortOrder.apply_totalPreorderOn htrans k.order).comap
    (q.readValue streamed k.field)
  exact hpreorder.mono fun _ hd => List.mem_map_of_mem hd

end Preorders

section Completeness

def hosts : List StoredDocument :=
  [⟨"a", "host", [("name", .string "h1"), ("state", .string "up")]⟩,
    ⟨"b", "host", [("name", .array [.string "h2", .string "alias"]), ("state", .string "up")]⟩,
    ⟨"c", "host", [("name", .string "h3"), ("state", .string "up")]⟩,
    ⟨"d", "host", [("name", .string "h4"), ("state", .string "down")]⟩]

def hostStore : InMemory := { store := ⟨[("metadata", hosts)]⟩ }

def hostQuery : Query where
  fields := some ["name"]
  constraints := [.equality "state" (.string "up"), .regex "name" "h[1-4]"]
  size := 1
  sort := some [⟨"name", .desc⟩]
  fetchAll := true

theorem hostQuery_patternsCompile : hostQuery.PatternsCompile := by
  intro field pattern hmem
  simp only [hostQuery, List.mem_cons, reduceCtorEq, Constraint.regex.injEq, List.not_mem_nil,
    or_false, false_or] at hmem
  obtain ⟨-, rfl⟩ := hmem
  exact ⟨_, rfl⟩

private theorem upHosts_ordered :
    TransitiveOn Json.compare (· ∈ (hosts.take 3).map fun d => d.sortValue "name") := by
  have hnames : ((hosts.take 3).map fun d => d.sortValue "name") =
      [.string "h1", .array [.string "h2", .string "alias"], .string "h3"] := rfl
  apply Json.transitiveOn_of_numberless
  simp [hnames, Json.NumbersIn.string, Json.numbersIn_array_iff]

private theorem hostQuery_ordersValues :
    OrdersValues hostQuery true (hosts.filter hostQuery.Selects) := by
  have hselected : hosts.filter hostQuery.Selects = hosts.take 3 := by decide +kernel
  intro k hk
  obtain rfl : k = ⟨"name", .desc⟩ := by simpa [hostQuery, Query.keys] using hk
  refine ⟨hselected ▸ upHosts_ordered, fun _ => ?_⟩
  have hcarried : ((hosts.take 3).map fun d => d.carriedValue "name" hostQuery.fields) =
      [.string "h1", .string "h2", .string "h3"] := rfl
  apply Json.transitiveOn_of_numberless
  simp [hselected, hcarried, Json.NumbersIn.string]

end Completeness

section Paging

/-- Hits carry what a query sorts by: it does not sort, or it wants whole records and sorts by a
field of the source, or it projects its key and no selected document has a list there. -/
def SortsByCarried (q : Query) (docs : List StoredDocument) : Prop :=
  q.keys = [] ∨
    (q.fields = none ∧ ∀ k ∈ q.keys, k.field ≠ idField ∧ k.field ≠ typeField) ∨
    ∃ names, q.fields = some names ∧ ∀ k ∈ q.keys, k.field ∈ names ∧
      ∀ d ∈ docs, q.Selects d → ∀ items, d.field? k.field ≠ some (.array items)

private theorem carriedValue_of_sortsByCarried {q : Query} {docs : List StoredDocument}
    (h : SortsByCarried q docs) {k : SortKey} (hk : k ∈ q.keys) {d : StoredDocument}
    (hd : d ∈ docs) (hselects : q.Selects d) :
    d.carriedValue k.field q.fields = d.sortValue k.field := by
  rcases h with hnone | ⟨hfields, hsource⟩ | ⟨names, hfields, hprojected⟩
  · simp [hnone] at hk
  · rw [hfields]
    exact d.carriedValue_source (hsource k hk).1 (hsource k hk).2
  · rw [hfields]
    obtain ⟨hmem, hlists⟩ := hprojected k hk
    exact d.carriedValue_projected hmem (hlists d hd hselects)

private theorem readValue_own {q : Query} {docs : List StoredDocument} {streamed : Bool}
    (h : streamed = false ∨ SortsByCarried q docs) {k : SortKey} (hk : k ∈ q.keys)
    {d : StoredDocument} (hd : d ∈ docs.filter q.Selects) :
    q.readValue streamed k.field d = d.sortValue k.field := by
  obtain ⟨hmem, hselects⟩ := List.mem_filter.mp hd
  cases streamed with
  | false => rfl
  | true =>
    have hsort : SortsByCarried q docs := by simpa using h
    exact carriedValue_of_sortsByCarried hsort hk hmem (of_decide_eq_true hselects)

end Paging

section Sorted

/-- The result is stably sorted by the values that the way taken reads: the documents' own when the
first page holds all matches, and the ones that the hits carry when they are streamed. If hits carry
what the query sorts by, these are the documents' own as well. -/
theorem execute_stably_sorted (c : ClientConfig) (cap : Option Nat) (freshId : Nat → String)
    (m : InMemory) (q : Query) (k : SortKey) (docs : List StoredDocument)
    (hfailure : m.failure = none) (hdocs : m.store.documents? c.index = some docs)
    (hall : q.fetchAll = true) (hkeys : q.keys = [k]) (hpatterns : q.PatternsCompile)
    (hvalues : OrdersValues q (q.streams cap (docs.filter q.Selects).length)
      (docs.filter q.Selects)) :
    SortsPreordered c q (q.streams cap (docs.filter q.Selects).length) (docs.filter q.Selects) ∧
    ∃ r sorted, (execute c (.inMemory cap freshId) q m).1.answer = .ok (some r) ∧
      r.hits = sorted.map (fun d => d.rendered q.fields) ∧
      StablySorted (q.resultOrder (q.streams cap (docs.filter q.Selects).length) k)
        (docs.filter q.Selects) sorted ∧
      (q.streams cap (docs.filter q.Selects).length = false ∨ SortsByCarried q docs →
        StablySorted (StoredDocument.compareBy k) (docs.filter q.Selects) sorted) := by
  have hselect := Query.select_eq_filter hpatterns docs
  have hk : k ∈ q.keys := by simp [hkeys]
  refine ⟨hvalues.sortsPreordered c, _, _,
    execute_selected hall (by simp [hkeys]) hfailure hdocs hselect, rfl, ?_⟩
  generalize q.streams cap (docs.filter q.Selects).length = streamed at hvalues ⊢
  have harranged : q.arranged streamed (docs.filter q.Selects) =
      stableSort (q.resultOrder streamed k) (docs.filter q.Selects) := by
    simp [Query.arranged, hkeys]
  have hsorted := stableSort_stablySorted _ (hvalues.resultOrder hk)
  rw [← harranged] at hsorted
  refine ⟨hsorted, fun hown => hsorted.congr fun a ha b hb => ?_⟩
  rw [StoredDocument.compareBy, Query.resultOrder, readValue_own hown hk ha,
    readValue_own hown hk hb]

theorem execute_stably_sorted_hosts :
    OrdersValues hostQuery true (hosts.filter hostQuery.Selects) ∧
    ∃ r sorted,
      (execute .default (.inMemory (some 2) fun _ => "new") hostQuery hostStore).1.answer =
        .ok (some r) ∧
      r.hits = sorted.map (fun d => d.rendered hostQuery.fields) ∧
      StablySorted (hostQuery.resultOrder true ⟨"name", .desc⟩) (hosts.filter hostQuery.Selects)
        sorted := by
  have hstreams : hostQuery.streams (some 2) (hosts.filter hostQuery.Selects).length = true := by
    decide +kernel
  obtain ⟨-, r, sorted, hresult, hhits, hsorted, -⟩ := execute_stably_sorted .default (some 2)
    (fun _ => "new") hostStore hostQuery ⟨"name", .desc⟩ hosts rfl rfl rfl rfl
    hostQuery_patternsCompile (hstreams ▸ hostQuery_ordersValues)
  exact ⟨hostQuery_ordersValues, r, sorted, hresult, hhits, hstreams ▸ hsorted⟩

def unsortedHosts : List StoredDocument :=
  [⟨"a", "host", [("name", .string "h2"), ("state", .string "up")]⟩,
    ⟨"b", "host", [("name", .string "h1"), ("state", .string "down")]⟩]

def statesByName : Query :=
  ⟨some ["state"], [.range "name" (some (.string "h")) none], 10, some [⟨"name", .asc⟩], true⟩

/-- Streamed hits that do not carry the key stay in the order of the store, so the documents' own
values do not always order the result. -/
theorem own_values_do_not_order_streamed_hits :
    ¬ ∀ (c : ClientConfig) (cap : Option Nat) (freshId : Nat → String) (m : InMemory) (q : Query)
      (k : SortKey) (docs : List StoredDocument), m.failure = none →
      m.store.documents? c.index = some docs → q.fetchAll = true → q.keys = [k] →
      q.PatternsCompile →
      TransitiveOn Json.compare (· ∈ docs.map fun d => d.sortValue k.field) →
      ∃ r sorted, (execute c (.inMemory cap freshId) q m).1.answer = .ok (some r) ∧
        r.hits = sorted.map (fun d => d.rendered q.fields) ∧
        StablySorted (StoredDocument.compareBy k) (docs.filter q.Selects) sorted := by
  intro hclaim
  have hpatterns : statesByName.PatternsCompile := by
    intro field pattern hmem
    simp [statesByName] at hmem
  have hnames : TransitiveOn Json.compare (· ∈ unsortedHosts.map fun d => d.sortValue "name") := by
    apply Json.transitiveOn_of_numberless
    have hvalues : (unsortedHosts.map fun d => d.sortValue "name") =
        [.string "h2", .string "h1"] := rfl
    simp [hvalues, Json.NumbersIn.string]
  obtain ⟨r, sorted, hresult, hhits, hsorted⟩ := hclaim .default (some 1) (fun _ => "new")
    { store := ⟨[("metadata", unsortedHosts)]⟩ } statesByName ⟨"name", .asc⟩ unsortedHosts rfl rfl
    rfl rfl hpatterns hnames
  have hstreamed : (execute .default (.inMemory (some 1) fun _ => "new") statesByName
      { store := ⟨[("metadata", unsortedHosts)]⟩ }).1.answer =
      .ok (some ⟨2, [[("state", .string "up")], [("state", .string "down")]]⟩) := rfl
  rw [hstreamed] at hresult
  obtain rfl := Option.some.inj (Except.ok.inj hresult)
  have hmem : ∀ d ∈ sorted, d ∈ unsortedHosts := fun d hd =>
    (List.mem_filter.mp (hsorted.perm.mem_iff.mp hd)).1
  match sorted with
  | [] => simp at hhits
  | [_] => simp at hhits
  | _ :: _ :: _ :: _ => simp at hhits
  | [x, y] =>
    have hx := hmem x (by simp)
    have hy := hmem y (by simp)
    simp only [unsortedHosts, List.mem_cons, List.not_mem_nil, or_false] at hx hy
    -- The records tell which host is which, and these two descend by name.
    rcases hx with rfl | rfl
    · rcases hy with rfl | rfl
      · exact absurd hhits (by decide)
      · exact absurd hsorted.ascending (by decide)
    · exact absurd (List.cons.inj hhits).1 (by decide)

end Sorted

end Docket.Fetch
