import Docket.Proofs.Execution
import Docket.Proofs.Order
import Docket.Proofs.Writing

/-!
Posting a record and querying it back. Every value equals itself as a store compares values, so an
equality on a stored value selects its document; and a query that wants every match shows what it
selects, whatever the cap on pages.
-/

set_option autoImplicit false
set_option relaxedAutoImplicit false

namespace Docket

open Record (idField typeField)

private theorem StoredDocument.mem_putInto_self (d : StoredDocument) (docs : List StoredDocument) :
    d ∈ d.putInto docs := by
  induction docs with
  | nil => exact List.mem_cons_self
  | cons e rest ih =>
    rw [putInto]
    split
    · exact List.mem_cons_self
    · exact List.mem_cons_of_mem e ih

private theorem StoredDocument.field?_source (d : StoredDocument) {field : String}
    (hid : field ≠ idField) (htype : field ≠ typeField) :
    d.field? field = d.source.get? field := by
  rw [field?, if_neg hid, if_neg htype]

private theorem Constraint.accepts_equality {d : StoredDocument} {field : String}
    {value item : Json} (hvalue : d.field? field = some value) (hitem : item ∈ value.asList) :
    (equality field item).Accepts d :=
  ⟨value, hvalue, item, hitem, item.compare_self⟩

def Query.equal (field : String) (value : Json) : Query where
  fields := none
  constraints := [.equality field value]
  size := defaultSize
  sort := none
  fetchAll := true

private theorem QueryBuilder.compose_equal {field : String} (hfield : field ≠ "") (value : Json) :
    (ofCalls [.equal field value]).compose = .ok (.equal field value) := by
  have hnontrivial : (Constraint.equality field value).isTrivial = false := beq_false_of_ne hfield
  simp [ofCalls, call, Call.equal, addConstraint, compose, hnontrivial, Query.equal]

namespace Fetch

variable {c : ClientConfig} {m : InMemory} {d : StoredDocument} {field : String} {value : Json}

private theorem query_equal_finds (cap : Option Nat) (freshId : Nat → String)
    (hfailure : m.failure = none) (hd : d ∈ m.documents c.index) (hfield : field ≠ "")
    (haccepts : (Constraint.equality field value).Accepts d) :
    ∃ r, (query c (.inMemory cap freshId) (.ofCalls [.equal field value]) m).1.answer =
        .ok (some r) ∧ d.source ∈ r.hits := by
  obtain ⟨docs, hdocs, hd⟩ : ∃ docs, m.store.documents? c.index = some docs ∧ d ∈ docs := by
    rw [InMemory.documents] at hd
    cases hdocs : m.store.documents? c.index with
    | none => simp [hdocs] at hd
    | some docs => exact ⟨docs, rfl, by simpa [hdocs] using hd⟩
  have hpatterns : (Query.equal field value).PatternsCompile := by
    intro f pattern hmem
    simp [Query.equal] at hmem
  have hselects : (Query.equal field value).Selects d := by
    intro constraint hmem _
    rw [List.mem_singleton.mp hmem]
    exact haccepts
  have hkeys : (Query.equal field value).keys.length ≤ 1 := Nat.zero_le 1
  have hselect := Query.select_eq_filter hpatterns docs
  have hexecuted : (execute c (.inMemory cap freshId) (.equal field value) m).1.answer = _ :=
    execute_selected rfl hkeys hfailure hdocs hselect
  rw [query, QueryBuilder.compose_equal hfield]
  refine ⟨_, hexecuted, ?_⟩
  have hfound : d ∈ docs.filter (Query.equal field value).Selects :=
    List.mem_filter.mpr ⟨hd, decide_eq_true hselects⟩
  exact List.mem_map.mpr ⟨d, (Query.arranged_perm _ _ _).mem_iff.mpr hfound, rfl⟩

end Fetch

section Posting

variable {c : ClientConfig} {m : InMemory} {r : Record}

def Post.stored (c : ClientConfig) (freshId : Nat → String) (m : InMemory) (docType : String)
    (r : Record) (o : PostOptions) (now : Binary64) : StoredDocument :=
  let a := document c docType r o now
  ⟨freshId m.made, a.docType, a.source⟩

theorem Post.single_stores (htransport : c.transport = .http) (hr : r ≠ [])
    (hfailure : m.failure = none) (cap : Option Nat) (freshId : Nat → String) (net : DatagramNet)
    (docType : String) (o : PostOptions) (now : Binary64) :
    ∃ calls, single c (.inMemory cap freshId) net docType r o now m =
      (nothing, { m with
        store := m.store.put c.index (stored c freshId m docType r o now)
        made := m.made + 1
        calls := calls }) := by
  have hnonempty : r.isEmpty = false := by simpa using hr
  refine ⟨{ m.calls with index := m.calls.index + 1 }, ?_⟩
  simp [single, hnonempty, htransport, Engine.inMemory, InMemory.unlessFailing, hfailure,
    InMemory.write, stored, document]

/-- A record that is posted over HTTP comes back unchanged from the query for any value of a field
of the document stored, or for an item of it if it is a list, and from the query for its type; caps
on pages do not matter. -/
theorem Client.post_then_query (c : ClientConfig) (net : DatagramNet) (cap : Option Nat)
    (freshId : Nat → String) (now later : Nat → Binary64) (docType : String) (r : Record)
    (o : PostOptions) (m : InMemory) (htransport : c.transport = .http) (hr : r ≠ [])
    (hfailure : m.failure = none) :
    let client : Client InMemory := ⟨c, .inMemory cap freshId, net⟩
    let stored := Post.stored c freshId m docType r o (now 0)
    let posted := client.run now (.post docType r o) m
    posted.1.answer = .posted true ∧
      posted.2.store = m.store.put c.index stored ∧ stored ∈ posted.2.documents c.index ∧
      (∀ field value item, field ≠ "" → field ≠ idField → field ≠ typeField →
        stored.source.get? field = some value → item ∈ value.asList →
        ∃ result, (client.run later (.query [.equal field item]) posted.2).1.answer =
            .queried (.ok (some result)) ∧ stored.source ∈ result.hits) ∧
      ∃ result,
        (client.run later (.query [.equal typeField (.string stored.docType)]) posted.2).1.answer =
          .queried (.ok (some result)) ∧ stored.source ∈ result.hits := by
  intro client stored posted
  obtain ⟨calls, hsingle⟩ :=
    Post.single_stores htransport hr hfailure cap freshId net docType o (now 0)
  have hanswer : posted.1.answer = .posted true := by
    simp [posted, client, Client.run, hsingle, Post.nothing]
  have hafter : posted.2 = { m with
      store := m.store.put c.index stored, made := m.made + 1, calls := calls } := by
    simp [posted, client, Client.run, hsingle, stored]
  have hstore : posted.2.store = m.store.put c.index stored := by rw [hafter]
  have hfailure' : posted.2.failure = none := by rw [hafter, hfailure]
  have hmem : stored ∈ posted.2.documents c.index := by
    rw [InMemory.documents, hstore, Store.documents?_put, if_pos rfl]
    exact stored.mem_putInto_self _
  have hfinds : ∀ field value, field ≠ "" → (Constraint.equality field value).Accepts stored →
      ∃ result, (client.run later (.query [.equal field value]) posted.2).1.answer =
        .queried (.ok (some result)) ∧ stored.source ∈ result.hits := by
    intro field value hfield haccepts
    obtain ⟨result, hresult, hhit⟩ :=
      Fetch.query_equal_finds cap freshId hfailure' hmem hfield haccepts
    exact ⟨result, congrArg Answer.queried hresult, hhit⟩
  refine ⟨hanswer, hstore, hmem, ?_, ?_⟩
  · intro field value item hfield hid htype hvalue hitem
    apply hfinds field item hfield
    apply Constraint.accepts_equality _ hitem
    rwa [stored.field?_source hid htype]
  · apply hfinds typeField _ (by decide)
    exact Constraint.accepts_equality rfl List.mem_cons_self

def pagelessClient : Client InMemory :=
  ⟨.default, .inMemory (some 0) fun _ => "new", .ofHosts ⟨[]⟩ []⟩

def guest : Record :=
  [("_type", .string "guest"), ("names", .array [.string "g1", .string "alias"])]

theorem Client.post_then_query_guest :
    let posted := pagelessClient.run (fun _ => .ofInt 0) (.post "host" guest { stamp := false }) {}
    ClientConfig.default.transport = .http ∧ guest ≠ [] ∧ posted.1.answer = .posted true ∧
      (∃ result, (pagelessClient.run (fun _ => .ofInt 1) (.query [.equal "names" (.string "alias")])
          posted.2).1.answer = .queried (.ok (some result)) ∧
        [("names", .array [.string "g1", .string "alias"])] ∈ result.hits) ∧
      ∃ result, (pagelessClient.run (fun _ => .ofInt 1) (.query [.equal "_type" (.string "guest")])
          posted.2).1.answer = .queried (.ok (some result)) ∧
        [("names", .array [.string "g1", .string "alias"])] ∈ result.hits := by
  have hguest : guest ≠ [] := by simp [guest]
  obtain ⟨haccepted, -, -, hfields, htype⟩ := Client.post_then_query .default (.ofHosts ⟨[]⟩ [])
    (some 0) (fun _ => "new") (fun _ => .ofInt 0) (fun _ => .ofInt 1) "host" guest
    { stamp := false } {} rfl hguest rfl
  have halias := hfields "names" (.array [.string "g1", .string "alias"]) (.string "alias")
    (by decide) (by decide) (by decide) rfl (by simp [Json.asList])
  exact ⟨rfl, hguest, haccepted, halias, htype⟩

end Posting

end Docket
