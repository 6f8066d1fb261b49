import Docket.Proofs.Writing
import Mathlib.Data.List.Induction

/-!
The documents of an index as a map from ids to documents. Each write finds its place by the id and
replaces what is there, or else comes last. So in every state that a store in memory reaches an
index lists each id once, in the order of the first writes, with what was written last.
-/

set_option autoImplicit false
set_option relaxedAutoImplicit false

namespace Docket

section Map

variable {written docs : List StoredDocument} {d e : StoredDocument}

structure OrderedMap (written docs : List StoredDocument) : Prop where
  /-- One document for each id, in the order of the first writes. -/
  ids : docs.map StoredDocument.id = (written.map StoredDocument.id).eraseDups
  /-- Each document is the one last written under its id. -/
  latest : ∀ d ∈ docs, (written.filter fun w => w.id = d.id).getLast? = some d
  distinct : (docs.map StoredDocument.id).Nodup

private theorem map_id_putInto (d : StoredDocument) (docs : List StoredDocument) :
    (d.putInto docs).map StoredDocument.id =
      if d.id ∈ docs.map StoredDocument.id then docs.map StoredDocument.id
      else docs.map StoredDocument.id ++ [d.id] := by
  induction docs with
  | nil => rfl
  | cons e rest ih =>
    by_cases h : e.id = d.id
    · simp [StoredDocument.putInto, h]
    · have hne : d.id ≠ e.id := Ne.symm h
      simp only [StoredDocument.putInto, if_neg h, List.map_cons, List.mem_cons, hne, false_or, ih]
      split <;> rfl

private theorem mem_putInto (hdistinct : (docs.map StoredDocument.id).Nodup)
    (he : e ∈ d.putInto docs) :
    e = d ∨ (e ∈ docs ∧ e.id ≠ d.id) := by
  induction docs with
  | nil => exact .inl (List.mem_singleton.mp he)
  | cons first rest ih =>
    rw [List.map_cons, List.nodup_cons] at hdistinct
    rw [StoredDocument.putInto] at he
    split at he
    · rename_i hfirst
      rcases List.mem_cons.mp he with rfl | hrest
      · exact .inl rfl
      · refine .inr ⟨List.mem_cons_of_mem first hrest, ?_⟩
        intro hid
        exact hdistinct.1 (hfirst ▸ hid ▸ List.mem_map_of_mem hrest)
    · rename_i hfirst
      rcases List.mem_cons.mp he with rfl | hrest
      · exact .inr ⟨List.mem_cons_self, hfirst⟩
      · rcases ih hdistinct.2 hrest with rfl | ⟨hmem, hid⟩
        · exact .inl rfl
        · exact .inr ⟨List.mem_cons_of_mem first hmem, hid⟩

private theorem eraseDups_concat (ids : List String) (id : String) :
    (ids ++ [id]).eraseDups = if id ∈ ids then ids.eraseDups else ids.eraseDups ++ [id] := by
  rw [List.eraseDups_append, List.removeAll]
  by_cases h : id ∈ ids <;> simp [h, List.eraseDups_cons]

private theorem OrderedMap.empty : OrderedMap [] [] where
  ids := rfl
  latest _ h := absurd h List.not_mem_nil
  distinct := List.nodup_nil

private theorem OrderedMap.putInto (h : OrderedMap written docs) (d : StoredDocument) :
    OrderedMap (written ++ [d]) (d.putInto docs) where
  ids := by
    rw [map_id_putInto, List.map_append, List.map_singleton, eraseDups_concat, h.ids]
    simp only [List.mem_eraseDups]
  latest := by
    intro e he
    rcases mem_putInto h.distinct he with rfl | ⟨hmem, hid⟩
    · simp
    · simpa [List.filter_append, Ne.symm hid] using h.latest e hmem
  distinct := by
    rw [map_id_putInto]
    split
    · exact h.distinct
    · rename_i hnew
      rw [List.nodup_append]
      refine ⟨h.distinct, by simp, ?_⟩
      intro i hi j hj hij
      rw [List.mem_singleton.mp hj] at hij
      exact hnew (hij ▸ hi)

end Map

section Writes

/-- The documents that some actions write, each with its index, when `made` ids have been made. -/
def BulkAction.named (freshId : Nat → String) (made : Nat) :
    List BulkAction → List (String × StoredDocument)
  | [] => []
  | a :: rest =>
    match a.id with
    | some id => (a.index, ⟨id, a.docType, a.source⟩) :: named freshId made rest
    | none => (a.index, ⟨freshId made, a.docType, a.source⟩) :: named freshId (made + 1) rest

def BulkAction.unnamed (actions : List BulkAction) : Nat := actions.countP fun a => a.id.isNone

private theorem BulkAction.named_append (freshId : Nat → String) (made : Nat)
    (earlier later : List BulkAction) :
    named freshId made (earlier ++ later) =
      named freshId made earlier ++ named freshId (made + unnamed earlier) later := by
  induction earlier generalizing made with
  | nil => rfl
  | cons a earlier ih =>
    cases hid : a.id with
    | some id => simp [named, unnamed, hid, ih]
    | none =>
      have hcount : made + unnamed (a :: earlier) = made + 1 + unnamed earlier := by
        simp [unnamed, hid]
        omega
      simp [named, hid, ih, hcount]

def writtenTo (index : String) (writes : List (String × StoredDocument)) : List StoredDocument :=
  (writes.filter fun w => w.1 = index).map Prod.snd

def Session.requests (c : ClientConfig) (clock : Nat → Nat → Binary64)
    (steps : List InMemoryStep) : List BulkAction :=
  steps.zipIdx.flatMap fun numbered => numbered.1.requests c (clock numbered.2)

private theorem Session.requests_concat (c : ClientConfig) (clock : Nat → Nat → Binary64)
    (steps : List InMemoryStep) (step : InMemoryStep) :
    requests c clock (steps ++ [step]) =
      requests c clock steps ++ step.requests c (clock steps.length) := by
  simp [requests, List.zipIdx_append]

private theorem writtenTo_concat (index : String) (writes : List (String × StoredDocument))
    (w : String × StoredDocument) :
    writtenTo index (writes ++ [w]) =
      writtenTo index writes ++ if w.1 = index then [w.2] else [] := by
  by_cases h : w.1 = index <;> simp [writtenTo, h]

def InMemoryStep.created? : InMemoryStep → Option String
  | .createIndex index => some index
  | _ => none

private theorem InMemoryStep.mem_created_iff (index : String) (steps : List InMemoryStep) :
    index ∈ steps.filterMap created? ↔ .createIndex index ∈ steps := by
  rw [List.mem_filterMap]
  constructor
  · rintro ⟨step, hstep, hcreated⟩
    cases step with
    | createIndex i =>
      obtain rfl : i = index := by simpa [created?] using hcreated
      exact hstep
    | _ => simp [created?] at hcreated
  · intro h
    exact ⟨_, h, rfl⟩

end Writes

namespace InMemory

variable {freshId : Nat → String} {m : InMemory} {created : List String}
  {actions : List BulkAction}

open BulkAction (named unnamed named_append)

/-- What a store holds that never failed, when some indices were created and some documents
written. -/
structure Holds (freshId : Nat → String) (m : InMemory) (created : List String)
    (actions : List BulkAction) : Prop where
  documents (index : String) :
    OrderedMap (writtenTo index (named freshId 0 actions)) (m.documents index)
  has_iff (index : String) :
    m.store.has index = true ↔ index ∈ created ∨ ∃ w ∈ named freshId 0 actions, w.1 = index
  made : m.made = unnamed actions
  failure : m.failure = none

private theorem Holds.new (freshId : Nat → String) : Holds freshId {} [] [] where
  documents _ := .empty
  has_iff index := by simp [Store.has, Store.documents?, Store.empty, named]
  made := rfl
  failure := rfl

private theorem Holds.congr {n : InMemory} (h : Holds freshId m created actions)
    (hn : n.SameContents m) :
    Holds freshId n created actions where
  documents index := by
    rw [InMemory.documents, hn.store]
    exact h.documents index
  has_iff index := by
    rw [hn.store]
    exact h.has_iff index
  made := hn.made.trans h.made
  failure := hn.failure.trans h.failure

private theorem Holds.createIndex (h : Holds freshId m created actions) (index : String) :
    Holds freshId (m.createIndex index) (created ++ [index]) actions where
  documents other := by
    rw [documents_createIndex]
    exact h.documents other
  has_iff other := by
    have hcreated : (m.createIndex index).store = m.store.create index := rfl
    rw [hcreated, Store.has_create, h.has_iff, List.mem_append, List.mem_singleton]
    tauto
  made := h.made
  failure := h.failure

private theorem Holds.put (h : Holds freshId m created actions) (a : BulkAction)
    {d : StoredDocument} (hnamed : named freshId m.made [a] = [(a.index, d)]) :
    Holds freshId { m with store := m.store.put a.index d, made := m.made + unnamed [a] } created
      (actions ++ [a]) where
  documents index := by
    have hdocs := h.documents index
    rw [named_append, Nat.zero_add, ← h.made, hnamed, writtenTo_concat]
    simp only [InMemory.documents, Store.documents?_put] at hdocs ⊢
    -- The document is the newest of its index; the other indices have no new one.
    by_cases hindex : index = a.index
    · rw [hindex] at hdocs ⊢
      simpa using hdocs.putInto d
    · simpa [hindex, Ne.symm hindex] using hdocs
  has_iff index := by
    rw [Store.has_put, h.has_iff, named_append, Nat.zero_add, ← h.made, hnamed]
    simp only [List.mem_append, List.mem_singleton, or_and_right, exists_or, exists_eq_left,
      eq_comm (a := index)]
    exact or_comm.trans or_assoc
  made := by
    simp only [h.made, unnamed, List.countP_append]
  failure := h.failure

private theorem Holds.write (h : Holds freshId m created actions) (a : BulkAction) :
    Holds freshId (m.write freshId a.index a.docType a.id a.source) created (actions ++ [a]) := by
  obtain ⟨index, docType, id, source⟩ := a
  cases id with
  | some id => exact h.put ⟨index, docType, some id, source⟩ rfl
  | none => exact h.put ⟨index, docType, none, source⟩ rfl

private theorem Holds.writeAll (h : Holds freshId m created actions) (more : List BulkAction) :
    Holds freshId (m.writeAll freshId more) created (actions ++ more) := by
  induction more generalizing m actions with
  | nil => simpa [InMemory.writeAll] using h
  | cons a more ih =>
    have hrest := ih (h.write a)
    rwa [List.append_assoc] at hrest

variable (c : ClientConfig) (net : DatagramNet) (cap : Option Nat) (now : Nat → Binary64)

private theorem run_indexExists (freshId : Nat → String) (hm : m.failure = none) (index : String) :
    (m.run ⟨c, .inMemory cap freshId, net⟩ now (.client (.indexExists index))).1.answer =
      .client (.existence (.ok (m.store.has index))) := by
  simp only [InMemory.run, Client.run, Engine.inMemory, unlessFailing, hm]

private theorem Holds.run (h : Holds freshId m created actions) {step : InMemoryStep}
    (hstep : ∀ detail, step ≠ .failWith (some detail)) :
    Holds freshId (m.run ⟨c, .inMemory cap freshId, net⟩ now step).2
      (created ++ [step].filterMap InMemoryStep.created?) (actions ++ step.requests c now) := by
  refine Holds.congr ?_ (run_sameContents freshId cap c net now m step)
  have hwritten : m.afterWrites freshId (step.requests c now) =
      m.writeAll freshId (step.requests c now) := by
    rw [afterWrites, h.failure]
    rfl
  have hwrites : Holds freshId (m.afterWrites freshId (step.requests c now))
      (created ++ []) (actions ++ step.requests c now) := by
    rw [hwritten, List.append_nil]
    exact h.writeAll _
  cases step with
  | createIndex index =>
    rw [InMemoryStep.requests, List.append_nil]
    · exact h.createIndex index
    all_goals simp
  | failWith detail =>
    cases detail with
    | some detail => exact absurd rfl (hstep detail)
    | none =>
      have hsame : (m.failWith none).SameContents m := ⟨rfl, h.failure.symm, rfl⟩
      have hholds : Holds freshId (m.failWith none) (created ++ []) (actions ++ []) := by
        simpa only [List.append_nil] using h.congr hsame
      exact hholds
  | client step => exact hwrites
  | documents index => exact hwrites
  | docTypes index => exact hwrites
  | calls => exact hwrites
  | lastScanBatch => exact hwrites

end InMemory

section Sessions

variable (c : ClientConfig) (net : DatagramNet) (cap : Option Nat) (freshId : Nat → String)
  (clock : Nat → Nat → Binary64)

private theorem Session.final_holds {steps : List InMemoryStep}
    (hsteps : ∀ detail, .failWith (some detail) ∉ steps) :
    InMemory.Holds freshId (finalInMemory ⟨c, .inMemory cap freshId, net⟩ clock steps {})
      (steps.filterMap InMemoryStep.created?) (requests c clock steps) := by
  induction steps using List.reverseRecOn with
  | nil => exact .new freshId
  | append_singleton steps step ih =>
    have hbefore := ih fun detail h => hsteps detail (List.mem_append_left [step] h)
    have hstep : ∀ detail, step ≠ .failWith (some detail) := by
      rintro detail rfl
      exact hsteps detail (List.mem_append_right steps List.mem_cons_self)
    rw [finalInMemory, final_concat, Nat.zero_add, List.filterMap_append, requests_concat]
    exact hbefore.run c net cap (clock steps.length) hstep

/-- In every state that a store in memory reaches without being told to fail, each index is a map
from ids to documents in the order of the first writes, as its documents and types show; and just
the indices exist that were created or written to. -/
theorem Session.indices_are_ordered_maps (steps : List InMemoryStep)
    (hsteps : ∀ detail, .failWith (some detail) ∉ steps) (k : Nat) (m : InMemory)
    (hreached :
      (statesInMemory ⟨c, .inMemory cap freshId, net⟩ clock steps {})[k]? = some m)
    (now : Nat → Binary64) (index : String) :
    let client : Client InMemory := ⟨c, .inMemory cap freshId, net⟩
    let done := steps.take k
    let writes := BulkAction.named freshId 0 (requests c clock done)
    OrderedMap (writtenTo index writes) (m.documents index) ∧
      (m.run client now (.documents index)).1.answer =
        .documents ((m.documents index).map StoredDocument.source) ∧
      (m.run client now (.docTypes index)).1.answer =
        .docTypes ((m.documents index).map StoredDocument.docType) ∧
      ∃ found : Bool,
        (m.run client now (.client (.indexExists index))).1.answer =
          .client (.existence (.ok found)) ∧
        (found = true ↔ .createIndex index ∈ done ∨ ∃ w ∈ writes, w.1 = index) := by
  intro client done writes
  obtain rfl : m = finalInMemory client clock done {} := statesInMemory_eq_final hreached
  have hdone : ∀ detail, .failWith (some detail) ∉ done := by
    intro detail h
    exact hsteps detail (List.mem_of_mem_take h)
  have hholds := final_holds c net cap freshId clock hdone
  refine ⟨hholds.documents index, rfl, rfl, _,
    InMemory.run_indexExists c net cap now freshId hholds.failure index, ?_⟩
  rw [hholds.has_iff, InMemoryStep.mem_created_iff]

def repeatedWrites : List InMemoryStep :=
  [.client (.bulk [⟨"hosts", "host", some "1", []⟩, ⟨"hosts", "host", none, []⟩,
    ⟨"hosts", "guest", some "1", [("up", .bool true)]⟩]), .createIndex "spare"]

def repeatedlyWritten : InMemory where
  store := ⟨[("hosts", [⟨"1", "guest", [("up", .bool true)]⟩, ⟨"new", "host", []⟩]),
    ("spare", [])]⟩
  calls := { bulk := 1 }
  made := 1

theorem Session.indices_are_ordered_maps_repeated :
    (∀ detail, .failWith (some detail) ∉ repeatedWrites) ∧
      (statesInMemory ⟨.default, .inMemory none fun _ => "new", .ofHosts ⟨[]⟩ []⟩
        (fun _ _ => .ofInt 0) repeatedWrites {})[2]? = some repeatedlyWritten ∧
      OrderedMap [⟨"1", "host", []⟩, ⟨"new", "host", []⟩, ⟨"1", "guest", [("up", .bool true)]⟩]
        (repeatedlyWritten.documents "hosts") := by
  have hunfailing : ∀ detail, .failWith (some detail) ∉ repeatedWrites := by
    simp [repeatedWrites]
  have hreached : (statesInMemory ⟨.default, .inMemory none fun _ => "new", .ofHosts ⟨[]⟩ []⟩
      (fun _ _ => .ofInt 0) repeatedWrites {})[2]? = some repeatedlyWritten := rfl
  obtain ⟨hmap, -⟩ := indices_are_ordered_maps .default (.ofHosts ⟨[]⟩ []) none (fun _ => "new")
    (fun _ _ => .ofInt 0) repeatedWrites hunfailing 2 repeatedlyWritten hreached
    (fun _ => .ofInt 0) "hosts"
  exact ⟨hunfailing, hreached, hmap⟩

end Sessions

end Docket
