import Docket.Proofs.Agreement
import Docket.Proofs.Destination
import Docket.Session

/-!
What a step of a session writes to a store in memory. Each step asks the store to write some
documents; unless the store is told to fail, this is all that it does to what is stored, and only
the steps made for it create an index or change whether it fails. The rest of a step is counted.
-/

set_option autoImplicit false
set_option relaxedAutoImplicit false

namespace Docket

theorem Store.lookup_changeIn (index other : String)
    (f : List StoredDocument → List StoredDocument)
    (indices : List (String × List StoredDocument)) :
    (changeIn index f indices).lookup other =
      if other = index then some (f ((indices.lookup index).getD []))
      else indices.lookup other := by
  by_cases h : other = index
  · subst h
    rw [if_pos rfl]
    induction indices with
    | nil => simp [changeIn]
    | cons entry rest ih =>
      obtain ⟨i, docs⟩ := entry
      rw [changeIn]
      split
      · rename_i hi
        subst hi
        simp
      · rename_i hi
        have hne : (other == i) = false := beq_false_of_ne (Ne.symm hi)
        rw [List.lookup_cons, List.lookup_cons, hne, ih]
  · rw [if_neg h, lookup_changeIn_of_ne h]

namespace Store

variable (s : Store) (index other : String)

theorem documents?_put (d : StoredDocument) :
    (s.put index d).documents? other =
      if other = index then some (d.putInto ((s.documents? index).getD []))
      else s.documents? other :=
  lookup_changeIn index other d.putInto s.indices

theorem documents?_create :
    (s.create index).documents? other =
      if other = index then some ((s.documents? index).getD []) else s.documents? other :=
  lookup_changeIn index other id s.indices

theorem has_put (d : StoredDocument) :
    (s.put index d).has other = true ↔ other = index ∨ s.has other = true := by
  rw [has, documents?_put]
  split <;> simp_all [has]

theorem has_create :
    (s.create index).has other = true ↔ other = index ∨ s.has other = true := by
  rw [has, documents?_create]
  split <;> simp_all [has]

end Store

theorem InMemory.documents_createIndex (m : InMemory) (index other : String) :
    (m.createIndex index).documents other = m.documents other := by
  rw [documents, createIndex, Store.documents?_create]
  split
  · rename_i h
    rw [h]
    rfl
  · rfl

def Post.document (c : ClientConfig) (docType : String) (r : Record) (o : PostOptions)
    (now : Binary64) : BulkAction :=
  ⟨c.index, (prepare o r now).1.getD docType, none, (prepare o r now).2⟩

namespace InMemoryStep

def requests (c : ClientConfig) (now : Nat → Binary64) : InMemoryStep → List BulkAction
  | .client (.post docType r o) =>
    if r.isEmpty ∨ c.transport = .udp then [] else [Post.document c docType r o (now 0)]
  | .client (.bulkPost rs o) => Post.actions c o now rs
  | .client (.index index docType document) => [⟨index, docType, none, document⟩]
  | .client (.bulk actions) => actions
  | _ => []

end InMemoryStep

namespace InMemory

structure SameContents (m n : InMemory) : Prop where
  store : m.store = n.store
  failure : m.failure = n.failure
  made : m.made = n.made

theorem SameContents.refl (m : InMemory) : m.SameContents m := ⟨rfl, rfl, rfl⟩

theorem SameContents.trans {m n k : InMemory} (h : m.SameContents n) (h' : n.SameContents k) :
    m.SameContents k :=
  ⟨h.store.trans h'.store, h.failure.trans h'.failure, h.made.trans h'.made⟩

variable (freshId : Nat → String)

theorem SameContents.write {m n : InMemory} (h : m.SameContents n) (index docType : String)
    (id : Option String) (source : Record) :
    (m.write freshId index docType id source).SameContents
      (n.write freshId index docType id source) := by
  obtain ⟨hstore, hfailure, hmade⟩ := h
  cases id with
  | some id => exact ⟨by simp only [InMemory.write, hstore], hfailure, hmade⟩
  | none =>
    exact ⟨by simp only [InMemory.write, hstore, hmade], hfailure,
      by simp only [InMemory.write, hmade]⟩

theorem SameContents.writeAll {m n : InMemory} (h : m.SameContents n)
    (actions : List BulkAction) :
    (m.writeAll freshId actions).SameContents (n.writeAll freshId actions) := by
  induction actions generalizing m n with
  | nil => exact h
  | cons a actions ih => exact ih (h.write freshId a.index a.docType a.id a.source)

/-- What is left of a state when some documents are to be written: nothing changes while the store
is told to fail. -/
def afterWrites (m : InMemory) (actions : List BulkAction) : InMemory :=
  if m.failure.isSome then m else m.writeAll freshId actions

/-- An operation that a failing store refuses, and that otherwise leaves the contents `after`. -/
theorem unlessFailing_sameContents {α : Type} {m n after : InMemory} (h : m.SameContents n)
    {run : InMemory → Except EngineError α × InMemory} (hrun : (run m).2.SameContents after) :
    (m.unlessFailing run).2.SameContents (if n.failure.isSome then n else after) := by
  unfold unlessFailing
  rw [← h.failure]
  split
  · rename_i hfailure
    rw [hfailure]
    exact h
  · rename_i hfailure
    rw [hfailure]
    exact hrun

variable (cap : Option Nat)

theorem index_sameContents (m : InMemory) (index docType : String) (document : Record) :
    ((Engine.inMemory cap freshId).index index docType document m).2.SameContents
      (m.afterWrites freshId [⟨index, docType, none, document⟩]) := by
  have hcounted : ({ m with calls := { m.calls with index := m.calls.index + 1 } } :
      InMemory).SameContents m := ⟨rfl, rfl, rfl⟩
  exact unlessFailing_sameContents hcounted (hcounted.write freshId index docType none document)

theorem bulk_sameContents (m : InMemory) (actions : List BulkAction) :
    ((Engine.inMemory cap freshId).bulk actions m).2.SameContents
      (m.afterWrites freshId actions) := by
  have hcounted : ({ m with calls := { m.calls with bulk := m.calls.bulk + 1 } } :
      InMemory).SameContents m := ⟨rfl, rfl, rfl⟩
  exact unlessFailing_sameContents hcounted (hcounted.writeAll freshId actions)

theorem readsAgree_contents (k : InMemory) :
    (Engine.inMemory cap freshId).ReadsAgree (Engine.inMemory cap freshId)
      fun m n => m = n ∧ m.SameContents k := by
  -- Before it looks at the store, an operation only counts the call and notes the batch.
  have hread : ∀ {α : Type} {m n : InMemory} {run : InMemory → Except EngineError α × InMemory},
      m.SameContents k → n.SameContents m → (run n).2 = n →
        (n.unlessFailing run).2.SameContents k := by
    intro α m n run hm hn hrun
    have hkept : (run n).2.SameContents m := by rwa [hrun]
    have hleft := unlessFailing_sameContents hn hkept
    rw [ite_self] at hleft
    exact hleft.trans hm
  constructor
  · rintro m _ ⟨rfl, hm⟩ index
    exact ⟨rfl, rfl, hread hm ⟨rfl, rfl, rfl⟩ rfl⟩
  · rintro m _ ⟨rfl, hm⟩ index body
    exact ⟨rfl, rfl, hread hm ⟨rfl, rfl, rfl⟩ rfl⟩
  · rintro m _ ⟨rfl, hm⟩ index body batch limit
    exact ⟨rfl, rfl, hread hm ⟨rfl, rfl, rfl⟩ rfl⟩

variable (c : ClientConfig) (net : DatagramNet) (now : Nat → Binary64)

def effect (m : InMemory) : InMemoryStep → InMemory
  | .createIndex index => m.createIndex index
  | .failWith detail => m.failWith detail
  | step => m.afterWrites freshId (step.requests c now)

theorem afterWrites_nil (m : InMemory) : m.afterWrites freshId [] = m := by
  rw [afterWrites]
  split <;> rfl

theorem afterWrites_of_unfailing {m : InMemory} (h : m.failure = none)
    (actions : List BulkAction) : m.afterWrites freshId actions = m.writeAll freshId actions := by
  rw [afterWrites, h]
  rfl

theorem failure_writeAll (m : InMemory) (actions : List BulkAction) :
    (m.writeAll freshId actions).failure = m.failure := by
  induction actions generalizing m with
  | nil => rfl
  | cons a actions ih =>
    obtain ⟨index, docType, id, source⟩ := a
    refine (ih _).trans ?_
    cases id <;> rfl

theorem afterWrites_append (m : InMemory) (xs ys : List BulkAction) :
    m.afterWrites freshId (xs ++ ys) = (m.afterWrites freshId xs).afterWrites freshId ys := by
  cases hfailure : m.failure with
  | some detail => simp [afterWrites, hfailure]
  | none =>
    have happend : m.writeAll freshId (xs ++ ys) = (m.writeAll freshId xs).writeAll freshId ys :=
      List.foldl_append
    simp [afterWrites, hfailure, failure_writeAll, happend]

theorem SameContents.afterWrites {m n : InMemory} (h : m.SameContents n)
    (actions : List BulkAction) :
    (m.afterWrites freshId actions).SameContents (n.afterWrites freshId actions) := by
  rw [InMemory.afterWrites, InMemory.afterWrites, h.failure]
  split
  · exact h
  · exact h.writeAll freshId actions

theorem single_sameContents (m : InMemory) (docType : String) (r : Record) (o : PostOptions) :
    (Post.single c (.inMemory cap freshId) net docType r o (now 0) m).2.SameContents
      (m.effect freshId c now (.client (.post docType r o))) := by
  unfold Post.single
  simp only [effect, InMemoryStep.requests]
  split
  · rename_i hempty
    rw [if_pos (.inl hempty), afterWrites_nil]
    exact .refl m
  · rename_i hempty
    cases htransport : c.transport with
    | udp =>
      rw [if_pos (.inr rfl), afterWrites_nil]
      exact .refl m
    | http =>
      rw [if_neg (by simp [hempty])]
      have hwritten := index_sameContents freshId cap m c.index
        ((Post.prepare o r (now 0)).1.getD docType) (Post.prepare o r (now 0)).2
      simp only
      split
      · rename_i heq
        rwa [heq] at hwritten
      · rename_i heq
        rwa [heq] at hwritten

theorem many_sameContents (m : InMemory) (rs : List Record) (o : PostOptions) :
    (Post.many c (.inMemory cap freshId) rs o now m).2.SameContents
      (m.effect freshId c now (.client (.bulkPost rs o))) := by
  unfold Post.many
  simp only [effect, InMemoryStep.requests]
  split
  · rename_i hempty
    rw [List.isEmpty_iff.mp hempty, Post.actions, afterWrites_nil]
    exact .refl m
  · have hwritten := bulk_sameContents freshId cap m (Post.actions c o now rs)
    split
    · rename_i heq
      rwa [heq] at hwritten
    · rename_i heq
      rwa [heq] at hwritten

theorem run_sameContents (m : InMemory) (step : InMemoryStep) :
    (m.run ⟨c, .inMemory cap freshId, net⟩ now step).2.SameContents
      (m.effect freshId c now step) := by
  have hreads := readsAgree_contents freshId cap m
  have hm : m = m ∧ m.SameContents m := ⟨rfl, .refl m⟩
  have hkept : ∀ {n : InMemory}, n.SameContents m →
      n.SameContents (m.afterWrites freshId []) := by
    intro n hn
    rwa [afterWrites_nil]
  cases step with
  | client step =>
    cases step with
    | post docType r o => exact single_sameContents freshId cap c net now m docType r o
    | bulkPost rs o => exact many_sameContents freshId cap c now m rs o
    | query calls => exact hkept (Fetch.query_agree hreads hm c (.ofCalls calls)).2.2
    | execute q => exact hkept (Fetch.execute_agree hreads hm c q).2.2
    | settings => exact hkept (.refl m)
    | indexExists index => exact hkept (hreads.indexExists hm index).2.2
    | index index docType document => exact index_sameContents freshId cap m index docType document
    | search index body => exact hkept (hreads.search hm index body).2.2
    | bulk actions => exact bulk_sameContents freshId cap m actions
    | scan index body batch limit => exact hkept (hreads.scan hm index body batch limit).2.2
  | createIndex index => exact .refl _
  | failWith detail => exact .refl _
  | documents index => exact hkept (.refl m)
  | docTypes index => exact hkept (.refl m)
  | calls => exact hkept (.refl m)
  | lastScanBatch => exact hkept (.refl m)

end InMemory

namespace Session

variable {σ ι α : Type} (step : Nat → ι → σ → Outcome α × σ)

def final (number : Nat) : List ι → σ → σ
  | [], s => s
  | i :: rest, s => final (number + 1) rest (step number i s).2

theorem final_concat (number : Nat) (steps : List ι) (i : ι) (s : σ) :
    final step number (steps ++ [i]) s =
      (step (number + steps.length) i (final step number steps s)).2 := by
  induction steps generalizing number s with
  | nil => rfl
  | cons j steps ih =>
    have hcount : number + 1 + steps.length = number + (steps.length + 1) := by omega
    rw [List.cons_append, final, ih, hcount, List.length_cons, final]

theorem getElem?_run (number : Nat) (steps : List ι) (s : σ) (k : Nat) :
    (run step number steps s)[k]? =
      steps[k]?.map fun i => step (number + k) i (final step number (steps.take k) s) := by
  induction steps generalizing number s k with
  | nil => rfl
  | cons i steps ih =>
    cases k with
    | zero => rfl
    | succ k =>
      have hcount : number + 1 + k = number + (k + 1) := by omega
      rw [run, List.getElem?_cons_succ, ih, hcount, List.getElem?_cons_succ, List.take_succ_cons,
        final]

end Session

section States

variable (c : Client InMemory) (clock : Nat → Nat → Binary64) (steps : List InMemoryStep)
  (m : InMemory)

def Session.statesInMemory : List InMemory := m :: (inMemory c clock steps m).map Prod.snd

def Session.finalInMemory : InMemory := final (fun n step m => m.run c (clock n) step) 0 steps m

variable {c clock steps m}

theorem Session.statesInMemory_eq_final {k : Nat} {n : InMemory}
    (h : (statesInMemory c clock steps m)[k]? = some n) :
    n = finalInMemory c clock (steps.take k) m := by
  cases k with
  | zero => exact (Option.some.inj h).symm
  | succ k =>
    rw [statesInMemory, List.getElem?_cons_succ, List.getElem?_map, inMemory, getElem?_run] at h
    cases hstep : steps[k]? with
    | none => simp [hstep] at h
    | some step =>
      obtain ⟨hk, rfl⟩ := List.getElem?_eq_some_iff.mp hstep
      have hlength : (steps.take k).length = k := List.length_take_of_le (Nat.le_of_lt hk)
      rw [← List.take_concat_get' steps k hk, finalInMemory, final_concat, hlength]
      simpa [hstep] using h.symm

end States

end Docket
