import Docket.Client

/-!
Two stores that a client cannot tell apart. When the operations of two stores answer the same and
keep a relation between the states, every step of a client answers the same on both and keeps the
relation. A query only reads, so for queries the operations that read are enough.
-/

set_option autoImplicit false
set_option relaxedAutoImplicit false

namespace Docket

variable {σ τ α : Type} {R : σ → τ → Prop}

def Agree (R : σ → τ → Prop) (x : α × σ) (y : α × τ) : Prop := x.1 = y.1 ∧ R x.2 y.2

theorem Agree.intro (a : α) {s : σ} {t : τ} (h : R s t) : Agree R (a, s) (a, t) := ⟨rfl, h⟩

theorem Agree.exists {x : α × σ} {y : α × τ} (h : Agree R x y) :
    ∃ a s t, x = (a, s) ∧ y = (a, t) ∧ R s t :=
  ⟨x.1, x.2, y.2, rfl, by rw [h.1], h.2⟩

theorem Agree.map {β : Type} {x : α × σ} {y : α × τ} (h : Agree R x y) (g : α → β) :
    Agree R (g x.1, x.2) (g y.1, y.2) :=
  ⟨congrArg g h.1, h.2⟩

structure Engine.ReadsAgree (e : Engine σ) (f : Engine τ) (R : σ → τ → Prop) : Prop where
  indexExists {s : σ} {t : τ} (h : R s t) (index : String) :
    Agree R (e.indexExists index s) (f.indexExists index t)
  search {s : σ} {t : τ} (h : R s t) (index : String) (body : Json) :
    Agree R (e.search index body s) (f.search index body t)
  scan {s : σ} {t : τ} (h : R s t) (index : String) (body : Json) (batch : Nat)
    (limit : Option Nat) : Agree R (e.scan index body batch limit s) (f.scan index body batch limit t)

structure Engine.Agrees (e : Engine σ) (f : Engine τ) (R : σ → τ → Prop) : Prop
    extends e.ReadsAgree f R where
  index {s : σ} {t : τ} (h : R s t) (index docType : String) (document : Record) :
    Agree R (e.index index docType document s) (f.index index docType document t)
  bulk {s : σ} {t : τ} (h : R s t) (actions : List BulkAction) :
    Agree R (e.bulk actions s) (f.bulk actions t)

variable {e : Engine σ} {f : Engine τ} {s : σ} {t : τ}

namespace Fetch

theorem stream_agree (h : e.ReadsAgree f R) (hst : R s t) (c : ClientConfig) (q : Query) :
    Agree R (stream c e q s) (stream c f q t) := by
  unfold stream
  split
  · exact .intro _ hst
  · obtain ⟨counted, s, t, hs, ht, hst⟩ := (h.search hst c.index q.countBody).exists
    rw [hs, ht]
    cases counted with
    | error x => exact .intro _ hst
    | ok counted =>
      obtain ⟨scan, s, t, hs, ht, hst⟩ :=
        (h.scan hst c.index q.scanBody Query.scrollSize none).exists
      simp only [hs, ht]
      cases scan <;> exact .intro _ hst

theorem complete_agree (h : e.ReadsAgree f R) (hst : R s t) (c : ClientConfig) (q : Query)
    (first : SearchResponse) : Agree R (complete c e q first s) (complete c f q first t) := by
  unfold complete
  split
  · obtain ⟨streamed, s, t, hs, ht, hst⟩ := (stream_agree h hst c q).exists
    rw [hs, ht]
    exact .intro _ hst
  · exact .intro _ hst

theorem execute_agree (h : e.ReadsAgree f R) (hst : R s t) (c : ClientConfig) (q : Query) :
    Agree R (execute c e q s) (execute c f q t) := by
  unfold execute
  obtain ⟨found, s, t, hs, ht, hst⟩ := (h.indexExists hst c.index).exists
  rw [hs, ht]
  match found with
  | .error x => exact .intro _ hst
  | .ok false => exact .intro _ hst
  | .ok true =>
    obtain ⟨first, s, t, hs, ht, hst⟩ := (h.search hst c.index q.body).exists
    simp only [hs, ht]
    cases first with
    | error x =>
      dsimp only
      split <;> exact .intro _ hst
    | ok first => exact complete_agree h hst c q first

theorem query_agree (h : e.ReadsAgree f R) (hst : R s t) (c : ClientConfig) (b : QueryBuilder) :
    Agree R (query c e b s) (query c f b t) := by
  unfold query
  split
  · exact .intro _ hst
  · exact execute_agree h hst c _

end Fetch

namespace Post

theorem single_agree (h : e.Agrees f R) (hst : R s t) (c : ClientConfig) (net : DatagramNet)
    (docType : String) (r : Record) (o : PostOptions) (now : Binary64) :
    Agree R (single c e net docType r o now s) (single c f net docType r o now t) := by
  unfold single
  split
  · exact .intro _ hst
  · simp only
    split
    · exact .intro _ hst
    · obtain ⟨written, s, t, hs, ht, hst⟩ := (h.index hst c.index
        ((prepare o r now).1.getD docType) (prepare o r now).2).exists
      rw [hs, ht]
      cases written <;> exact .intro _ hst

theorem many_agree (h : e.Agrees f R) (hst : R s t) (c : ClientConfig) (rs : List Record)
    (o : PostOptions) (now : Nat → Binary64) :
    Agree R (many c e rs o now s) (many c f rs o now t) := by
  unfold many
  split
  · exact .intro _ hst
  · obtain ⟨written, s, t, hs, ht, hst⟩ := (h.bulk hst (actions c o now rs)).exists
    rw [hs, ht]
    cases written <;> exact .intro _ hst

end Post

theorem Client.run_agree (h : e.Agrees f R) (hst : R s t) (c : ClientConfig) (net : DatagramNet)
    (now : Nat → Binary64) (step : Step) :
    Agree R (run ⟨c, e, net⟩ now step s) (run ⟨c, f, net⟩ now step t) := by
  let posted (p : Posted) : Outcome Answer := ⟨.posted p.accepted, p.log, p.attempts⟩
  let queried (r : Logged (Except QueryError (Option QueryResult))) : Outcome Answer :=
    { answer := .queried r.answer, log := r.log }
  cases step with
  | post docType r o => exact (Post.single_agree h hst c net docType r o (now 0)).map posted
  | bulkPost rs o => exact (Post.many_agree h hst c rs o now).map posted
  | query calls => exact (Fetch.query_agree h.toReadsAgree hst c (.ofCalls calls)).map queried
  | execute q => exact (Fetch.execute_agree h.toReadsAgree hst c q).map queried
  | settings => exact .intro _ hst
  | indexExists index =>
    exact (h.indexExists hst index).map fun r => ({ answer := .existence r } : Outcome Answer)
  | index index docType document =>
    exact (h.index hst index docType document).map fun r =>
      ({ answer := .written r } : Outcome Answer)
  | search index body =>
    exact (h.search hst index body).map fun r => ({ answer := .found r } : Outcome Answer)
  | bulk actions =>
    exact (h.bulk hst actions).map fun r => ({ answer := .written r } : Outcome Answer)
  | scan index body batch limit =>
    exact (h.scan hst index body batch limit).map Outcome.ofScan

end Docket
