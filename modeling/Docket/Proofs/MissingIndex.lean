import Docket.Proofs.Conduct
import Docket.Rehearsed

/-!
Indices that are gone when they are searched. Losing the index before the first page is no failure:
there is no result. Losing it between the first page and the recount is one.
-/

set_option autoImplicit false
set_option relaxedAutoImplicit false

namespace Docket.Fetch

variable {σ : Type}

/-- An index that exists is lost. If the first page tells so, there is no result, and the index is
told to be missing; if the recount does, its failure is the answer. -/
theorem execute_index_lost (c : ClientConfig) (e : Engine σ) (q : Query) (s s₁ : σ)
    (x : EngineError) (hexists : e.indexExists c.index s = (.ok true, s₁))
    (hlost : x.isIndexNotFound = true) :
    (∀ s₂, e.search c.index q.body s₁ = (.error x, s₂) →
      execute c e q s = (⟨.ok none, [missingIndex c]⟩, s₂)) ∧
    ∀ first s₂ s₃, e.search c.index q.body s₁ = (.ok first, s₂) → fallsShort q first = true →
      q.keys.length ≤ 1 → e.search c.index q.countBody s₂ = (.error x, s₃) →
      execute c e q s = (⟨.error (.engine x), [pageFallsShort q first]⟩, s₃) := by
  constructor
  · intro s₂ hfirst
    simp [execute, hexists, hfirst, hlost]
  · intro first s₂ s₃ hfirst hshort hkeys hcount
    have hkey := Query.streamKey_of_keys hkeys
    simp [execute, hexists, hfirst, complete, hshort, stream, hkey, hcount, Except.map]

def losing (pages : List SearchResponse) : Rehearsed where
  indexExists := []
  index := []
  search := pages.map .ok ++ [.error (.indexNotFound "metadata")]
  bulk := []
  scan := []

def halfPage : SearchResponse := .ofPage 2 [.ofSource [("n", .ofNat 1)]]

def positives : Query := ⟨none, [.range "n" (some (.ofNat 1)) none], 10000, none, true⟩

theorem execute_index_lost_metadata :
    (EngineError.indexNotFound "metadata").isIndexNotFound = true ∧
    (execute .default .rehearsed positives (losing [])).1 = ⟨.ok none, [missingIndex .default]⟩ ∧
    (execute .default .rehearsed positives (losing [halfPage])).1 =
      ⟨.error (.engine (.indexNotFound "metadata")), [pageFallsShort positives halfPage]⟩ := by
  have hlost : (EngineError.indexNotFound "metadata").isIndexNotFound = true := rfl
  obtain ⟨hnone, -⟩ := execute_index_lost .default .rehearsed positives (losing []) (losing [])
    (.indexNotFound "metadata") rfl hlost
  obtain ⟨-, hcount⟩ := execute_index_lost .default .rehearsed positives (losing [halfPage])
    (losing [halfPage]) (.indexNotFound "metadata") rfl hlost
  exact ⟨hlost, congrArg Prod.fst (hnone _ rfl),
    congrArg Prod.fst (hcount halfPage _ _ rfl (by decide) (by decide) rfl)⟩

/-- A search that fails for want of the index is not always treated like an index that does not
exist. -/
theorem recount_tells_no_missing_index :
    ¬ ∀ (σ : Type) (c : ClientConfig) (e : Engine σ) (q : Query) (s : σ) r t made,
      (e.indexExists c.index s).1 = .ok true → execute c e.observed q (s, []) = (r, (t, made)) →
      (∃ o ∈ made, ∃ body x, o.call = .search c.index body ∧ o.failure = some x ∧
        x.isIndexNotFound = true) →
      r.answer = .ok none ∧ missingIndex c ∈ r.log := by
  intro hclaim
  have hanswer := (hclaim Rehearsed .default .rehearsed positives (losing [halfPage]) _ _ _ rfl rfl
    ⟨.failed (.search "metadata" positives.countBody) (.indexNotFound "metadata"),
      .tail _ (.tail _ (.head _)), _, _, rfl, rfl, rfl⟩).1
  exact absurd hanswer (by decide)

end Docket.Fetch
