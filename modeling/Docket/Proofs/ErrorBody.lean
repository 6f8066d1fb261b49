import Docket.Proofs.Cutting
import Docket.Proofs.Streaming

/-!
What a failure keeps of the body of an answer: the longest beginning that fits. For searches
answered with status 404, the mark of a missing index is looked for there. A query whose first page
is answered so has no result if the mark ends within the part that is kept; a mark further back is
missed, and the query fails.
-/

set_option autoImplicit false
set_option relaxedAutoImplicit false

namespace Docket

namespace HttpStore

/-- A failure keeps the longest beginning of a body that is made of whole characters and takes at
most 512 bytes. A body that fits is kept as it is. Otherwise the next character does not fit any
more; the search for the cut goes back over three bytes at most, all inside of a character. -/
theorem statusError_keeps_longest (status : Nat) (body : String) :
    ∃ kept rest, statusError status body = .status status kept ∧ body = kept ++ rest ∧
      kept.utf8ByteSize ≤ 512 ∧
      (∀ start behind, body = start ++ behind → start.utf8ByteSize ≤ 512 →
        ∃ more, kept = start ++ more) ∧
      (body.utf8ByteSize ≤ 512 → kept = body) ∧
      (512 < body.utf8ByteSize → 509 ≤ kept.utf8ByteSize ∧
        (∃ c behind, rest = String.singleton c ++ behind ∧
          512 < kept.utf8ByteSize + c.utf8Size) ∧
        ∀ offset, kept.utf8ByteSize < offset → offset ≤ 512 →
          ¬ String.Pos.Raw.IsValid body ⟨offset⟩) := by
  obtain ⟨rest, hrest⟩ := Cut.toBytes_append errorBodyBytes body
  refine ⟨Cut.toBytes errorBodyBytes body, rest, rfl, hrest,
    Cut.utf8ByteSize_toBytes_le errorBodyBytes body, ?_, Cut.toBytes_eq_self, ?_⟩
  · rintro start behind rfl hstart
    exact Cut.append_toBytes behind hstart
  · intro hlong
    obtain ⟨c, behind, hnext, hexceeds⟩ := Cut.exists_of_append_toBytes hrest hlong
    refine ⟨?_, ⟨c, behind, hnext, hexceeds⟩, ?_⟩
    · have hwidth : c.utf8Size ≤ 4 := c.utf8Size_le_four
      rw [errorBodyBytes] at hexceeds ⊢
      omega
    · intro offset hinside hle hvalid
      have hkept := Cut.le_utf8ByteSize_toBytes hvalid hle
      rw [errorBodyBytes] at hinside
      omega

private theorem utf8ByteSize_replicate (n : Nat) :
    (String.ofList (List.replicate n 'x')).utf8ByteSize = n := by
  rw [String.utf8ByteSize_ofList]
  induction n with
  | zero => rfl
  | succ n ih => rw [List.replicate_succ, String.utf8Len_cons, ih]; rfl

theorem statusError_keeps_longest_wide :
    let start := String.ofList (List.replicate 511 'x')
    512 < (start ++ "é").utf8ByteSize ∧ statusError 500 (start ++ "é") = .status 500 start := by
  intro start
  have hstart : start.utf8ByteSize = 511 := utf8ByteSize_replicate 511
  have hlong : 512 < (start ++ "é").utf8ByteSize := by
    rw [String.utf8ByteSize_append, hstart]
    decide
  obtain ⟨kept, rest, hfailure, hbody, hfits, hlongest, -⟩ :=
    statusError_keeps_longest 500 (start ++ "é")
  obtain ⟨more, rfl⟩ := hlongest start "é" rfl (by omega)
  have hrest : ['é'] = more.toList ++ rest.toList := by
    rw [String.append_assoc] at hbody
    simpa using congrArg String.toList hbody
  rw [String.utf8ByteSize_append, hstart, ← String.utf8Len_toList] at hfits
  rcases List.singleton_eq_append_iff.mp hrest with ⟨hmore, -⟩ | ⟨hmore, -⟩
  · refine ⟨hlong, ?_⟩
    rw [hfailure, String.toList_eq_nil_iff.mp hmore, String.append_empty]
  · rw [hmore] at hfits
    have hwide : String.utf8Len ['é'] = 2 := by decide
    omega

private theorem isIndexNotFound_statusError (body : String) :
    (statusError 404 body).isIndexNotFound = true ↔
      Cut.EndsWithin errorBodyBytes EngineError.missingIndexMark body := by
  rw [← Cut.occurs_toBytes_iff]
  simp [statusError, EngineError.isIndexNotFound]

variable {h : HttpStore} {w w' : Wire} {body : String}

private theorem postSearch_of_404 {path : String} {searchBody : Json}
    (hrequest : w.request h.hosts (h.url path) .post (some ⟨jsonType, searchBody.text⟩) =
      (.ok (404, some body), w')) :
    h.postSearch path searchBody w =
      (.error (if answerBytes < body.utf8ByteSize then
        .network "failed to read response: too long" else statusError 404 body), w') := by
  apply h.postSearch_of_reads searchBody hrequest
  split
  · rename_i hlong
    exact .endless (by decide) hlong
  · rename_i hread
    exact .refused (by decide) (by decide) (Nat.not_lt.mp hread)

end HttpStore

namespace Fetch

open HttpStore (answerBytes errorBodyBytes statusError)
open EngineError (missingIndexMark)

private theorem execute_of_first_failure {σ : Type} {c : ClientConfig} {e : Engine σ} {q : Query}
    {s s₁ s₂ : σ} {x : EngineError} (hexists : e.indexExists c.index s = (.ok true, s₁))
    (hfirst : e.search c.index q.body s₁ = (.error x, s₂)) :
    execute c e q s =
      (if x.isIndexNotFound then ⟨.ok none, [missingIndex c]⟩ else ⟨.error (.engine x), []⟩,
        s₂) := by
  simp only [execute, hexists, hfirst]
  split <;> rfl

variable {h : HttpStore} {c : ClientConfig} {q : Query} {w w₁ w₂ : Wire} {status : Nat}
  {content : Option String} {body : String}

private theorem execute_of_404
    (hexists : w.request h.hosts (h.url (Percent.encode c.index)) .head none =
      (.ok (status, content), w₁))
    (hsuccess : HttpStore.isSuccess status = true)
    (hfirst : w₁.request h.hosts (h.url (HttpStore.searchPath c.index)) .post
      (some ⟨HttpStore.jsonType, q.body.text⟩) = (.ok (404, some body), w₂)) :
    execute c (.http h) q w =
      (if answerBytes < body.utf8ByteSize then
        ⟨.error (.engine (.network "failed to read response: too long")), []⟩
      else if (statusError 404 body).isIndexNotFound then ⟨.ok none, [missingIndex c]⟩
      else ⟨.error (.engine (statusError 404 body)), []⟩, w₂) := by
  have hask : (Engine.http h).indexExists c.index w = (.ok true, w₁) :=
    h.askExists_of_success c.index hexists hsuccess
  have hsearch : (Engine.http h).search c.index q.body w₁ = _ := HttpStore.postSearch_of_404 hfirst
  rw [execute_of_first_failure hask hsearch]
  split
  · rfl
  · rfl

/-- The index is there, and the search for the first page is answered with status 404. There is no
result if the mark of a missing index ends within the bytes of the body that a failure keeps. If it
does not, or if the body is too long to be read, the query fails, and no index is told to be
missing. -/
theorem execute_answered_404 (h : HttpStore) (c : ClientConfig) (q : Query) (w w₁ w₂ : Wire)
    (status : Nat) (content : Option String) (body : String)
    (hexists : w.request h.hosts (h.url (Percent.encode c.index)) .head none =
      (.ok (status, content), w₁))
    (hsuccess : HttpStore.isSuccess status = true)
    (hfirst : w₁.request h.hosts (h.url (HttpStore.searchPath c.index)) .post
      (some ⟨HttpStore.jsonType, q.body.text⟩) = (.ok (404, some body), w₂)) :
    (body.utf8ByteSize ≤ answerBytes → Cut.EndsWithin errorBodyBytes missingIndexMark body →
      execute c (.http h) q w = (⟨.ok none, [missingIndex c]⟩, w₂)) ∧
    (body.utf8ByteSize ≤ answerBytes → ¬ Cut.EndsWithin errorBodyBytes missingIndexMark body →
      execute c (.http h) q w = (⟨.error (.engine (statusError 404 body)), []⟩, w₂)) ∧
    (answerBytes < body.utf8ByteSize → execute c (.http h) q w =
      (⟨.error (.engine (.network "failed to read response: too long")), []⟩, w₂)) := by
  have hexecute := execute_of_404 hexists hsuccess hfirst
  refine ⟨?_, ?_, ?_⟩
  · intro hread hmark
    have hlost := (HttpStore.isIndexNotFound_statusError body).mpr hmark
    rw [hexecute, if_neg (Nat.not_lt.mpr hread), if_pos hlost]
  · intro hread hmark
    have hkept := mt (HttpStore.isIndexNotFound_statusError body).mp hmark
    rw [hexecute, if_neg (Nat.not_lt.mpr hread), if_neg hkept]
  · intro hlong
    rw [hexecute, if_pos hlong]

def markedAfter (before : Nat) : String :=
  String.ofList (List.replicate before 'x') ++ missingIndexMark

private theorem utf8ByteSize_markedAfter (before : Nat) :
    (markedAfter before).utf8ByteSize = before + 15 := by
  rw [markedAfter, String.utf8ByteSize_append, HttpStore.utf8ByteSize_replicate]
  rfl

def losingIndex (before : Nat) : Wire where
  script := [.answer 200 none, .answer 404 (some (markedAfter before))]

def losingIndexAsked (before : Nat) : Wire :=
  (localStore.askExists "metadata" (losingIndex before)).2

def losingIndexSearched (before : Nat) : Wire :=
  (localStore.postSearch (HttpStore.searchPath "metadata") numbered.body
    (losingIndexAsked before)).2

private theorem request_losingIndex (before : Nat) :
    (losingIndex before).request localStore.hosts (localStore.url (Percent.encode "metadata"))
      .head none = (.ok (200, none), losingIndexAsked before) := rfl

private theorem request_losingIndexAsked (before : Nat) :
    (losingIndexAsked before).request localStore.hosts
      (localStore.url (HttpStore.searchPath "metadata")) .post
      (some ⟨HttpStore.jsonType, numbered.body.text⟩) =
        (.ok (404, some (markedAfter before)), losingIndexSearched before) := rfl

theorem execute_answered_404_at_the_end :
    HttpStore.isSuccess 200 = true ∧ (markedAfter 497).utf8ByteSize ≤ answerBytes ∧
      Cut.EndsWithin errorBodyBytes missingIndexMark (markedAfter 497) ∧
      execute .default (.http localStore) numbered (losingIndex 497) =
        (⟨.ok none, [missingIndex .default]⟩, losingIndexSearched 497) := by
  have hsize := utf8ByteSize_markedAfter 497
  have hread : (markedAfter 497).utf8ByteSize ≤ answerBytes := by
    rw [hsize]
    decide
  have hmark : Cut.EndsWithin errorBodyBytes missingIndexMark (markedAfter 497) := by
    refine ⟨String.ofList (List.replicate 497 'x'), "", ?_, ?_⟩
    · rw [String.append_empty]
      rfl
    · exact Nat.le_of_eq hsize
  obtain ⟨hnone, -⟩ := execute_answered_404 localStore .default numbered _ _ _ 200 none
    (markedAfter 497) (request_losingIndex 497) rfl (request_losingIndexAsked 497)
  exact ⟨rfl, hread, hmark, hnone hread hmark⟩

/-- A body that names the missing index is not always answered by no result: the mark may end one
byte past the part that is kept. -/
theorem late_mark_is_missed :
    ¬ ∀ (h : HttpStore) (c : ClientConfig) (q : Query) (w w₁ w₂ : Wire) (status : Nat)
      (content : Option String) (body : String),
      w.request h.hosts (h.url (Percent.encode c.index)) .head none = (.ok (status, content), w₁) →
      HttpStore.isSuccess status = true →
      w₁.request h.hosts (h.url (HttpStore.searchPath c.index)) .post
        (some ⟨HttpStore.jsonType, q.body.text⟩) = (.ok (404, some body), w₂) →
      missingIndexMark.toList <:+: body.toList →
      (execute c (.http h) q w).1.answer = .ok none := by
  intro hclaim
  have htext : (markedAfter 498).toList = List.replicate 498 'x' ++ missingIndexMark.toList := by
    rw [markedAfter, String.toList_append, String.toList_ofList]
  have hmark : missingIndexMark.toList <:+: (markedAfter 498).toList := by
    rw [htext]
    exact (List.suffix_append _ _).isInfix
  have hread : ¬ answerBytes < (markedAfter 498).utf8ByteSize := by
    rw [utf8ByteSize_markedAfter]
    decide
  have hmissed : (statusError 404 (markedAfter 498)).isIndexNotFound = false := by
    simp only [statusError, EngineError.isIndexNotFound, Cut.toList_toBytes, htext]
    decide +kernel
  have hexecute := execute_of_404 (c := .default) (request_losingIndex 498) rfl
    (request_losingIndexAsked 498)
  have hanswer := hclaim localStore .default numbered _ _ _ 200 none (markedAfter 498)
    (request_losingIndex 498) rfl (request_losingIndexAsked 498) hmark
  rw [hexecute, if_neg hread, hmissed] at hanswer
  exact absurd hanswer (by simp)

end Fetch

end Docket
