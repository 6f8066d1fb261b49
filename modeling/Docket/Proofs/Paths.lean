import Docket.Client
import Docket.Http.Scroll
import Docket.Proofs.Percent

/-!
Which requests of a store over HTTP look alike. Documents are posted to a path of their index and
their type, and a type may have the name of one of the store's own paths.
-/

set_option autoImplicit false
set_option relaxedAutoImplicit false

namespace Docket.HttpStore

inductive Operation where
  | indexExists (index : String)
  | document (index docType : String)
  | search (index : String)
  | bulk
  | openScroll (index : String)
  | nextPage
  | discard (cursor : String)
  deriving DecidableEq

theorem postBulk_of_ne_nil (h : HttpStore) {actions : List BulkAction} (hactions : actions ≠ [])
    (w : Wire) :
    h.postBulk actions w =
      Wire.reading (h.post bulkPath linesType (Bulk.body actions) w) readBulk := by
  simp [postBulk, hactions]

namespace Operation

def method : Operation → Method
  | indexExists _ => .head
  | discard _ => .delete
  | _ => .post

def path : Operation → String
  | indexExists index => Percent.encode index
  | document index docType => documentPath index docType
  | search index => searchPath index
  | bulk => bulkPath
  | openScroll index => openScrollPath index
  | nextPage => scrollPath
  | discard cursor => discardPath cursor

def MadeBy {α : Type} (op : Operation) (h : HttpStore) (call : Wire → α × Wire) : Prop :=
  ∃ content, ∀ w, (call w).2 = (w.request h.hosts (h.url op.path) op.method content).2

/-- What the calls of a store ask for; a scan opens a scroll, asks for its pages and discards it. -/
theorem madeBy_calls (h : HttpStore) :
    (∀ index, (indexExists index).MadeBy h ((Engine.http h).indexExists index)) ∧
      (∀ index docType d,
        (document index docType).MadeBy h ((Engine.http h).index index docType d)) ∧
      (∀ index body, (search index).MadeBy h ((Engine.http h).search index body)) ∧
      (∀ actions, actions ≠ [] → bulk.MadeBy h ((Engine.http h).bulk actions)) ∧
      (∀ index body batch, (openScroll index).MadeBy h (h.openScroll index body batch)) ∧
      (∀ cursor, nextPage.MadeBy h (h.nextPage cursor)) ∧
      ∀ cursor, (discard cursor).MadeBy h (h.discard cursor) := by
  refine ⟨fun _ => ⟨_, fun _ => rfl⟩, fun _ _ _ => ⟨_, fun _ => rfl⟩, fun _ _ => ⟨_, fun _ => rfl⟩,
    ?_, fun _ _ _ => ⟨_, fun _ => rfl⟩, fun _ => ⟨_, fun _ => rfl⟩, fun _ => ⟨_, fun _ => rfl⟩⟩
  intro actions hactions
  exact ⟨_, fun w => congrArg Prod.snd (postBulk_of_ne_nil h hactions w)⟩

end Operation

section Segments

variable {h : HttpStore} {index docType other rest s : String}

theorem url_inj {p q : String} :
    h.url p = h.url q ↔ Cut.leadingSlashes p = Cut.leadingSlashes q := by
  simp [url, ← String.toList_inj]

theorem slash_not_mem_encode (s : String) : '/' ∉ (Percent.encode s).toList :=
  Percent.not_mem_encode (by decide) (by decide) s

theorem leadingSlashes_of_head (h : s.toList.head? ≠ some '/') : Cut.leadingSlashes s = s := by
  rw [← String.toList_inj, Cut.leadingSlashes, String.toList_ofList]
  cases hs : s.toList with
  | nil => rfl
  | cons c cs =>
    rw [hs, List.head?_cons, ne_eq, Option.some.injEq] at h
    exact List.dropWhile_cons_of_neg (by simpa using h)

theorem leadingSlashes_slash (s : String) :
    Cut.leadingSlashes ("/" ++ s) = Cut.leadingSlashes s := by
  simp [Cut.leadingSlashes]

private theorem leadingSlashes_of_not_mem (h : '/' ∉ s.toList) : Cut.leadingSlashes s = s :=
  leadingSlashes_of_head fun hhead => h (List.mem_of_head? hhead)

theorem leadingSlashes_segments (hindex : index ≠ "") :
    Cut.leadingSlashes (Percent.encode index ++ "/" ++ rest) =
      Percent.encode index ++ "/" ++ rest := by
  apply leadingSlashes_of_head
  intro hhead
  have hsegment := slash_not_mem_encode index
  cases hchars : (Percent.encode index).toList with
  | nil => exact hindex (Percent.encode_eq_empty.mp (by rw [← String.toList_inj, hchars]; rfl))
  | cons c cs =>
    simp only [String.toList_append, hchars, List.cons_append, List.head?_cons,
      Option.some.injEq] at hhead
    simp [hchars, hhead] at hsegment

theorem searchPath_eq (index : String) :
    searchPath index = Percent.encode index ++ "/" ++ "_search" := by
  rw [searchPath, String.append_assoc]
  rfl

theorem openScrollPath_eq (index : String) :
    openScrollPath index = Percent.encode index ++ "/" ++ "_search?scroll=1m" := by
  rw [openScrollPath, searchPath, String.append_assoc, String.append_assoc, String.append_assoc]
  rfl

private theorem not_leadingSlashes_documentPath (hindex : index ≠ "") (hs : '/' ∉ s.toList) :
    Cut.leadingSlashes (documentPath index docType) ≠ s := by
  rintro rfl
  rw [documentPath, leadingSlashes_segments hindex] at hs
  simp at hs

/-- The path of a document has two segments, which tell its index and its type. -/
theorem leadingSlashes_documentPath_eq_iff (hindex : index ≠ "") (hrest : '/' ∉ rest.toList) :
    Cut.leadingSlashes (documentPath index docType) =
        Cut.leadingSlashes (Percent.encode other ++ "/" ++ rest) ↔
      index = other ∧ Percent.encode docType = rest := by
  by_cases hother : other = ""
  · subst hother
    have hone : Cut.leadingSlashes (Percent.encode "" ++ "/" ++ rest) = rest :=
      (leadingSlashes_slash rest).trans (leadingSlashes_of_not_mem hrest)
    rw [hone]
    exact iff_of_false (not_leadingSlashes_documentPath hindex hrest) fun h => hindex h.1
  · rw [documentPath, leadingSlashes_segments hindex, leadingSlashes_segments hother]
    constructor
    · intro heq
      have hchars : (Percent.encode index).toList ++ '/' :: (Percent.encode docType).toList =
          (Percent.encode other).toList ++ '/' :: rest.toList := by
        simpa using congrArg String.toList heq
      obtain ⟨hfirst, -, hsecond⟩ := (List.append_cons_inj_of_notMem (slash_not_mem_encode index)
        (slash_not_mem_encode docType)).mp hchars
      exact ⟨Percent.encode_injective (String.toList_inj.mp hfirst), String.toList_inj.mp hsecond⟩
    · rintro ⟨rfl, rfl⟩
      rfl

end Segments

section Clashes

variable {h : HttpStore} {index docType : String}

private theorem url_documentPath_eq_iff (hindex : index ≠ "") (op : Operation)
    (hpost : op.method = .post) :
    h.url (documentPath index docType) = h.url op.path ↔
      op = .document index docType ∨ op = .search index ∧ docType = "_search" ∨
        op = .nextPage ∧ index = "_search" ∧ docType = "scroll" := by
  have hsearch : Percent.encode "_search" = "_search" := by decide
  have hscroll : Percent.encode "scroll" = "scroll" := by decide
  rw [url_inj]
  cases op with
  | indexExists other => simp [Operation.method] at hpost
  | discard cursor => simp [Operation.method] at hpost
  | document other docType' =>
    rw [Operation.path, documentPath.eq_def other,
      leadingSlashes_documentPath_eq_iff hindex (slash_not_mem_encode docType'), Percent.encode_inj]
    simp [eq_comm]
  | search other =>
    have hrest : '/' ∉ "_search".toList := by decide
    rw [Operation.path, searchPath_eq, leadingSlashes_documentPath_eq_iff hindex hrest]
    nth_rewrite 1 [← hsearch]
    rw [Percent.encode_inj]
    simp [eq_comm]
  | openScroll other =>
    have hrest : '/' ∉ "_search?scroll=1m".toList := by decide
    -- a type that holds a question mark is not written with one
    have hquestion : Percent.encode docType ≠ "_search?scroll=1m" := by
      intro htype
      have hmem : '?' ∈ (Percent.encode docType).toList := by
        rw [htype]
        decide
      exact Percent.not_mem_encode (by decide) (by decide) docType hmem
    rw [Operation.path, openScrollPath_eq, leadingSlashes_documentPath_eq_iff hindex hrest]
    simp [hquestion]
  | nextPage =>
    have hrest : '/' ∉ "scroll".toList := by decide
    have hpath : scrollPath = Percent.encode "_search" ++ "/" ++ "scroll" := by
      rw [hsearch]
      rfl
    rw [Operation.path, hpath, leadingSlashes_documentPath_eq_iff hindex hrest]
    nth_rewrite 1 [← hscroll]
    rw [Percent.encode_inj]
    simp
  | bulk =>
    have hone : '/' ∉ (Cut.leadingSlashes bulkPath).toList := by decide
    exact iff_of_false (not_leadingSlashes_documentPath hindex hone) (by simp)

private theorem postDocument_search (h : HttpStore) (index : String) (d : Record) (w : Wire) :
    (h.postDocument index "_search" d w).2 = (h.postSearch (searchPath index) (.object d) w).2 ∧
      ∀ r, (h.postSearch (searchPath index) (.object d) w).1 = .ok r →
        (h.postDocument index "_search" d w).1 = .ok () := by
  have hpath : documentPath index "_search" = searchPath index := by
    rw [documentPath, searchPath, String.append_assoc]
    rfl
  rw [postDocument, hpath, postSearch]
  refine ⟨rfl, fun r hr => ?_⟩
  cases hreply : (h.post (searchPath index) jsonType (Json.text (.object d)) w).1 with
  | error e => simp [Wire.reading, hreply, Except.bind] at hr
  | ok text => simp [Wire.reading, hreply, Except.bind]

private theorem postDocument_scroll (h : HttpStore) {cursor : String} {d : Record}
    (hd : pageBody cursor = .object d) (w : Wire) :
    (h.postDocument "_search" "scroll" d w).2 = (h.nextPage cursor w).2 := by
  have hpath : documentPath "_search" "scroll" = scrollPath := by decide
  rw [postDocument, hpath, nextPage, postSearch, hd]
  rfl

/-- What the post of a document can be taken for. Its method and URL are those of no bulk request,
of no opening of a scroll, of no question for an index, of no discarded cursor and of no other
document. They are those of a search exactly when the type is spelt like searches and the index is
the same, and those of a request for a page exactly when index and type together are spelt like it.
Then the document is sent as the body of that request. -/
theorem document_taken_for (h : HttpStore) (index docType : String) (hindex : index ≠ "") :
    (∀ op : Operation, op.method = .post ∧ h.url (documentPath index docType) = h.url op.path ↔
      op = .document index docType ∨ op = .search index ∧ docType = "_search" ∨
        op = .nextPage ∧ index = "_search" ∧ docType = "scroll") ∧
    (docType = "_search" → ∀ (d : Record) (w : Wire),
      (h.postDocument index docType d w).2 = (h.postSearch (searchPath index) (.object d) w).2 ∧
        ∀ r, (h.postSearch (searchPath index) (.object d) w).1 = .ok r →
          (h.postDocument index docType d w).1 = .ok ()) ∧
    (index = "_search" → docType = "scroll" → ∀ (cursor : String) (d : Record) (w : Wire),
      pageBody cursor = .object d →
        (h.postDocument index docType d w).2 = (h.nextPage cursor w).2) := by
  refine ⟨?_, ?_, ?_⟩
  · intro op
    constructor
    · rintro ⟨hpost, hurl⟩
      exact (url_documentPath_eq_iff hindex op hpost).mp hurl
    · intro hop
      have hpost : op.method = .post := by
        rcases hop with rfl | ⟨rfl, -⟩ | ⟨rfl, -⟩ <;> rfl
      exact ⟨hpost, (url_documentPath_eq_iff hindex op hpost).mpr hop⟩
  · rintro rfl d w
    exact postDocument_search h index d w
  · rintro rfl rfl cursor d w hd
    exact postDocument_scroll h hd w

def homeStore : HttpStore := .ofBase "http://[::1]:9200" ⟨[]⟩

theorem document_taken_for_metadata :
    "metadata" ≠ "" ∧
      homeStore.url (documentPath "metadata" "a/_search?scroll=1m") ≠
        homeStore.url (openScrollPath "metadata") ∧
      homeStore.url (documentPath "metadata" "_search") = homeStore.url (searchPath "metadata") := by
  have hindex : "metadata" ≠ "" := by decide
  obtain ⟨hquestion, -, -⟩ := document_taken_for homeStore "metadata" "a/_search?scroll=1m" hindex
  obtain ⟨hsearch, -, -⟩ := document_taken_for homeStore "metadata" "_search" hindex
  refine ⟨hindex, ?_, ?_⟩
  · intro hurl
    have hclash := (hquestion (.openScroll "metadata")).mp ⟨rfl, hurl⟩
    simp at hclash
  · exact ((hsearch (.search "metadata")).mpr (by simp)).2

/-- A record that names the type of searches is taken for a search, and reported as stored. -/
theorem posted_record_may_search :
    (¬ ∀ (h : HttpStore) (index docType : String), index ≠ "" → docType ≠ "" →
      (∀ other, h.url (documentPath index docType) ≠ h.url (searchPath other)) ∧
        (∀ other, h.url (documentPath index docType) ≠ h.url (openScrollPath other)) ∧
        h.url (documentPath index docType) ≠ h.url scrollPath ∧
        h.url (documentPath index docType) ≠ h.url bulkPath) ∧
    let w : Wire := ⟨[.answer 200 (some "\x7b\x7d")], []⟩
    let posted := Client.run ⟨.default, .http homeStore, .ofHosts ⟨[]⟩ []⟩ (fun _ => .ofInt 0)
      (.post "job" [("_type", .string "_search"), ("n", .ofNat 1)] { stamp := false }) w
    let searched := (Engine.http homeStore).search "metadata" (.object [("n", .ofNat 1)]) w
    posted.1.answer = .posted true ∧ posted.2.taken = searched.2.taken ∧
      posted.2.taken.map Request.target = ["/metadata/_search"] := by
  refine ⟨?_, ?_⟩
  · intro hclaim
    obtain ⟨hsearch, -⟩ := hclaim homeStore "metadata" "_search" (by decide) (by decide)
    exact hsearch "metadata" (by decide)
  · intro w posted searched
    refine ⟨?_, ?_, ?_⟩
    · rfl
    · rfl
    · rfl

end Clashes

end Docket.HttpStore
