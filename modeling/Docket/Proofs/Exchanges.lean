import Docket.Proofs.Paths
import Mathlib.Data.List.Forall2

/-!
Requests over HTTP, their answers, and what a search reads from an answer. A request is its method,
its URL and its content; those of searches and of scrolls are written out, and the calls of a store
are shown to make them.
-/

set_option autoImplicit false
set_option relaxedAutoImplicit false

namespace Docket

structure Outgoing where
  method : Method
  url : String
  content : Option Content
  deriving DecidableEq

abbrev HttpAnswer := Except EngineError (Nat × Option String)

abbrev PageResult := Except EngineError SearchResponse

section Sending

/-- The request as the server has it. There is none without an address to send it to. -/
def Outgoing.arriving? (hosts : Hosts) (r : Outgoing) : Option Request :=
  (Url.parse? r.url).bind fun u => (u.addresses hosts).head?.map fun address =>
    ⟨r.method, u.target, r.content, ⟨address, u.port⟩⟩

theorem Outgoing.content_of_arriving? {hosts : Hosts} {r : Outgoing} {request : Request}
    (h : r.arriving? hosts = some request) : request.content = r.content := by
  obtain ⟨u, -, haddress⟩ := Option.bind_eq_some_iff.mp h
  obtain ⟨address, -, rfl⟩ := Option.map_eq_some_iff.mp haddress
  rfl

namespace Wire

def exchange (w : Wire) (hosts : Hosts) : List Outgoing → List HttpAnswer × Wire
  | [] => ([], w)
  | r :: rest =>
    let (answer, w) := w.request hosts r.url r.method r.content
    let (answers, w) := w.exchange hosts rest
    (answer :: answers, w)

variable (w : Wire) (hosts : Hosts)

theorem exchange_append (requests rest : List Outgoing) :
    w.exchange hosts (requests ++ rest) =
      ((w.exchange hosts requests).1 ++ ((w.exchange hosts requests).2.exchange hosts rest).1,
        ((w.exchange hosts requests).2.exchange hosts rest).2) := by
  induction requests generalizing w with
  | nil => rfl
  | cons r requests ih => simp only [List.cons_append, exchange, ih]

/-- A request takes one entry of the script, and the server has it unless it refuses it. Without an
address nothing happens. -/
theorem request_arriving (r : Outgoing) :
    (w.request hosts r.url r.method r.content).2 = match r.arriving? hosts with
      | none => w
      | some request => ⟨w.script.tail, if w.script.head? = some .refuse then w.taken
          else w.taken ++ [request]⟩ := by
  rw [request, Outgoing.arriving?]
  cases Url.parse? r.url with
  | none => rfl
  | some u =>
    cases haddresses : u.addresses hosts with
    | nil => simp [haddresses]
    | cons address others =>
      simp only [Option.bind_some, haddresses, List.head?_cons, Option.map_some, send]
      cases hscript : w.script with
      | nil => simp [exhausted, take, hscript]
      | cons reply rest => cases reply <;> simp [take]

theorem taken_exchange (hw : .refuse ∉ w.script) (requests : List Outgoing) :
    (w.exchange hosts requests).2.taken =
      w.taken ++ requests.filterMap (Outgoing.arriving? hosts) := by
  induction requests generalizing w with
  | nil => simp [exchange]
  | cons r requests ih =>
    have hwire := w.request_arriving hosts r
    have hhead : w.script.head? ≠ some .refuse := fun hhead => hw (List.mem_of_head? hhead)
    have htail : .refuse ∉ w.script.tail := fun hmem => hw (List.mem_of_mem_tail hmem)
    simp only [exchange]
    cases harriving : r.arriving? hosts with
    | none =>
      rw [harriving] at hwire
      rw [hwire, ih w hw, List.filterMap_cons_none harriving]
    | some request =>
      simp only [harriving, if_neg hhead] at hwire
      rw [hwire, ih _ htail, List.filterMap_cons_some harriving, List.append_assoc,
        List.singleton_append]

end Wire

end Sending

namespace HttpStore

section Reading

/-- An answer that arrives with a status of success and brings a text. -/
inductive Brings : HttpAnswer → String → Prop
  /-- No content: what follows is not looked at. -/
  | nothing (body : Option String) : Brings (.ok (204, body)) ""
  | body {status : Nat} {text : String} (hstatus : 200 ≤ status ∧ status < 300)
      (hcontent : status ≠ 204) (hread : text.utf8ByteSize ≤ answerBytes) :
      Brings (.ok (status, some text)) text

/-- What a search reads from an answer. -/
inductive Reads : HttpAnswer → PageResult → Prop
  | lost (e : EngineError) : Reads (.error e) (.error e)
  | page {answer : HttpAnswer} {text : String} {v : Json} {page : SearchResponse}
      (hbrings : Brings answer text) (hvalue : Json.ofText? text = some v)
      (hpage : SearchResponse.decode? v = some page) : Reads answer (.ok page)
  | malformed {answer : HttpAnswer} {text : String} (hbrings : Brings answer text)
      (hvalue : Json.ofText? text = none) : Reads answer (.error (.response "not a JSON text"))
  | otherwise {answer : HttpAnswer} {text : String} {v : Json} (hbrings : Brings answer text)
      (hvalue : Json.ofText? text = some v) (hpage : SearchResponse.decode? v = none) :
      Reads answer (.error (.response "not an answer to a search"))
  | refused {status : Nat} {text : String} (hstatus : ¬ (200 ≤ status ∧ status < 300))
      (hmodified : status ≠ 304) (hread : text.utf8ByteSize ≤ answerBytes) :
      Reads (.ok (status, some text)) (.error (statusError status text))
  | unmodified (body : Option String) : Reads (.ok (304, body)) (.error (statusError 304 ""))
  | binary {status : Nat} (hbody : status ≠ 204 ∧ status ≠ 304) :
      Reads (.ok (status, none)) (.error (.network "failed to read response: not text"))
  | endless {status : Nat} {text : String} (hbody : status ≠ 204 ∧ status ≠ 304)
      (hlong : answerBytes < text.utf8ByteSize) :
      Reads (.ok (status, some text)) (.error (.network "failed to read response: too long"))

variable {text : String} {answer : HttpAnswer}

private theorem isBodiless_eq_false {status : Nat} (hstatus : 200 ≤ status ∧ status < 300)
    (hcontent : status ≠ 204) : isBodiless status = false := by
  have hmodified : status ≠ 304 := by omega
  simp [isBodiless, hcontent, hmodified]

private theorem brings_of_successText {status : Nat} {body : Option String}
    (h : successText (status, body) = .ok text) : Brings (.ok (status, body)) text := by
  rw [successText] at h
  split at h
  · cases h
  rename_i found hfound
  split at h
  · cases h
  rename_i hread
  by_cases hstatus : isSuccess status = true
  · rw [if_pos hstatus] at h
    obtain rfl := Except.ok.inj h
    have hsuccess : 200 ≤ status ∧ status < 300 := by simpa [isSuccess] using hstatus
    by_cases hcontent : status = 204
    · subst hcontent
      obtain rfl := Option.some.inj hfound
      exact .nothing body
    · have hbody : body = some found := by
        simpa [isBodiless_eq_false hsuccess hcontent] using hfound
      rw [hbody]
      exact .body hsuccess hcontent (Nat.not_lt.mp hread)
  · rw [if_neg hstatus] at h
    cases h

theorem successText_eq_ok_iff (answer : HttpAnswer) :
    answer.bind successText = .ok text ↔ Brings answer text := by
  constructor
  · intro hok
    cases answer with
    | error e => cases hok
    | ok answer => exact brings_of_successText hok
  · intro hbrings
    cases hbrings with
    | nothing body => rfl
    | @body status text hstatus hcontent hread =>
      have hbodiless : isBodiless status = false := isBodiless_eq_false hstatus hcontent
      have hsuccess : isSuccess status = true := by simp [isSuccess, hstatus]
      change successText (status, some text) = .ok text
      simp [successText, hbodiless, hsuccess, Nat.not_lt.mpr hread]

theorem Brings.unique {other : String} (htext : Brings answer text) (hother : Brings answer other) :
    text = other := by
  rw [← successText_eq_ok_iff] at htext hother
  rw [htext] at hother
  exact Except.ok.inj hother

private theorem reads_of_successText_eq_error {status : Nat} {body : Option String}
    {e : EngineError} (h : successText (status, body) = .error e) :
    Reads (.ok (status, body)) (.error e) := by
  by_cases hmodified : status = 304
  · subst hmodified
    obtain rfl : statusError 304 "" = e := Except.error.inj h
    exact .unmodified body
  by_cases hcontent : status = 204
  · subst hcontent
    cases h
  have hbodiless : isBodiless status = false := by simp [isBodiless, hcontent, hmodified]
  cases body with
  | none =>
    simp only [successText, hbodiless, Bool.false_eq_true, if_false] at h
    obtain rfl := Except.error.inj h
    exact .binary ⟨hcontent, hmodified⟩
  | some text =>
    simp only [successText, hbodiless, Bool.false_eq_true, if_false] at h
    split at h
    · rename_i hlong
      obtain rfl := Except.error.inj h
      exact .endless ⟨hcontent, hmodified⟩ hlong
    rename_i hread
    split at h
    · cases h
    rename_i hstatus
    obtain rfl := Except.error.inj h
    exact .refused (by simpa [isSuccess] using hstatus) hmodified (Nat.not_lt.mp hread)

private theorem reads_of_brings (h : Brings answer text) : Reads answer (readResponse text) := by
  rw [readResponse, readValue]
  cases hvalue : Json.ofText? text with
  | none => exact .malformed h hvalue
  | some v =>
    simp only [Except.bind]
    cases hpage : SearchResponse.decode? v with
    | none => exact .otherwise h hvalue hpage
    | some page => exact .page h hvalue hpage

theorem reads_iff {result : PageResult} :
    Reads answer result ↔ (answer.bind successText).bind readResponse = result := by
  constructor
  · intro hreads
    cases hreads with
    | lost e => rfl
    | page hbrings hvalue hpage =>
      rw [(successText_eq_ok_iff answer).mpr hbrings]
      simp [Except.bind, readResponse, readValue, hvalue, hpage]
    | malformed hbrings hvalue =>
      rw [(successText_eq_ok_iff answer).mpr hbrings]
      simp [Except.bind, readResponse, readValue, hvalue]
    | otherwise hbrings hvalue hpage =>
      rw [(successText_eq_ok_iff answer).mpr hbrings]
      simp [Except.bind, readResponse, readValue, hvalue, hpage]
    | @refused status text hstatus hmodified hread =>
      have hsuccess : isSuccess status = false := by simpa [isSuccess] using hstatus
      have hcontent : status ≠ 204 := by rintro rfl; exact hstatus (by decide)
      simp [Except.bind, successText, isBodiless, hcontent, hmodified, hsuccess,
        Nat.not_lt.mpr hread]
    | unmodified body => rfl
    | binary hbody => simp [Except.bind, successText, isBodiless, hbody]
    | endless hbody hlong => simp [Except.bind, successText, isBodiless, hbody, hlong]
  · rintro rfl
    match hanswer : answer.bind successText with
    | .ok text => exact reads_of_brings ((successText_eq_ok_iff answer).mp hanswer)
    | .error e =>
      match answer with
      | .ok (status, body) => exact reads_of_successText_eq_error hanswer
      | .error _ =>
        obtain rfl := Except.error.inj hanswer
        exact .lost _

end Reading

section Exchanged

/-- Requests are made one after the other, and the results are read from their answers. -/
def Exchanged (hosts : Hosts) (w : Wire) (requests : List Outgoing) (results : List PageResult)
    (w' : Wire) : Prop :=
  ∃ answers, w.exchange hosts requests = (answers, w') ∧ List.Forall₂ Reads answers results

variable {hosts : Hosts} {w w' w'' : Wire} {requests rest : List Outgoing}
  {results others : List PageResult}

theorem Exchanged.refl (hosts : Hosts) (w : Wire) : Exchanged hosts w [] [] w := ⟨[], rfl, .nil⟩

theorem Exchanged.append (h : Exchanged hosts w requests results w')
    (hrest : Exchanged hosts w' rest others w'') :
    Exchanged hosts w (requests ++ rest) (results ++ others) w'' := by
  obtain ⟨answers, hanswers, hreads⟩ := h
  obtain ⟨after, hafter, hreadsAfter⟩ := hrest
  refine ⟨answers ++ after, ?_, List.rel_append hreads hreadsAfter⟩
  rw [Wire.exchange_append, hanswers, hafter]

theorem Exchanged.unique (h : Exchanged hosts w requests results w')
    (hother : Exchanged hosts w requests others w'') : results = others ∧ w' = w'' := by
  obtain ⟨answers, hanswers, hreads⟩ := h
  obtain ⟨again, hagain, hreadsAgain⟩ := hother
  obtain ⟨rfl, hwire⟩ := Prod.mk.inj (hanswers.symm.trans hagain)
  refine ⟨List.right_unique_forall₂' ?_ hreads hreadsAgain, hwire⟩
  intro answer result other hresult hother
  exact (reads_iff.mp hresult).symm.trans (reads_iff.mp hother)

theorem Exchanged.wire_append (h : Exchanged hosts w requests results w') (rest : List Outgoing) :
    (w.exchange hosts (requests ++ rest)).2 = (w'.exchange hosts rest).2 := by
  obtain ⟨answers, hanswers, -⟩ := h
  rw [Wire.exchange_append, hanswers]

end Exchanged

section Requests

variable (h : HttpStore) (index cursor : String) (body : Json)

def pageRequest : Outgoing :=
  ⟨.post, h.base ++ "/_search/scroll", some ⟨"application/json",
    Json.text (.object [("scroll", .string "1m"), ("scroll_id", .string cursor)])⟩⟩

def discardRequest : Outgoing :=
  ⟨.delete, h.base ++ "/_search/scroll/" ++ Percent.encode cursor, none⟩

private theorem url_of_head {path : String} (hpath : path.toList.head? ≠ some '/') :
    h.url path = h.base ++ "/" ++ path := by
  rw [url, leadingSlashes_of_head hpath]

theorem postSearch_of_reads {path : String} {w w' : Wire} {answer : HttpAnswer}
    {result : PageResult}
    (hrequest : w.request h.hosts (h.url path) .post (some ⟨jsonType, body.text⟩) = (answer, w'))
    (hreads : Reads answer result) : h.postSearch path body w = (result, w') := by
  rw [postSearch, post, hrequest, ← reads_iff.mp hreads]
  rfl

private theorem exchanged_postSearch (path : String) (body : Json) (w : Wire) :
    Exchanged h.hosts w [⟨.post, h.url path, some ⟨"application/json", body.text⟩⟩]
      [(h.postSearch path body w).1] (h.postSearch path body w).2 :=
  ⟨_, rfl, .cons (reads_iff.mpr rfl) .nil⟩

theorem exchanged_nextPage (w : Wire) :
    Exchanged h.hosts w [h.pageRequest cursor] [(h.nextPage cursor w).1]
      (h.nextPage cursor w).2 := by
  have hurl : h.url scrollPath = h.base ++ "/_search/scroll" := by
    rw [h.url_of_head (by decide), String.append_assoc]
    rfl
  rw [pageRequest, ← hurl]
  exact h.exchanged_postSearch scrollPath (pageBody cursor) w

theorem wire_discard (w : Wire) :
    (h.discard cursor w).2 = (w.exchange h.hosts [h.discardRequest cursor]).2 := by
  have hurl : h.url (discardPath cursor) =
      h.base ++ "/_search/scroll/" ++ Percent.encode cursor := by
    rw [h.url_of_head, discardPath, String.append_assoc, String.append_assoc]
    · rfl
    · simp [discardPath]
  rw [discardRequest, ← hurl]
  rfl

theorem askExists_of_success {w w' : Wire} {status : Nat} {content : Option String}
    (hrequest : w.request h.hosts (h.url (Percent.encode index)) .head none =
      (.ok (status, content), w')) (hsuccess : isSuccess status = true) :
    h.askExists index w = (.ok true, w') := by
  simp [askExists, Wire.reading, hrequest, readExists, hsuccess, Except.bind]

end Requests

end HttpStore

end Docket
