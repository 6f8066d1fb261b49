import Docket.Proofs.Exchanges
import Docket.Proofs.Record

/-!
What comes of posting many records over HTTP. They are accepted if the reply arrives with a status
of success, holds a JSON text, and does not flag failures. Otherwise one error is logged. The error
of a reply that flags failures counts the items that failed and tells what the first of them says.
-/

set_option autoImplicit false
set_option relaxedAutoImplicit false

namespace Docket

namespace Json

open Quoted (Piece)

def Readable (v : Json) : Prop := ∃ depth t, ofTree? depth t = some v

private theorem exists_tree_of_mem_items {depth : Nat} {ts : List Tree} {vs : List Json} {v : Json}
    (h : ofItems? depth ts = some vs) (hv : v ∈ vs) : ∃ t, ofTree? depth t = some v := by
  induction ts generalizing vs with
  | nil =>
    obtain rfl := Option.some.inj h
    simp at hv
  | cons t ts ih =>
    rw [ofItems?] at h
    split at h
    · rename_i first rest hfirst hrest
      obtain rfl := Option.some.inj h
      rcases List.mem_cons.mp hv with rfl | hv
      · exact ⟨t, hfirst⟩
      · exact ih hrest hv
    · cases h

private theorem exists_tree_of_mem_members {depth : Nat} {ts : List (List Piece × Tree)}
    {written : List (String × Json)} {m : String × Json} (h : ofMembers? depth ts = some written)
    (hm : m ∈ written) : ∃ t, ofTree? depth t = some m.2 := by
  induction ts generalizing written with
  | nil =>
    obtain rfl := Option.some.inj h
    simp at hm
  | cons t ts ih =>
    rw [ofMembers?] at h
    split at h
    · rename_i k v rest _ hv hrest
      obtain rfl := Option.some.inj h
      rcases List.mem_cons.mp hm with rfl | hm
      · exact ⟨t.2, hv⟩
      · exact ih hrest hm
    · cases h

private theorem Readable.of_mem {items : List Json} (h : Readable (.array items)) {v : Json}
    (hv : v ∈ items) : v.Readable := by
  obtain ⟨depth, t, ht⟩ := h
  cases t with
  | array ts =>
    cases depth with
    | zero => cases ht
    | succ depth =>
      obtain ⟨vs, hvs, heq⟩ := Option.map_eq_some_iff.mp ht
      obtain rfl := Json.array.inj heq
      obtain ⟨t, ht⟩ := exists_tree_of_mem_items hvs hv
      exact ⟨depth, t, ht⟩
  | object ts => cases depth <;> simp [ofTree?] at ht
  | null | bool | number | string => simp [ofTree?] at ht

private theorem Readable.exists_members {members : Record} (h : Readable (.object members)) :
    ∃ written, members = Record.ofList written ∧ ∀ m ∈ written, Readable m.2 := by
  obtain ⟨depth, t, ht⟩ := h
  cases t with
  | object ts =>
    cases depth with
    | zero => cases ht
    | succ depth =>
      obtain ⟨written, hwritten, heq⟩ := Option.map_eq_some_iff.mp ht
      refine ⟨written, (Json.object.inj heq).symm, fun m hm => ?_⟩
      obtain ⟨t, ht⟩ := exists_tree_of_mem_members hwritten hm
      exact ⟨depth, t, ht⟩
  | array ts => cases depth <;> simp [ofTree?] at ht
  | null | bool | number | string => simp [ofTree?] at ht

private theorem Readable.sorted {members : Record} (h : Readable (.object members)) :
    members.Sorted := by
  obtain ⟨written, rfl, -⟩ := h.exists_members
  exact Record.Sorted.insertAll .nil written

private theorem Readable.get? {v w : Json} {key : String} (h : v.Readable)
    (hw : v.get? key = some w) :
    w.Readable := by
  cases v with
  | object members =>
    obtain ⟨written, rfl, hall⟩ := h.exists_members
    rcases Record.mem_of_get?_insertAll (r := []) hw with hmem | hnone
    · exact hall (key, w) hmem
    · cases hnone
  | null | bool | number | string | array => cases hw

private theorem readable_of_ofText? {text : String} {v : Json} (h : ofText? text = some v) :
    v.Readable := by
  obtain ⟨t, -, ht⟩ := Option.bind_eq_some_iff.mp h
  exact ⟨depthLimit, t, ht⟩

end Json

namespace Bulk

variable {item failure reply : Json} {items failures : List Json}

/-- An item of a reply tells of a failure by the error of its first entry, which is the one with the
smallest key. -/
def FailsWith (item failure : Json) : Prop :=
  ∃ members key outcome, item = .object members ∧ (key, outcome) ∈ members ∧
    (∀ m ∈ members, key ≤ m.1) ∧ outcome.get? "error" = some failure

inductive Failures : List Json → List Json → Prop
  | nil : Failures [] []
  | failed {item failure : Json} {items failures : List Json} :
      FailsWith item failure → Failures items failures →
        Failures (item :: items) (failure :: failures)
  | passed {item : Json} {items failures : List Json} :
      (∀ failure, ¬ FailsWith item failure) → Failures items failures →
        Failures (item :: items) failures

/-- What the first of some failures says: its reason if that is a string, and else its own text. -/
inductive FirstSays : List Json → String → Prop
  | unknown : FirstSays [] "unknown error"
  | reason {failure : Json} {s : String} (others : List Json) :
      failure.get? "reason" = some (.string s) → FirstSays (failure :: others) s
  | text {failure : Json} (others : List Json) :
      (∀ s, failure.get? "reason" ≠ some (.string s)) → FirstSays (failure :: others) failure.text

/-- The items of a reply; there are none if they are not a list. -/
def replyItems (reply : Json) : List Json := ((reply.get? "items").bind Json.items?).getD []

def Summarizes (reply : Json) (summary : String) : Prop :=
  ∃ failures first, Failures (replyItems reply) failures ∧
    failures.length ≤ (replyItems reply).length ∧ FirstSays failures first ∧
    summary = toString failures.length ++ " of " ++ toString (replyItems reply).length ++
      " items failed: " ++ first

private theorem itemError?_eq_some_iff (h : item.Readable) :
    itemError? item = some failure ↔ FailsWith item failure := by
  constructor
  · intro hfails
    cases item with
    | object members =>
      cases members with
      | nil => cases hfails
      | cons first rest =>
        obtain ⟨hbehind, -⟩ := List.pairwise_cons.mp h.sorted
        refine ⟨_, first.1, first.2, rfl, List.mem_cons_self, ?_, hfails⟩
        intro m hm
        rcases List.mem_cons.mp hm with rfl | hm
        · exact String.le_refl _
        · exact Std.le_of_lt (hbehind m hm)
    | null | bool | number | string | array => cases hfails
  · rintro ⟨members, key, outcome, rfl, hmem, hsmallest, herror⟩
    cases members with
    | nil => simp at hmem
    | cons first rest =>
      obtain ⟨hbehind, -⟩ := List.pairwise_cons.mp h.sorted
      rcases List.mem_cons.mp hmem with rfl | hrest
      · exact herror
      · -- An entry behind the first has a larger key.
        have hlarger : first.1 < key := hbehind (key, outcome) hrest
        have hsmaller : key ≤ first.1 := hsmallest first List.mem_cons_self
        exact absurd hlarger (String.not_lt.mpr hsmaller)

private theorem failures_filterMap (h : ∀ item ∈ items, item.Readable) :
    Failures items (items.filterMap itemError?) := by
  induction items with
  | nil => exact .nil
  | cons item items ih =>
    rw [List.forall_mem_cons] at h
    have hrest := ih h.2
    cases hitem : itemError? item with
    | some failure =>
      rw [List.filterMap_cons_some hitem]
      exact .failed ((itemError?_eq_some_iff h.1).mp hitem) hrest
    | none =>
      rw [List.filterMap_cons_none hitem]
      refine .passed (fun failure hfails => ?_) hrest
      have hsome := (itemError?_eq_some_iff h.1).mpr hfails
      rw [hitem] at hsome
      cases hsome

private theorem firstSays_reason (failures : List Json) :
    FirstSays failures ((failures.head?.map reason).getD "unknown error") := by
  cases failures with
  | nil => exact .unknown
  | cons failure others =>
    by_cases h : ∃ s, failure.get? "reason" = some (.string s)
    · obtain ⟨s, hs⟩ := h
      have hreason : reason failure = s := by simp [reason, hs, Json.string?]
      rw [List.head?_cons, Option.map_some, Option.getD_some, hreason]
      exact .reason others hs
    · have hnone : (failure.get? "reason").bind Json.string? = none := by
        rw [Option.bind_eq_none_iff]
        intro v hv
        cases v with
        | string s => exact absurd ⟨s, hv⟩ h
        | _ => rfl
      have hreason : reason failure = failure.text := by rw [reason, hnone, Option.getD_none]
      rw [List.head?_cons, Option.map_some, Option.getD_some, hreason]
      exact .text others fun s hs => h ⟨s, hs⟩

private theorem readable_of_mem_replyItems (h : reply.Readable) (hitem : item ∈ replyItems reply) :
    item.Readable := by
  cases hitems : reply.get? "items" with
  | none => simp [replyItems, hitems] at hitem
  | some v =>
    cases v with
    | array items =>
      have hmem : item ∈ items := by simpa [replyItems, hitems, Json.items?] using hitem
      exact (h.get? hitems).of_mem hmem
    | _ => simp [replyItems, hitems, Json.items?] at hitem

private theorem flagged_iff (reply : Json) :
    (reply.get? "errors").bind Json.bool? = some true ↔
      reply.get? "errors" = some (.bool true) := by
  cases h : reply.get? "errors" with
  | none => simp
  | some v => cases v <;> simp [Json.bool?]

private theorem failures?_of_unflagged (h : reply.get? "errors" ≠ some (.bool true)) :
    failures? reply = none := by
  rw [failures?, if_neg (mt (flagged_iff reply).mp h)]

private theorem failures?_of_flagged (hread : reply.Readable)
    (h : reply.get? "errors" = some (.bool true)) :
    ∃ summary, failures? reply = some summary ∧ Summarizes reply summary := by
  refine ⟨_, by rw [failures?, if_pos ((flagged_iff reply).mpr h)], ?_⟩
  exact ⟨_, _, failures_filterMap fun _ => readable_of_mem_replyItems hread,
    List.length_filterMap_le _ _, firstSays_reason _, rfl⟩

end Bulk

namespace HttpStore

variable {text : String} {reply : Json}

private theorem readBulk_eq_ok_iff (text : String) :
    readBulk text = .ok () ↔
      ∃ reply, Json.ofText? text = some reply ∧ reply.get? "errors" ≠ some (.bool true) := by
  cases hreply : Json.ofText? text with
  | none => simp [readBulk, readValue, hreply, Except.bind]
  | some reply =>
    by_cases hflag : reply.get? "errors" = some (.bool true)
    · obtain ⟨summary, hsummary, -⟩ :=
        Bulk.failures?_of_flagged (Json.readable_of_ofText? hreply) hflag
      simp [readBulk, readValue, hreply, Except.bind, hsummary, hflag]
    · simp [readBulk, readValue, hreply, Except.bind, Bulk.failures?_of_unflagged hflag, hflag]

private theorem readBulk_of_flagged (hreply : Json.ofText? text = some reply)
    (hflag : reply.get? "errors" = some (.bool true)) :
    ∃ summary, readBulk text = .error (.bulk summary) ∧ Bulk.Summarizes reply summary := by
  obtain ⟨summary, hsummary, hsummarizes⟩ :=
    Bulk.failures?_of_flagged (Json.readable_of_ofText? hreply) hflag
  refine ⟨summary, ?_, hsummarizes⟩
  simp [readBulk, readValue, hreply, Except.bind, hsummary]

def verdict (answer : HttpAnswer) : Except EngineError Unit :=
  (answer.bind successText).bind readBulk

private theorem verdict_eq_ok_iff (answer : HttpAnswer) :
    verdict answer = .ok () ↔ ∃ text reply, Brings answer text ∧
      Json.ofText? text = some reply ∧ reply.get? "errors" ≠ some (.bool true) := by
  constructor
  · intro hok
    cases htext : answer.bind successText with
    | error e =>
      rw [verdict, htext] at hok
      cases hok
    | ok text =>
      rw [verdict, htext] at hok
      obtain ⟨reply, hreply, hflag⟩ := (readBulk_eq_ok_iff text).mp hok
      exact ⟨text, reply, (successText_eq_ok_iff answer).mp htext, hreply, hflag⟩
  · rintro ⟨text, reply, hbrings, hreply, hflag⟩
    rw [verdict, (successText_eq_ok_iff answer).mpr hbrings]
    exact (readBulk_eq_ok_iff text).mpr ⟨reply, hreply, hflag⟩

private theorem verdict_of_flagged {answer : HttpAnswer}
    (hbrings : Brings answer text) (hreply : Json.ofText? text = some reply)
    (hflag : reply.get? "errors" = some (.bool true)) :
    ∃ summary, verdict answer = .error (.bulk summary) ∧ Bulk.Summarizes reply summary := by
  obtain ⟨summary, hread, hsummarizes⟩ := readBulk_of_flagged hreply hflag
  refine ⟨summary, ?_, hsummarizes⟩
  rw [verdict, (successText_eq_ok_iff answer).mpr hbrings]
  exact hread

end HttpStore

namespace Post

open HttpStore (Brings homeStore verdict)

variable (c : ClientConfig) (h : HttpStore) (o : PostOptions) (now : Nat → Binary64) (w : Wire)

private theorem many_http {rs : List Record} (hrs : rs ≠ []) :
    let answered := w.request h.hosts (h.url HttpStore.bulkPath) .post
      (some ⟨HttpStore.linesType, Bulk.body (actions c o now rs)⟩)
    (verdict answered.1 = .ok () → many c (.http h) rs o now w = (nothing, answered.2)) ∧
      ∀ e, verdict answered.1 = .error e → many c (.http h) rs o now w =
        (⟨false, [notAllStored c rs.length e], []⟩, answered.2) := by
  intro answered
  have hactions : actions c o now rs ≠ [] := by
    cases rs with
    | nil => exact absurd rfl hrs
    | cons r rs => exact List.cons_ne_nil _ _
  have hbulk : (Engine.http h).bulk (actions c o now rs) w = (verdict answered.1, answered.2) :=
    h.postBulk_of_ne_nil hactions w
  constructor
  · intro hverdict
    simp [many, hrs, hbulk, hverdict]
  · intro e hverdict
    simp [many, hrs, hbulk, hverdict]

/-- Posting many records over HTTP. None take no request. Others take one bulk request, and they are
accepted exactly when the reply to it arrives with a status of success, holds a JSON text and does
not flag failures. If they are not accepted, one error is logged, and that of a reply that flags
failures has a summary of the reply. -/
theorem many_over_http (rs : List Record) :
    let url := h.base ++ "/_bulk"
    let content : Content := ⟨"application/x-ndjson", Bulk.body (actions c o now rs)⟩
    let answered := w.request h.hosts url .post (some content)
    let posted := many c (.http h) rs o now w
    (rs = [] → posted = (nothing, w)) ∧
    (rs ≠ [] →
      posted.2 = answered.2 ∧
      (∀ u address others, Url.parse? url = some u → u.addresses h.hosts = address :: others →
        posted.2 = ⟨w.script.tail, if w.script.head? = some .refuse then w.taken
          else w.taken ++ [⟨.post, u.target, some content, ⟨address, u.port⟩⟩]⟩) ∧
      (posted.1.accepted = true ↔ ∃ text reply, Brings answered.1 text ∧
        Json.ofText? text = some reply ∧ reply.get? "errors" ≠ some (.bool true)) ∧
      (posted.1.accepted = true → posted.1 = nothing) ∧
      (posted.1.accepted = false → ∃ e, posted.1 = ⟨false, [notAllStored c rs.length e], []⟩ ∧
        ∀ text reply, Brings answered.1 text → Json.ofText? text = some reply →
          reply.get? "errors" = some (.bool true) →
            ∃ summary, e = .bulk summary ∧ Bulk.Summarizes reply summary)) := by
  intro url content answered posted
  constructor
  · rintro rfl
    rfl
  intro hrs
  have hurl : h.url HttpStore.bulkPath = url := by
    have hpath : Cut.leadingSlashes HttpStore.bulkPath = "_bulk" := by decide
    rw [HttpStore.url, hpath, String.append_assoc]
    rfl
  obtain ⟨hstored, hfailed⟩ := many_http c h o now w hrs
  rw [hurl] at hstored hfailed
  have hsent : posted.2 = answered.2 := by
    cases hverdict : verdict answered.1 with
    | ok => exact congrArg Prod.snd (hstored hverdict)
    | error e => exact congrArg Prod.snd (hfailed e hverdict)
  refine ⟨hsent, ?_, ?_⟩
  · intro u address others hparse haddress
    have harriving : Outgoing.arriving? h.hosts ⟨.post, url, some content⟩ =
        some ⟨.post, u.target, some content, ⟨address, u.port⟩⟩ := by
      simp [Outgoing.arriving?, hparse, haddress]
    have hwire := w.request_arriving h.hosts ⟨.post, url, some content⟩
    rw [harriving] at hwire
    exact hsent.trans hwire
  rw [← HttpStore.verdict_eq_ok_iff answered.1]
  cases hverdict : verdict answered.1 with
  | ok =>
    have hposted : posted.1 = nothing := congrArg Prod.fst (hstored hverdict)
    rw [hposted]
    refine ⟨iff_of_true rfl rfl, fun _ => rfl, ?_⟩
    intro hrefused
    exact absurd hrefused (by decide)
  | error e =>
    have hposted : posted.1 = ⟨false, [notAllStored c rs.length e], []⟩ :=
      congrArg Prod.fst (hfailed e hverdict)
    rw [hposted]
    have hrefused : ¬ false = true := Bool.false_ne_true
    refine ⟨iff_of_false hrefused (by simp), fun htrue => absurd htrue hrefused,
      fun _ => ⟨e, rfl, ?_⟩⟩
    intro text reply hbrings hreply hflag
    obtain ⟨summary, herror, hsummarizes⟩ := HttpStore.verdict_of_flagged hbrings hreply hflag
    rw [hverdict] at herror
    exact ⟨summary, Except.error.inj herror, hsummarizes⟩

def jobRecords : List Record := [[("n", .ofNat 1)], [("n", .ofNat 2)]]

/-- A reply that flags failures: of its items one is stored, one has a failure without a reason at
its smallest key and another one behind it, two are no outcomes, and the last has a reason. -/
def flaggedReply : Json :=
  .object [("errors", .bool true), ("items", .array [
    .object [("index", .object [("status", .ofNat 201)])],
    .object [("index", .object [("error", .array [.string "full"])]),
      ("update", .object [("error", .string "late")])],
    .ofNat 7, .object [],
    .object [("index", .object [("error", .object [("reason", .string "boom")])])]])]

def replying (body : String) : Wire := ⟨[.answer 200 (some body)], []⟩

theorem many_over_http_flagged :
    let posted := many .default (.http homeStore) jobRecords {} (fun _ => .ofInt 0)
      (replying flaggedReply.text)
    jobRecords ≠ [] ∧ posted.2.taken.map Request.target = ["/_bulk"] ∧
      (∃ summary, posted.1 = ⟨false, [notAllStored .default 2 (.bulk summary)], []⟩ ∧
        Bulk.Summarizes flaggedReply summary) ∧
      Bulk.failures? flaggedReply = some "2 of 5 items failed: [\"full\"]" := by
  have hrecords : jobRecords ≠ [] := by simp [jobRecords]
  have hanswered : ∀ (body : String) (content : Option Content),
      ((replying body).request homeStore.hosts (homeStore.base ++ "/_bulk") .post content).1 =
        .ok (200, some body) := fun _ _ => rfl
  have htarget : ∀ (body : String) (content : Option Content),
      (((replying body).request homeStore.hosts (homeStore.base ++ "/_bulk") .post
        content).2.taken.map Request.target) = ["/_bulk"] := fun _ _ => rfl
  have hreply : Json.ofText? flaggedReply.text = some flaggedReply := by
    rw [Json.ofText?, Json.read?, Json.Tree.ofText?, Json.text, String.toList_ofList]
    decide +kernel
  obtain ⟨-, hmany⟩ := many_over_http .default homeStore {} (fun _ => .ofInt 0)
    (replying flaggedReply.text) jobRecords
  obtain ⟨hsent, -, haccepted, -, hfailed⟩ := hmany hrecords
  rw [hanswered] at haccepted hfailed
  have hbrings : Brings (.ok (200, some flaggedReply.text)) flaggedReply.text :=
    .body (by decide) (by decide) (by decide +kernel)
  obtain ⟨e, he, hflagged⟩ := hfailed <| by
    rw [← Bool.not_eq_true, haccepted]
    rintro ⟨text, reply, hanswer, hread, hflag⟩
    rw [← hbrings.unique hanswer, hreply] at hread
    obtain rfl := Option.some.inj hread
    exact hflag rfl
  obtain ⟨summary, rfl, hsummarizes⟩ := hflagged flaggedReply.text flaggedReply hbrings hreply rfl
  refine ⟨hrecords, ?_, ⟨summary, he, hsummarizes⟩, by decide +kernel⟩
  rw [hsent]
  exact htarget _ _

end Post

end Docket
