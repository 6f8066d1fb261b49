import Docket.Client
import Docket.InMemory
import Docket.Proofs.Exchanges
import Docket.Proofs.Payloads

/-!
Where posted records go. A record can carry fields that look like a destination, but posting writes
to the index of the client and to no other, and every header that it sends names this index.
-/

set_option autoImplicit false
set_option relaxedAutoImplicit false

namespace Docket

variable {σ : Type} {index other : String}

section Headers

def destination? (line : List Char) : Option String := do
  let header ← Json.ofText? (String.ofList line)
  let target ← header.get? "index"
  (target.get? "_index").bind Json.string?

def headerLines : List (List Char) → List (List Char)
  | [] => []
  | [header] => [header]
  | header :: _ :: rest => header :: headerLines rest

def HeadersName (index : String) (text : List Char) : Prop :=
  ∃ lines, lines? text = some lines ∧ ∀ header ∈ headerLines lines,
    destination? header = some index

private theorem destination?_header (a : BulkAction) :
    destination? a.header.render = some a.index := by
  have hread := a.ofText?_header
  rw [Json.text] at hread
  rw [destination?, hread]
  obtain ⟨index, docType, id, source⟩ := a
  cases id <;> rfl

private theorem headerLines_texts (actions : List BulkAction) :
    headerLines (actions.flatMap BulkAction.texts) = actions.map fun a => a.header.render := by
  induction actions with
  | nil => rfl
  | cons a actions ih => simp [BulkAction.texts, headerLines] at ih ⊢; exact ih

private theorem headersName_bodyChars {actions : List BulkAction}
    (h : ∀ a ∈ actions, a.index = index) :
    HeadersName index (Bulk.bodyChars actions) := by
  refine ⟨actions.flatMap BulkAction.texts, Bulk.lines?_bodyChars actions, ?_⟩
  intro header hheader
  rw [headerLines_texts] at hheader
  obtain ⟨a, ha, rfl⟩ := List.mem_map.mp hheader
  rw [destination?_header, h a ha]

private theorem headersName_payload (docType : String) (r : Record) :
    HeadersName index (Payload.text index docType r).toList := by
  rw [Payload.text_eq_body, Bulk.body, String.toList_ofList]
  apply headersName_bodyChars
  simp

end Headers

section Writing

def EngineCall.WritesTo (index : String) : EngineCall → Prop
  | .index i _ _ => i = index
  | .bulk actions => ∀ a ∈ actions, a.index = index
  | _ => False

/-- What a store keeps when it is asked to write to the index only. -/
structure Engine.WritesKeep (engine : Engine σ) (index : String) (kept : σ → Prop) : Prop where
  index_keeps (docType : String) (document : Record) (s : σ) :
    kept s → kept (engine.index index docType document s).2
  bulk_keeps (actions : List BulkAction) (s : σ) :
    (∀ a ∈ actions, a.index = index) → kept s → kept (engine.bulk actions s).2

private theorem Post.index_action (c : ClientConfig) (o : PostOptions) (r : Record)
    (now : Binary64) : (Post.action c o r now).index = c.index := by
  simp [Post.action, BulkAction.ofRecord, Record.takeText]

private theorem Post.index_of_mem_actions (c : ClientConfig) (o : PostOptions)
    (now : Nat → Binary64)
    (rs : List Record) : ∀ a ∈ Post.actions c o now rs, a.index = c.index := by
  induction rs generalizing now with
  | nil => simp [Post.actions]
  | cons r rs ih =>
    intro a ha
    rw [Post.actions] at ha
    rcases List.mem_cons.mp ha with rfl | hrest
    · exact Post.index_action c o r (now 0)
    · exact ih _ a hrest

variable {c : ClientConfig} {engine : Engine σ} {kept : σ → Prop}

private theorem Post.single_keeps (h : engine.WritesKeep c.index kept) (net : DatagramNet)
    (docType : String) (r : Record) (o : PostOptions) (now : Binary64) {s : σ} (hs : kept s) :
    kept (Post.single c engine net docType r o now s).2 := by
  unfold Post.single
  split
  · exact hs
  · simp only
    split
    · exact hs
    · have hwritten := h.index_keeps ((Post.prepare o r now).1.getD docType)
        (Post.prepare o r now).2 s hs
      split
      · rename_i heq
        rwa [heq] at hwritten
      · rename_i heq
        rwa [heq] at hwritten

private theorem Post.many_keeps (h : engine.WritesKeep c.index kept) (rs : List Record)
    (o : PostOptions) (now : Nat → Binary64) {s : σ} (hs : kept s) :
    kept (Post.many c engine rs o now s).2 := by
  unfold Post.many
  split
  · exact hs
  · have hwritten := h.bulk_keeps (Post.actions c o now rs) s
      (Post.index_of_mem_actions c o now rs) hs
    split
    · rename_i heq
      rwa [heq] at hwritten
    · rename_i heq
      rwa [heq] at hwritten

end Writing

section Stores

theorem Engine.recorded_writesKeep (engine : Engine σ) (index : String) :
    engine.recorded.WritesKeep index fun t => ∀ call ∈ t.2, call.WritesTo index where
  index_keeps docType document s hs := by
    intro call hcall
    rcases List.mem_append.mp hcall with hbefore | hnew
    · exact hs call hbefore
    · obtain rfl := List.mem_singleton.mp hnew
      rfl
  bulk_keeps actions s hactions hs := by
    intro call hcall
    rcases List.mem_append.mp hcall with hbefore | hnew
    · exact hs call hbefore
    · obtain rfl := List.mem_singleton.mp hnew
      exact hactions

theorem Store.lookup_changeIn_of_ne (h : other ≠ index)
    (f : List StoredDocument → List StoredDocument)
    (indices : List (String × List StoredDocument)) :
    (Store.changeIn index f indices).lookup other = indices.lookup other := by
  induction indices with
  | nil => simp [Store.changeIn, List.lookup_cons, beq_false_of_ne h]
  | cons entry rest ih =>
    obtain ⟨i, docs⟩ := entry
    rw [Store.changeIn]
    split
    · rename_i hi
      subst hi
      simp [List.lookup_cons, beq_false_of_ne h]
    · rw [List.lookup_cons, List.lookup_cons, ih]

private theorem InMemory.documents?_write_of_ne (h : other ≠ index) (freshId : Nat → String)
    (m : InMemory) (docType : String) (id : Option String) (source : Record) :
    (m.write freshId index docType id source).store.documents? other =
      m.store.documents? other := by
  cases id <;> exact Store.lookup_changeIn_of_ne h _ _

theorem InMemory.documents?_writeAll_of_ne (freshId : Nat → String) {actions : List BulkAction}
    (hactions : ∀ a ∈ actions, other ≠ a.index) (m : InMemory) :
    (m.writeAll freshId actions).store.documents? other = m.store.documents? other := by
  induction actions generalizing m with
  | nil => rfl
  | cons a actions ih =>
    rw [List.forall_mem_cons] at hactions
    have hrest := ih hactions.2 (m.write freshId a.index a.docType a.id a.source)
    exact hrest.trans (documents?_write_of_ne hactions.1 freshId m a.docType a.id a.source)

private theorem Engine.inMemory_writesKeep (h : other ≠ index) (pageCap : Option Nat)
    (freshId : Nat → String) (docs : Option (List StoredDocument)) :
    (Engine.inMemory pageCap freshId).WritesKeep index fun m => m.store.documents? other = docs where
  index_keeps docType document m hm := by
    simp only [Engine.inMemory, InMemory.unlessFailing]
    split
    · exact hm
    · rw [InMemory.documents?_write_of_ne h]
      exact hm
  bulk_keeps actions m hactions hm := by
    simp only [Engine.inMemory, InMemory.unlessFailing]
    split
    · exact hm
    · rw [InMemory.documents?_writeAll_of_ne freshId fun a ha => hactions a ha ▸ h]
      exact hm

/-- What a request carries when records are posted: one document, or lines in which every header
names the index. -/
inductive Content.Posts (index : String) : Content → Prop
  | document (d : Record) : Posts index ⟨HttpStore.jsonType, Json.text (.object d)⟩
  | lines {body : String} : HeadersName index body.toList → Posts index ⟨HttpStore.linesType, body⟩

def Wire.TookPosts (index : String) (w after : Wire) : Prop :=
  ∃ sent, after.taken = w.taken ++ sent ∧
    ∀ q ∈ sent, ∃ content, q.content = some content ∧ content.Posts index

private theorem Wire.taken_request (w : Wire) (hosts : Hosts) (url : String) (method : Method)
    (content : Option Content) :
    ∃ sent, (w.request hosts url method content).2.taken = w.taken ++ sent ∧
      ∀ q ∈ sent, q.content = content := by
  have hwire := w.request_arriving hosts ⟨method, url, content⟩
  cases harriving : Outgoing.arriving? hosts ⟨method, url, content⟩ with
  | none =>
    rw [harriving] at hwire
    exact ⟨[], by simp [hwire], by simp⟩
  | some request =>
    have hcontent : request.content = content := Outgoing.content_of_arriving? harriving
    rw [harriving] at hwire
    by_cases hrefuse : w.script.head? = some .refuse
    · exact ⟨[], by simp [hwire, hrefuse], by simp⟩
    · exact ⟨[request], by simp [hwire, hrefuse], by simpa using hcontent⟩

private theorem Wire.tookPosts_post {w before : Wire} (hw : Wire.TookPosts index before w)
    (h : HttpStore) (path contentType body : String)
    (hposts : Content.Posts index ⟨contentType, body⟩) :
    Wire.TookPosts index before (h.post path contentType body w).2 := by
  obtain ⟨earlier, hearlier, hnamed⟩ := hw
  obtain ⟨sent, hsent, hcontent⟩ :=
    w.taken_request h.hosts (h.url path) .post (some ⟨contentType, body⟩)
  refine ⟨earlier ++ sent, ?_, ?_⟩
  · rw [← List.append_assoc, ← hearlier]
    exact hsent
  · intro q hq
    rcases List.mem_append.mp hq with hq | hq
    · exact hnamed q hq
    · exact ⟨_, hcontent q hq, hposts⟩

private theorem Engine.http_writesKeep (h : HttpStore) (index : String) (w : Wire) :
    (Engine.http h).WritesKeep index (Wire.TookPosts index w) where
  index_keeps docType document t ht := Wire.tookPosts_post ht h _ _ _ (.document document)
  bulk_keeps actions t hactions ht := by
    have hbody : HeadersName index (Bulk.body actions).toList := by
      simpa [Bulk.body] using headersName_bodyChars hactions
    simp only [Engine.http, HttpStore.postBulk]
    split
    · exact ht
    · exact Wire.tookPosts_post ht h _ _ _ (.lines hbody)

end Stores

section Datagrams

private theorem DatagramNet.text_of_mem_sendToAny (net : DatagramNet) (text : String)
    (attempt : Nat) (last : SendError) (targets : List Endpoint) :
    ∀ a ∈ (net.sendToAny text attempt last targets).2, a.text = text := by
  induction targets generalizing attempt last with
  | nil => simp [sendToAny]
  | cons target rest ih =>
    rw [sendToAny]
    split
    · simp
    · rename_i e _
      simpa using ih (attempt + 1) e

private theorem DatagramNet.text_of_mem_sendTo (net : DatagramNet) (host : String) (port : UInt16)
    (text : String) : ∀ a ∈ (net.sendTo host port text).2, a.text = text := by
  rw [sendTo]
  split
  · simp
  · exact net.text_of_mem_sendToAny text _ _ _

private theorem Post.headersName_attempt (c : ClientConfig) (engine : Engine σ) (net : DatagramNet)
    (docType : String) (r : Record) (o : PostOptions) (now : Binary64) (s : σ) :
    ∀ a ∈ (Post.single c engine net docType r o now s).1.attempts,
      HeadersName c.index a.text.toList := by
  unfold Post.single
  split
  · simp [Post.nothing]
  · simp only
    split
    · intro a ha
      have hmem : a ∈ (net.sendTo c.host c.udpPort (Payload.text c.index
          ((Post.prepare o r now).1.getD docType) (Post.prepare o r now).2)).2 := by
        revert ha
        generalize net.sendTo c.host c.udpPort _ = answer
        obtain ⟨sent, attempts⟩ := answer
        cases sent <;> exact id
      rw [net.text_of_mem_sendTo _ _ _ a hmem]
      exact headersName_payload _ _
    · split <;> simp [Post.nothing]

end Datagrams

inductive Step.Posts : Step → Prop
  | single (docType : String) (r : Record) (o : PostOptions) : Posts (.post docType r o)
  | many (rs : List Record) (o : PostOptions) : Posts (.bulkPost rs o)

private theorem Client.run_keeps {c : Client σ} {kept : σ → Prop}
    (h : c.engine.WritesKeep c.config.index kept) (now : Nat → Binary64) {step : Step}
    (hstep : step.Posts) {s : σ} (hs : kept s) : kept (c.run now step s).2 := by
  cases hstep with
  | single docType r o => exact Post.single_keeps h c.net docType r o (now 0) hs
  | many rs o => exact Post.many_keeps h rs o now hs

/-- Whatever fields the records and the options carry, posting writes to the index of the client: a
store in memory keeps the documents, types and existence of every other index, any store is asked to
write to this index only, and the headers of bulk requests and datagrams name it. -/
theorem Client.posting_keeps_to_index (c : ClientConfig) (net : DatagramNet)
    (now : Nat → Binary64) {step : Step} (hstep : step.Posts) :
    (∀ pageCap freshId (m : InMemory) (other : String), other ≠ c.index →
      (Client.run ⟨c, .inMemory pageCap freshId, net⟩ now step m).2.store.documents? other =
        m.store.documents? other) ∧
    (∀ {σ : Type} (engine : Engine σ) (s : σ),
      (∀ call ∈ (Client.run ⟨c, engine.recorded, net⟩ now step (s, [])).2.2,
        call.WritesTo c.index) ∧
      ∀ a ∈ (Client.run ⟨c, engine, net⟩ now step s).1.attempts,
        HeadersName c.index a.text.toList) ∧
    ∀ (h : HttpStore) (w : Wire),
      Wire.TookPosts c.index w (Client.run ⟨c, .http h, net⟩ now step w).2 := by
  refine ⟨?_, ?_, ?_⟩
  · intro pageCap freshId m other hother
    have hkeep := Engine.inMemory_writesKeep hother pageCap freshId (m.store.documents? other)
    exact Client.run_keeps (c := ⟨c, .inMemory pageCap freshId, net⟩) hkeep now hstep rfl
  · intro σ engine s
    constructor
    · have hkeep := engine.recorded_writesKeep c.index
      have hempty : ∀ call ∈ ([] : List EngineCall), call.WritesTo c.index := by simp
      exact Client.run_keeps (c := ⟨c, engine.recorded, net⟩) hkeep now hstep hempty
    · cases hstep with
      | single docType r o => exact Post.headersName_attempt c engine net docType r o (now 0) s
      | many rs o =>
        simp only [Client.run, Post.many]
        split
        · simp [Post.nothing]
        · split <;> simp [Post.nothing]
  · intro h w
    have hkeep := Engine.http_writesKeep h c.index w
    exact Client.run_keeps (c := ⟨c, .http h, net⟩) hkeep now hstep ⟨[], by simp, by simp⟩

def strayStep : Step :=
  .bulkPost [[("_index", .string "secret"), ("a", .null)], [("_index", .array [.string "secret"])]]
    { extra := [("_index", .string "secret"), ("_type", .bool true)] }

theorem Client.posting_keeps_to_index_stray :
    let net : DatagramNet := ⟨fun host => .error (.unresolved host), fun _ _ => .ok ()⟩
    let m : InMemory := { store := ⟨[("secret", [⟨"1", "event", []⟩])]⟩ }
    strayStep.Posts ∧ "secret" ≠ ClientConfig.default.index ∧
      (Client.run ⟨.default, .inMemory none fun _ => "new", net⟩ (fun _ => .ofInt 0) strayStep
        m).2.store.documents? "secret" = some [⟨"1", "event", []⟩] := by
  intro net m
  have hstep : strayStep.Posts := .many _ _
  have hother : "secret" ≠ ClientConfig.default.index := by decide
  obtain ⟨hkept, -, -⟩ := Client.posting_keeps_to_index .default net (fun _ => .ofInt 0) hstep
  exact ⟨hstep, hother, hkept none (fun _ => "new") m "secret" hother⟩

end Docket
