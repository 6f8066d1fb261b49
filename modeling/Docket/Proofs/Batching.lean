import Docket.Proofs.Calls
import Docket.Proofs.OrderedMap
import Docket.Proofs.Record
import Docket.Proofs.RoundTrip

/-!
Posting records one by one and posting them at once. The two prepare a record differently: a bulk
request lets a record name its id, keeps a time of report that is there, and has a default type of
its own. Records for which none of this matters become the same documents, in the same order.
-/

set_option autoImplicit false
set_option relaxedAutoImplicit false

namespace Docket

open Record (idField indexField typeField timeRecordedField)

section Preparation

/-- What posting on its own and posting among others treat alike: a record that names neither an id
nor an index, whose type is its own or the default of a bulk request, and that has no time in the
way of a stamp. -/
structure Post.Plain (docType : String) (o : PostOptions) (r : Record) : Prop where
  nonempty : r ≠ []
  id : (r.merge o.extra).has idField = false
  index : (r.merge o.extra).has indexField = false
  docType : (r.merge o.extra).has typeField = true ∨ docType = Record.defaultDocType
  time : o.stamp = false ∨ (r.merge o.extra).has timeRecordedField = false

def Post.timed (o : PostOptions) (now : Binary64) (fields : Record) : Record :=
  if o.stamp then fields.insert timeRecordedField (.number (.double now)) else fields

variable {docType name : String} {o : PostOptions} {r fields : Record} {now : Binary64}

private theorem Post.get?_timed (h : name ≠ timeRecordedField) :
    (timed o now fields).get? name = fields.get? name := by
  rw [timed]
  split
  · rw [Record.get?_insert, if_neg h]
  · rfl

private theorem Post.erase_timed (h : name < timeRecordedField) :
    (timed o now fields).erase name = timed o now (fields.erase name) := by
  rw [timed, timed]
  split
  · exact Record.erase_insert_of_lt h _ fields
  · rfl

private theorem Post.stamp_eq_timed (h : o.stamp = false ∨ fields.has timeRecordedField = false) :
    (if o.stamp then fields.stamp true now else fields) = timed o now fields := by
  rw [timed]
  split
  · rename_i hstamp
    have habsent := h.resolve_left (by simp [hstamp])
    simp [Record.stamp, habsent]
  · rfl

/-- Reserved fields come before the time of report, so they can be taken out before or after a
stamp. -/
theorem Post.action_eq_document (c : ClientConfig) (h : Plain docType o r) (now : Binary64) :
    action c o r now = document c docType r o now := by
  obtain ⟨-, hid, hindex, htype, htime⟩ := h
  have hid' : (r.merge o.extra).get? idField = none := by simpa [Record.has] using hid
  have hindex' : (r.merge o.extra).get? indexField = none := by simpa [Record.has] using hindex
  -- The record of a bulk request without its index is the stamped record itself.
  have hplaced : ((timed o now (r.merge o.extra)).insert indexField (.string c.index)).erase
      indexField = timed o now (r.merge o.extra) := by
    rw [Record.erase_insert_self, erase_timed (by decide), Record.erase_of_absent hindex']
  have hsource : ((timed o now (r.merge o.extra)).erase typeField).erase idField =
      timed o now ((r.merge o.extra).erase typeField) := by
    rw [erase_timed (by decide), erase_timed (by decide),
      Record.erase_of_absent (by simp [hid'])]
  simp only [action, stamp_eq_timed htime, BulkAction.ofRecord, Record.takeText, hplaced, hsource,
    Record.get?_insert, Record.get?_erase, get?_timed (show typeField ≠ timeRecordedField by decide),
    get?_timed (show idField ≠ timeRecordedField by decide), hid', document, prepare,
    BulkAction.mk.injEq]
  refine ⟨rfl, ?_, rfl, rfl⟩
  rcases htype with htype | rfl
  · obtain ⟨v, hv⟩ := Option.isSome_iff_exists.mp htype
    have hv' : (r.merge o.extra).get? typeField = some v := hv
    simp only [hv', Option.map_some, Option.getD_some]
  · rfl

def Post.documents (c : ClientConfig) (docType : String) (o : PostOptions) (now : Nat → Binary64) :
    List Record → List BulkAction
  | [] => []
  | r :: rest =>
    document c docType r o (now 0) :: documents c docType o (fun i => now (i + 1)) rest

private theorem Post.actions_eq_documents (c : ClientConfig) {rs : List Record}
    (h : ∀ r ∈ rs, Plain docType o r) (now : Nat → Binary64) :
    actions c o now rs = documents c docType o now rs := by
  induction rs generalizing now with
  | nil => rfl
  | cons r rs ih =>
    rw [List.forall_mem_cons] at h
    rw [actions, documents, action_eq_document c h.1, ih h.2]

private theorem Post.of_mem_documents (c : ClientConfig) (rs : List Record) (now : Nat → Binary64) :
    ∀ a ∈ documents c docType o now rs, a.index = c.index ∧ a.id = none := by
  induction rs generalizing now with
  | nil => simp [documents]
  | cons r rs ih => exact List.forall_mem_cons.mpr ⟨⟨rfl, rfl⟩, ih _⟩

end Preparation

section Arrival

variable {freshId : Nat → String} {index : String} {m n k : InMemory}
  {docs docs' : List StoredDocument} {d : StoredDocument}

structure InMemory.MakesNew (freshId : Nat → String) (index : String) (m : InMemory) : Prop where
  new : ∀ d ∈ m.documents index, ∀ i, m.made ≤ i → d.id ≠ freshId i
  distinct : ∀ i j, m.made ≤ i → m.made ≤ j → freshId i = freshId j → i = j

/-- An index of `m` has got some documents behind those that it had, and this is all. -/
def InMemory.Receives (m : InMemory) (index : String) (docs : List StoredDocument)
    (n : InMemory) : Prop :=
  ∀ other, n.store.documents? other =
    if other = index ∧ docs ≠ [] then some (m.documents index ++ docs)
    else m.store.documents? other

private theorem putInto_of_new (h : ∀ e ∈ docs, e.id ≠ d.id) : d.putInto docs = docs ++ [d] := by
  induction docs with
  | nil => rfl
  | cons e rest ih =>
    rw [List.forall_mem_cons] at h
    rw [StoredDocument.putInto, if_neg h.1, ih h.2, List.cons_append]

namespace InMemory

private theorem Receives.nothing (m : InMemory) (index : String) : m.Receives index [] m := by
  intro other
  rw [if_neg (by simp)]

private theorem Receives.documents (h : m.Receives index docs n) :
    n.documents index = m.documents index ++ docs := by
  rw [InMemory.documents, h index]
  by_cases hdocs : docs = []
  · rw [if_neg (by simp [hdocs]), hdocs, List.append_nil, InMemory.documents]
  · rw [if_pos ⟨rfl, hdocs⟩, Option.getD_some]

private theorem Receives.documents_of_ne (h : m.Receives index docs n) {other : String}
    (hother : other ≠ index) : n.documents other = m.documents other := by
  rw [InMemory.documents, h other, if_neg (by simp [hother]), InMemory.documents]

private theorem Receives.trans (h : m.Receives index docs n) (h' : n.Receives index docs' k) :
    m.Receives index (docs ++ docs') k := by
  intro other
  rw [h' other, h.documents, List.append_assoc]
  by_cases hdocs' : docs' = []
  · rw [if_neg (by simp [hdocs']), hdocs', List.append_nil, h other]
  · by_cases hother : other = index
    · rw [if_pos ⟨hother, hdocs'⟩, if_pos ⟨hother, by simp [hdocs']⟩]
    · rw [if_neg (by simp [hother]), if_neg (by simp [hother]), h other, if_neg (by simp [hother])]

private theorem Receives.congr (h : m.Receives index docs n) (hk : k.SameContents n) :
    m.Receives index docs k := by
  intro other
  rw [hk.store]
  exact h other

theorem receives_write (hnew : m.MakesNew freshId index) (docType : String) (source : Record) :
    m.Receives index [⟨freshId m.made, docType, source⟩]
      (m.write freshId index docType none source) := by
  intro other
  have hput := putInto_of_new (d := ⟨freshId m.made, docType, source⟩)
    fun e he => hnew.new e he m.made (Nat.le_refl _)
  simp only [InMemory.write, Store.documents?_put]
  by_cases hother : other = index
  · rw [if_pos hother, if_pos ⟨hother, by simp⟩]
    exact congrArg some hput
  · rw [if_neg hother, if_neg (by simp [hother])]

private theorem MakesNew.write (hnew : m.MakesNew freshId index) (docType : String)
    (source : Record) : (m.write freshId index docType none source).MakesNew freshId index where
  new := by
    intro d hd i hi
    have hi' : m.made < i := hi
    rw [(receives_write hnew docType source).documents] at hd
    rcases List.mem_append.mp hd with hold | hd
    · exact hnew.new d hold i (Nat.le_of_lt hi')
    · rw [List.mem_singleton.mp hd]
      intro heq
      have := hnew.distinct _ _ (Nat.le_refl _) (Nat.le_of_lt hi') heq
      omega
  distinct := by
    intro i j hi hj
    have hi' : m.made < i := hi
    have hj' : m.made < j := hj
    exact hnew.distinct i j (Nat.le_of_lt hi') (Nat.le_of_lt hj')

theorem receives_writeAll (hnew : m.MakesNew freshId index) {actions : List BulkAction}
    (hactions : ∀ a ∈ actions, a.index = index ∧ a.id = none) :
    m.Receives index ((BulkAction.named freshId m.made actions).map Prod.snd)
      (m.writeAll freshId actions) := by
  induction actions generalizing m with
  | nil => exact .nothing m index
  | cons a actions ih =>
    obtain ⟨i, docType, id, source⟩ := a
    rw [List.forall_mem_cons] at hactions
    obtain ⟨⟨rfl, rfl⟩, hrest⟩ := hactions
    exact (receives_write hnew docType source).trans (ih (hnew.write docType source) hrest)

end InMemory

end Arrival

section Posting

variable {c : ClientConfig} (freshId : Nat → String) (docType : String) (o : PostOptions)
  {rs : List Record} {m : InMemory}

private theorem InMemory.run_post (net : DatagramNet) (cap : Option Nat) (now : Nat → Binary64)
    {r : Record} (htransport : c.transport = .http) (hr : r ≠ []) (hfailure : m.failure = none) :
    let posted := m.run ⟨c, .inMemory cap freshId, net⟩ now (.client (.post docType r o))
    posted.1.answer = .client (.posted true) ∧
      posted.2.SameContents (m.writeAll freshId [Post.document c docType r o (now 0)]) := by
  obtain ⟨calls, hsingle⟩ :=
    Post.single_stores htransport hr hfailure cap freshId net docType o (now 0)
  simp only [InMemory.run, Client.run, hsingle]
  exact ⟨rfl, rfl, rfl, rfl⟩

private theorem Session.run_posts (net : DatagramNet) (cap : Option Nat)
    (clock : Nat → Nat → Binary64)
    (htransport : c.transport = .http) (hrs : ∀ r ∈ rs, r ≠ []) (hfailure : m.failure = none)
    (number : Nat) :
    let posts : List InMemoryStep := rs.map fun r => .client (.post docType r o)
    let step n (i : InMemoryStep) (m : InMemory) :=
      m.run ⟨c, .inMemory cap freshId, net⟩ (clock n) i
    (∀ x ∈ run step number posts m, x.1.answer = .client (.posted true)) ∧
      (final step number posts m).SameContents
        (m.writeAll freshId (Post.documents c docType o (fun i => clock (number + i) 0) rs)) := by
  intro posts step
  induction rs generalizing m number with
  | nil => exact ⟨by simp [posts, run], .refl m⟩
  | cons r rs ih =>
    rw [List.forall_mem_cons] at hrs
    obtain ⟨haccepted, hwritten⟩ :=
      InMemory.run_post freshId docType o net cap (clock number) htransport hrs.1 hfailure
    have hfailure' := hwritten.failure.trans hfailure
    obtain ⟨hrest, hfinal⟩ := ih hrs.2 hfailure' (number + 1)
    constructor
    · intro x hx
      rcases List.mem_cons.mp hx with rfl | hx
      · exact haccepted
      · exact hrest x hx
    · have hnumber : ∀ i, number + 1 + i = number + (i + 1) := by omega
      simp only [hnumber] at hfinal
      exact hfinal.trans (hwritten.writeAll freshId _)

private theorem InMemory.run_bulkPost (net : DatagramNet) (cap : Option Nat) (now : Nat → Binary64)
    (hrs : ∀ r ∈ rs, Post.Plain docType o r) (hfailure : m.failure = none) :
    let posted := Client.run ⟨c, .inMemory cap freshId, net⟩ now (.bulkPost rs o) m
    posted.1.answer = .posted true ∧
      posted.2.SameContents (m.writeAll freshId (Post.documents c docType o now rs)) := by
  constructor
  · have hposted := Post.many_outcome c (.inMemory cap freshId) m rs o now
    have hacceptance : m.acceptance = .ok () := by rw [acceptance, hfailure]
    rw [InMemory.bulk_answer, hacceptance] at hposted
    exact congrArg (fun p : Posted => Answer.posted p.accepted) hposted
  · have hwritten := many_sameContents freshId cap c now m rs o
    have heffect : m.effect freshId c now (.client (.bulkPost rs o)) =
        m.writeAll freshId (Post.documents c docType o now rs) := by
      simp only [effect, InMemoryStep.requests, afterWrites, hfailure,
        Post.actions_eq_documents c hrs, Option.isSome_none, Bool.false_eq_true, if_false]
    rwa [heffect] at hwritten

end Posting

section Agreement

variable (c : ClientConfig) {docType : String} {o : PostOptions}

structure StoredDocument.SameReport (stamped : Bool) (d e : StoredDocument) : Prop where
  docType : d.docType = e.docType
  fields : d.source.erase timeRecordedField = e.source.erase timeRecordedField
  unstamped : stamped = false → d.source = e.source

private theorem StoredDocument.SameReport.refl (stamped : Bool) (d : StoredDocument) :
    d.SameReport stamped d := ⟨rfl, rfl, fun _ => rfl⟩

private theorem Post.erase_time_timed (now : Binary64) (fields : Record) :
    (timed o now fields).erase timeRecordedField = fields.erase timeRecordedField := by
  rw [timed]
  split
  · exact Record.erase_insert_self _ fields
  · rfl

private theorem Post.sameReport (r : Record) (id id' : String) (t t' : Binary64) :
    StoredDocument.SameReport o.stamp
      ⟨id, (document c docType r o t).docType, (document c docType r o t).source⟩
      ⟨id', (document c docType r o t').docType, (document c docType r o t').source⟩ where
  docType := rfl
  fields := by
    have hsource : ∀ t, (document c docType r o t).source =
        timed o t ((r.merge o.extra).erase typeField) := fun _ => rfl
    rw [hsource, hsource, erase_time_timed, erase_time_timed]
  unstamped := by
    intro hstamp
    simp only [document, prepare, hstamp, Bool.false_eq_true, if_false]

private theorem Post.documents_sameReport (rs : List Record) (freshId freshId' : Nat → String)
    (made made' : Nat) (now now' : Nat → Binary64) :
    List.Forall₂ (StoredDocument.SameReport o.stamp)
      ((BulkAction.named freshId made (documents c docType o now rs)).map Prod.snd)
      ((BulkAction.named freshId' made' (documents c docType o now' rs)).map Prod.snd) := by
  induction rs generalizing made made' now now' with
  | nil => exact .nil
  | cons r rs ih => exact .cons (sameReport c r _ _ _ _) (ih _ _ _ _)

/-- Records posted one by one, and the same records posted at once, to a store that does not fail:
all is accepted, and either way the index of the client gets, behind the documents that it has, what
the records are posted as, in their order. So every index has the same documents of the same types
in the same order; they differ in new ids and, if records are stamped, in times of report. -/
theorem Client.posts_agree_with_bulkPost (net : DatagramNet) (cap : Option Nat)
    (freshId freshId' : Nat → String) (clock : Nat → Nat → Binary64) (now : Nat → Binary64)
    (docType : String) (o : PostOptions) (rs : List Record) (m : InMemory)
    (htransport : c.transport = .http) (hfailure : m.failure = none)
    (hrs : ∀ r ∈ rs, Post.Plain docType o r) (hnew : m.MakesNew freshId c.index)
    (hnew' : m.MakesNew freshId' c.index) :
    let client : Client InMemory := ⟨c, .inMemory cap freshId, net⟩
    let posts : List InMemoryStep := rs.map fun r => .client (.post docType r o)
    let apart := Session.finalInMemory client clock posts m
    let together := Client.run ⟨c, .inMemory cap freshId', net⟩ now (.bulkPost rs o) m
    (∀ x ∈ Session.inMemory client clock posts m, x.1.answer = .client (.posted true)) ∧
      together.1.answer = .posted true ∧
      m.Receives c.index ((BulkAction.named freshId m.made
        (Post.documents c docType o (fun i => clock i 0) rs)).map Prod.snd) apart ∧
      m.Receives c.index ((BulkAction.named freshId' m.made
        (Post.documents c docType o now rs)).map Prod.snd) together.2 ∧
      ∀ index, List.Forall₂ (StoredDocument.SameReport o.stamp) (apart.documents index)
        (together.2.documents index) := by
  intro client posts apart together
  have hnonempty : ∀ r ∈ rs, r ≠ [] := fun r hr => (hrs r hr).nonempty
  obtain ⟨haccepted, hfinal⟩ :=
    Session.run_posts freshId docType o net cap clock htransport hnonempty hfailure 0
  obtain ⟨haccepted', hfinal'⟩ :=
    InMemory.run_bulkPost freshId' docType o net cap now hrs hfailure
  simp only [Nat.zero_add] at hfinal
  have hapart : m.Receives c.index ((BulkAction.named freshId m.made
      (Post.documents c docType o (fun i => clock i 0) rs)).map Prod.snd) apart :=
    (InMemory.receives_writeAll hnew (Post.of_mem_documents c rs fun i => clock i 0)).congr hfinal
  have htogether : m.Receives c.index ((BulkAction.named freshId' m.made
      (Post.documents c docType o now rs)).map Prod.snd) together.2 :=
    (InMemory.receives_writeAll hnew' (Post.of_mem_documents c rs now)).congr hfinal'
  refine ⟨haccepted, haccepted', hapart, htogether, ?_⟩
  intro index
  have hold : List.Forall₂ (StoredDocument.SameReport o.stamp) (m.documents index)
      (m.documents index) := List.forall₂_same.mpr fun d _ => .refl o.stamp d
  by_cases hindex : index = c.index
  · subst hindex
    rw [hapart.documents, htogether.documents]
    exact List.rel_append hold (Post.documents_sameReport c rs _ _ _ _ _ _)
  · rwa [hapart.documents_of_ne hindex, htogether.documents_of_ne hindex]

def tally (mark : Char) (made : Nat) : String :=
  String.ofList (List.replicate made mark)

def checkedIn : InMemory :=
  { store := ⟨[("metadata", [⟨"early", "guest", [("name", .string "g0")]⟩])]⟩ }

private theorem InMemory.makesNew_checkedIn (mark : Char) (hmark : mark ≠ 'e') :
    checkedIn.MakesNew (tally mark) "metadata" where
  new := by
    intro d hd i _ heq
    have hid : d.id = "early" := by
      rw [List.mem_singleton.mp hd]
    have hchars : "early".toList = List.replicate i mark := by
      rw [← hid, heq, tally, String.toList_ofList]
    have hfirst : 'e' ∈ List.replicate i mark := by
      rw [← hchars]
      decide
    exact hmark (List.eq_of_mem_replicate hfirst).symm
  distinct := by
    intro i j _ _ heq
    simpa [tally] using congrArg (List.length ∘ String.toList) heq

def arrivals : List Record :=
  [[("_type", .bool true), ("name", .string "g1")], [("name", .string "g2")]]

theorem Client.posts_agree_with_bulkPost_arrivals :
    let o : PostOptions := { extra := [("desk", .ofNat 1)] }
    let posts : List InMemoryStep := arrivals.map fun r => .client (.post "metadata" r o)
    let apart := Session.finalInMemory ⟨.default, .inMemory none (tally 'x'), .ofHosts ⟨[]⟩ []⟩
      (fun i _ => .ofInt i) posts checkedIn
    let together := (Client.run ⟨.default, .inMemory none (tally 'y'), .ofHosts ⟨[]⟩ []⟩
      (fun _ => .ofInt 7) (.bulkPost arrivals o) checkedIn).2
    (∀ r ∈ arrivals, Post.Plain "metadata" o r) ∧
      List.Forall₂ (StoredDocument.SameReport true) (apart.documents "metadata")
        (together.documents "metadata") := by
  intro o posts apart together
  have hplain : ∀ r ∈ arrivals, Post.Plain "metadata" o r := by
    intro r hr
    have hcases : r = [("_type", .bool true), ("name", .string "g1")] ∨
        r = [("name", .string "g2")] := by simpa [arrivals] using hr
    rcases hcases with rfl | rfl
    · exact ⟨by simp, rfl, rfl, .inr rfl, .inr rfl⟩
    · exact ⟨by simp, rfl, rfl, .inr rfl, .inr rfl⟩
  obtain ⟨-, -, -, -, hagree⟩ := posts_agree_with_bulkPost .default (.ofHosts ⟨[]⟩ []) none
    (tally 'x') (tally 'y') (fun i _ => .ofInt i) (fun _ => .ofInt 7) "metadata" o arrivals
    checkedIn rfl rfl hplain (InMemory.makesNew_checkedIn 'x' (by decide))
    (InMemory.makesNew_checkedIn 'y' (by decide))
  exact ⟨hplain, hagree "metadata"⟩

end Agreement

end Docket
