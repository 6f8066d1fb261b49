import Docket.Proofs.Calls
import Docket.Proofs.Record

/-!
What records are posted as. Further fields overlay those of a record, one by one. The fields that
name the type and, in a bulk request, the index and the id leave the record for the header; the time
of report is put in, where a bulk request keeps one that is there and a single post does not. All
other fields stay as they are.
-/

set_option autoImplicit false
set_option relaxedAutoImplicit false

namespace Docket

open Record (typeField indexField idField timeRecordedField)

def Json.plainText : Json → String
  | .string s => s
  | v => v.text

namespace Record

/-- The value of a field when further fields are set in a record. -/
def overlaid (r extra : Record) (key : String) : Option Json := (extra.get? key).or (r.get? key)

variable {r extra : Record}

private theorem get?_merge (hextra : extra.Sorted) (key : String) :
    (r.merge extra).get? key = r.overlaid extra key :=
  get?_insertAll hextra r key

private theorem takeText_eq (r : Record) (field : String) :
    r.takeText field = ((r.get? field).map Json.plainText, r.erase field) := by
  rw [takeText]
  cases r.get? field with
  | none => rfl
  | some v => cases v <;> rfl

private theorem get?_stamp (r : Record) (keep : Bool) (now : Binary64) (key : String) :
    (r.stamp keep now).get? key =
      if key = timeRecordedField then
        (if keep then r.get? key else none).or (some (.number (.double now)))
      else r.get? key := by
  rw [stamp]
  cases keep with
  | false => simp
  | true =>
    by_cases hk : key = timeRecordedField
    · subst hk
      cases htime : r.get? timeRecordedField <;> simp [has, htime]
    · split <;> simp [hk]

private theorem Sorted.stamp (h : r.Sorted) (keep : Bool) (now : Binary64) :
    (r.stamp keep now).Sorted := by
  rw [Record.stamp]
  split
  · exact h
  · exact h.insert _ _

end Record

namespace Post

variable (c : ClientConfig) (o : PostOptions) (r : Record) (now : Binary64)

structure IsDocument (docType type : String) (fields : Record) : Prop where
  sorted : fields.Sorted
  type : type = ((r.overlaid o.extra typeField).map Json.plainText).getD docType
  untyped : fields.get? typeField = none
  time : fields.get? timeRecordedField =
    if o.stamp then some (.number (.double now)) else r.overlaid o.extra timeRecordedField
  kept (key : String) : key ≠ typeField → key ≠ timeRecordedField →
    fields.get? key = r.overlaid o.extra key

structure IsAction (a : BulkAction) : Prop where
  sorted : a.source.Sorted
  index : a.index = c.index
  docType : a.docType =
    ((r.overlaid o.extra typeField).map Json.plainText).getD Record.defaultDocType
  id : a.id = (r.overlaid o.extra idField).map Json.plainText
  unreserved : ∀ key ∈ [indexField, typeField, idField], a.source.get? key = none
  time : a.source.get? timeRecordedField = (r.overlaid o.extra timeRecordedField).or
    (if o.stamp then some (.number (.double now)) else none)
  kept : ∀ key ∉ [indexField, typeField, idField, timeRecordedField],
    a.source.get? key = r.overlaid o.extra key

variable {o r}

private theorem isDocument_document (hr : r.Sorted) (hextra : o.extra.Sorted) (docType : String) :
    IsDocument o r now docType (document c docType r o now).docType
      (document c docType r o now).source := by
  have hmerged : (r.merge o.extra).Sorted := hr.insertAll o.extra
  simp only [document, prepare, Record.takeText_eq, Record.get?_merge hextra]
  constructor
  · cases o.stamp with
    | true => exact (hmerged.erase typeField).stamp false now
    | false => exact hmerged.erase typeField
  · rfl
  · cases o.stamp <;> simp [Record.get?_stamp, typeField, timeRecordedField]
  · cases o.stamp <;>
      simp [Record.get?_stamp, typeField, timeRecordedField, Record.get?_merge hextra]
  · intro key htype htime
    cases o.stamp <;> simp [Record.get?_stamp, htype, htime, Record.get?_merge hextra]

private theorem isAction_action (hr : r.Sorted) (hextra : o.extra.Sorted) :
    IsAction c o r now (action c o r now) := by
  have hmerged : (r.merge o.extra).Sorted := hr.insertAll o.extra
  simp only [action, BulkAction.ofRecord, Record.takeText_eq]
  generalize hstamped : (if o.stamp then (r.merge o.extra).stamp true now else r.merge o.extra) =
    stamped
  have hsorted : stamped.Sorted := by
    rw [← hstamped]
    split
    · exact hmerged.stamp true now
    · exact hmerged
  have htime : stamped.get? timeRecordedField = (r.overlaid o.extra timeRecordedField).or
      (if o.stamp then some (.number (.double now)) else none) := by
    rw [← hstamped]
    cases o.stamp <;> simp [Record.get?_stamp, Record.get?_merge hextra]
  have hkept : ∀ key ≠ timeRecordedField, stamped.get? key = r.overlaid o.extra key := by
    intro key hkey
    rw [← hstamped]
    cases o.stamp <;> simp [Record.get?_stamp, Record.get?_merge hextra, hkey]
  have htype := hkept typeField (by decide)
  have hid := hkept idField (by decide)
  have hnames : typeField ≠ indexField ∧ idField ≠ indexField ∧ idField ≠ typeField ∧
      timeRecordedField ≠ indexField ∧ timeRecordedField ≠ typeField ∧
      timeRecordedField ≠ idField := by decide
  constructor
  · exact (((hsorted.insert _ _).erase _).erase _).erase _
  · simp [Json.plainText]
  · simp [htype, hnames]
  · simp [hid, hnames]
  · simp
  · simp [htime, hnames]
  · intro key hkey
    simp only [List.mem_cons, List.not_mem_nil, or_false, not_or] at hkey
    obtain ⟨hindex, htype, hid, htime⟩ := hkey
    simp [hindex, htype, hid, hkept key htime]

private theorem actions_eq_map (now : Nat → Binary64) (rs : List Record) (start : Nat) :
    actions c o (fun i => now (start + i)) rs =
      (rs.zipIdx start).map fun r => action c o r.1 (now r.2) := by
  induction rs generalizing start with
  | nil => rfl
  | cons r rs ih =>
    have hnext : (fun i => now (start + (i + 1))) = fun i => now (start + 1 + i) := by
      funext i
      rw [Nat.add_comm i 1, ← Nat.add_assoc]
    rw [actions, hnext, ih, List.zipIdx_cons, List.map_cons, Nat.add_zero]

private theorem forall₂_actions {rs : List Record} (hrs : ∀ r ∈ rs, r.Sorted)
    (hextra : o.extra.Sorted) (now : Nat → Binary64) :
    List.Forall₂ (fun r a => IsAction c o r.1 (now r.2) a) rs.zipIdx (actions c o now rs) := by
  have hactions := actions_eq_map c (o := o) now rs 0
  simp only [Nat.zero_add] at hactions
  rw [hactions, List.forall₂_map_right_iff, List.forall₂_same]
  intro r hr
  exact isAction_action c (now r.2) (hrs r.1 (List.fst_mem_of_mem_zipIdx hr)) hextra

section HandedOver

variable {σ : Type} {c} (engine : Engine σ) (s : σ) (calls : List EngineCall)

private theorem many_recorded (rs : List Record) (now : Nat → Binary64) :
    (many c engine.recorded rs o now (s, calls)).2.2 =
      calls ++ if rs = [] then [] else [.bulk (actions c o now rs)] := by
  have hcall : engine.recorded.bulk (actions c o now rs) (s, calls) =
      ((engine.bulk (actions c o now rs) s).1, (engine.bulk (actions c o now rs) s).2,
        calls ++ [.bulk (actions c o now rs)]) := rfl
  simp only [many, hcall, List.isEmpty_iff]
  split
  · simp
  · cases (engine.bulk (actions c o now rs) s).1 <;> rfl

/-- What records are handed over as. A record that is not empty goes, on its own, to the store or
into a datagram, with the type and the fields that it has once further fields overlay it and it is
stamped. Some records go to the store at once, as one action each, in their order. -/
theorem posting_prepares (c : ClientConfig) (engine : Engine σ) (net : DatagramNet)
    (o : PostOptions) (s : σ) (calls : List EngineCall) (hextra : o.extra.Sorted) :
    (∀ (docType : String) (r : Record) (now : Binary64), r ≠ [] → r.Sorted →
      ∃ type fields, IsDocument o r now docType type fields ∧
        let posted := single c engine.recorded net docType r o now (s, calls)
        (c.transport = .http →
          posted.2.2 = calls ++ [.index c.index type fields] ∧ posted.1.attempts = []) ∧
        (c.transport = .udp → posted = (ofSending c
          (net.sendTo c.host c.udpPort (Payload.text c.index type fields)), (s, calls)))) ∧
    ∀ (rs : List Record) (now : Nat → Binary64), (∀ r ∈ rs, r.Sorted) →
      ∃ actions, (many c engine.recorded rs o now (s, calls)).2.2 =
          calls ++ (if rs = [] then [] else [.bulk actions]) ∧
        List.Forall₂ (fun r a => IsAction c o r.1 (now r.2) a) rs.zipIdx actions := by
  constructor
  · intro docType r now hr hsorted
    refine ⟨_, _, isDocument_document c now hsorted hextra docType, ?_, ?_⟩
    · intro hhttp
      obtain ⟨hleft, hquiet⟩ :=
        single_of_http net engine.recorded (s, calls) docType o hhttp hr now
      exact ⟨congrArg Prod.snd hleft, hquiet⟩
    · intro hudp
      exact single_of_udp net engine.recorded (s, calls) docType o hudp hr now
  · intro rs now hrs
    exact ⟨_, many_recorded engine s calls rs now, forall₂_actions c hrs hextra now⟩

def reserved : PostOptions := { extra := [("_id", .ofNat 7), ("_type", .bool true)] }

def reported : Record :=
  [("_index", .string "other"), ("n", .null), ("time_recorded", .ofNat 5)]

theorem posting_prepares_reserved :
    let recorded := Engine.recorded (σ := Unit) .idle
    let now := Binary64.ofInt 9
    reserved.extra.Sorted ∧ reported ≠ [] ∧ reported.Sorted ∧
      (∃ fields, (single .default recorded (.ofHosts ⟨[]⟩ []) "job" reported reserved now
          ((), [])).2.2 = [.index ClientConfig.default.index "true" fields] ∧
        fields.get? "_id" = some (.ofNat 7) ∧ fields.get? "_index" = some (.string "other") ∧
        fields.get? "time_recorded" = some (.number (.double now))) ∧
      ∃ a, (many .default recorded [reported] reserved (fun _ => now) ((), [])).2.2 =
          [.bulk [a]] ∧
        a.index = ClientConfig.default.index ∧ a.docType = "true" ∧ a.id = some "7" ∧
        a.source.get? "time_recorded" = some (.ofNat 5) := by
  intro recorded now
  have hextra : reserved.extra.Sorted := .cons_cons (by decide) (.singleton _)
  have hreported : reported.Sorted :=
    .cons_cons (by decide) (.cons_cons (by decide) (.singleton _))
  have hnonempty : reported ≠ [] := List.cons_ne_nil _ _
  obtain ⟨halone, htogether⟩ := posting_prepares .default (σ := Unit) .idle (.ofHosts ⟨[]⟩ [])
    reserved () [] hextra
  refine ⟨hextra, hnonempty, hreported, ?_, ?_⟩
  · obtain ⟨type, fields, hdocument, hhttp, -⟩ :=
      halone "job" reported now hnonempty hreported
    have htype : type = "true" := hdocument.type
    refine ⟨fields, ?_, hdocument.kept _ (by decide) (by decide),
      hdocument.kept _ (by decide) (by decide), hdocument.time⟩
    rw [← htype]
    exact (hhttp rfl).1
  · obtain ⟨actions, hcalls, hactions⟩ :=
      htogether [reported] (fun _ => now) fun r hr => by rwa [List.mem_singleton.mp hr]
    obtain ⟨a, haction, rfl⟩ : ∃ a, IsAction .default reserved reported now a ∧ actions = [a] := by
      cases hactions with
      | cons ha hrest =>
        cases hrest
        exact ⟨_, ha, rfl⟩
    exact ⟨a, hcalls, haction.index, haction.docType, haction.id, haction.time⟩

end HandedOver

end Post

end Docket
