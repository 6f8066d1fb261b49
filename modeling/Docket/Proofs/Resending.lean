import Docket.Proofs.OrderedMap

/-!
Bulk requests sent again, and bulk requests sent in parts. Of two writes to one place the later one
stays, and a write to a place that is taken can be exchanged with a write to any other place. So a
write whose place is taken leaves no trace when a later one goes to the same place; and a request
whose actions all name their ids, sent again, finds all its places taken and leaves what it left.
-/

set_option autoImplicit false
set_option relaxedAutoImplicit false

namespace Docket

section Documents

variable {d e : StoredDocument}

private theorem StoredDocument.putInto_putInto (h : d.id = e.id) (docs : List StoredDocument) :
    e.putInto (d.putInto docs) = e.putInto docs := by
  induction docs with
  | nil => simp [putInto, h]
  | cons first rest ih =>
    by_cases hfirst : first.id = e.id
    · simp [putInto, h, hfirst]
    · simp [putInto, h, hfirst, ih]

private theorem StoredDocument.putInto_comm {docs : List StoredDocument} (h : d.id ≠ e.id)
    (htaken : d.id ∈ docs.map id) : e.putInto (d.putInto docs) = d.putInto (e.putInto docs) := by
  induction docs with
  | nil => simp at htaken
  | cons first rest ih =>
    by_cases hd : first.id = d.id
    · have he : first.id ≠ e.id := fun heq => h (hd.symm.trans heq)
      simp [putInto, hd, h]
    · have hrest : d.id ∈ rest.map id := by
        rw [List.map_cons, List.mem_cons] at htaken
        exact htaken.resolve_left (Ne.symm hd)
      by_cases he : first.id = e.id
      · simp [putInto, he, Ne.symm h]
      · simp [putInto, hd, he, ih hrest]

private theorem StoredDocument.find?_putInto (d : StoredDocument) (docs : List StoredDocument)
    (i : String) :
    (d.putInto docs).find? (·.id = i) = if d.id = i then some d else docs.find? (·.id = i) := by
  induction docs with
  | nil => by_cases h : d.id = i <;> simp [putInto, h]
  | cons first rest ih =>
    by_cases hfirst : first.id = d.id
    · by_cases h : d.id = i <;> simp [putInto, hfirst, h]
    · rw [putInto, if_neg hfirst, List.find?_cons, List.find?_cons, ih]
      by_cases h : first.id = i
      · have hd : d.id ≠ i := fun heq => hfirst (h.trans heq.symm)
        simp [h, hd]
      · simp [h]

end Documents

namespace Store

section Indices

variable {index other : String} {f g : List StoredDocument → List StoredDocument}
  {indices : List (String × List StoredDocument)}

private theorem changeIn_changeIn (index : String) (f g : List StoredDocument → List StoredDocument)
    (indices : List (String × List StoredDocument)) :
    changeIn index g (changeIn index f indices) =
      changeIn index (fun docs => g (f docs)) indices := by
  induction indices with
  | nil => simp [changeIn]
  | cons first rest ih =>
    obtain ⟨i, docs⟩ := first
    by_cases h : i = index
    · simp [changeIn, h]
    · simp [changeIn, h, ih]

private theorem changeIn_congr (h : ∀ docs, indices.lookup index = some docs → f docs = g docs)
    (hexists : (indices.lookup index).isSome) :
    changeIn index f indices = changeIn index g indices := by
  induction indices with
  | nil => simp at hexists
  | cons first rest ih =>
    obtain ⟨i, docs⟩ := first
    by_cases hi : i = index
    · subst hi
      rw [changeIn, changeIn, if_pos rfl, if_pos rfl, h docs (by simp)]
    · have hlookup : ((i, docs) :: rest).lookup index = rest.lookup index := by
        rw [List.lookup_cons, beq_false_of_ne (Ne.symm hi)]
      rw [hlookup] at h hexists
      rw [changeIn, changeIn, if_neg hi, if_neg hi, ih h hexists]

private theorem changeIn_comm (h : index ≠ other) (hexists : (indices.lookup index).isSome) :
    changeIn other g (changeIn index f indices) = changeIn index f (changeIn other g indices) := by
  induction indices with
  | nil => simp at hexists
  | cons first rest ih =>
    obtain ⟨i, docs⟩ := first
    by_cases hi : i = index
    · subst hi
      simp [changeIn, h]
    · have hrest : (rest.lookup index).isSome := by
        rwa [List.lookup_cons, beq_false_of_ne (Ne.symm hi)] at hexists
      by_cases ho : i = other
      · subst ho
        simp [changeIn, hi]
      · simp [changeIn, hi, ho, ih hrest]

end Indices

section Places

variable {s : Store} {v w : String × StoredDocument} {writes : List (String × StoredDocument)}

def place (w : String × StoredDocument) : String × String := (w.1, w.2.id)

def at? (s : Store) (p : String × String) : Option StoredDocument :=
  ((s.documents? p.1).getD []).find? (·.id = p.2)

def putAll (s : Store) (writes : List (String × StoredDocument)) : Store :=
  writes.foldl (fun s w => s.put w.1 w.2) s

private theorem putAll_cons (s : Store) (w : String × StoredDocument)
    (writes : List (String × StoredDocument)) :
    s.putAll (w :: writes) = (s.put w.1 w.2).putAll writes := rfl

private theorem at?_put (s : Store) (w : String × StoredDocument) (p : String × String) :
    (s.put w.1 w.2).at? p = if place w = p then some w.2 else s.at? p := by
  obtain ⟨index, id⟩ := p
  rw [at?, at?, documents?_put]
  by_cases hindex : index = w.1
  · subst hindex
    simp [place, StoredDocument.find?_putInto]
  · have hplace : place w ≠ (index, id) := fun h => hindex (congrArg Prod.fst h).symm
    simp [hindex, hplace]

private theorem isSome_at?_put {p : String × String} (h : (s.at? p).isSome)
    (w : String × StoredDocument) : ((s.put w.1 w.2).at? p).isSome := by
  rw [at?_put]
  split
  · rfl
  · exact h

private theorem put_put (h : place v = place w) : (s.put v.1 v.2).put w.1 w.2 = s.put w.1 w.2 := by
  obtain ⟨index, d⟩ := v
  obtain ⟨other, e⟩ := w
  obtain ⟨rfl, hid⟩ := Prod.mk.inj h
  have hsame : (fun docs => e.putInto (d.putInto docs)) = e.putInto :=
    funext (StoredDocument.putInto_putInto hid)
  simp only [put, changeIn_changeIn, hsame]

private theorem exists_of_taken {index id : String} (h : (s.at? (index, id)).isSome) :
    ∃ docs, s.indices.lookup index = some docs ∧ id ∈ docs.map StoredDocument.id := by
  rw [at?, List.find?_isSome] at h
  obtain ⟨d, hmem, hid⟩ := h
  cases hdocs : s.documents? index with
  | none => simp [hdocs] at hmem
  | some docs =>
    rw [hdocs, Option.getD_some] at hmem
    exact ⟨docs, hdocs, List.mem_map.mpr ⟨d, hmem, of_decide_eq_true hid⟩⟩

/-- A write to a place that is taken can be exchanged with a write to another place. -/
theorem put_comm (h : place v ≠ place w) (htaken : (s.at? (place v)).isSome) :
    (s.put v.1 v.2).put w.1 w.2 = (s.put w.1 w.2).put v.1 v.2 := by
  obtain ⟨index, d⟩ := v
  obtain ⟨other, e⟩ := w
  obtain ⟨docs, hdocs, hmem⟩ := exists_of_taken htaken
  have hexists : (s.indices.lookup index).isSome := by rw [hdocs, Option.isSome_some]
  by_cases hindex : index = other
  · subst hindex
    have hid : d.id ≠ e.id := fun heq => h (by rw [place, place, heq])
    simp only [put, changeIn_changeIn]
    congr 1
    apply changeIn_congr _ hexists
    intro found hfound
    obtain rfl := Option.some.inj (hdocs.symm.trans hfound)
    exact StoredDocument.putInto_comm hid hmem
  · simp only [put, changeIn_comm hindex hexists]

private theorem at?_putAll (s : Store) (writes : List (String × StoredDocument))
    (p : String × String) : (s.putAll writes).at? p =
      (((writes.filter fun w => place w = p).getLast?).map Prod.snd).or (s.at? p) := by
  induction writes generalizing s with
  | nil => rfl
  | cons w writes ih =>
    rw [putAll_cons, ih, at?_put]
    by_cases h : place w = p
    · rw [List.filter_cons_of_pos (by simpa using h), List.getLast?_cons, if_pos h]
      cases (writes.filter fun w => place w = p).getLast? <;> rfl
    · rw [List.filter_cons_of_neg (by simpa using h), if_neg h]

/-- A write to a place that is taken leaves no trace when a later one goes there. -/
theorem putAll_put (htaken : (s.at? (place w)).isSome) (h : place w ∈ writes.map place) :
    (s.put w.1 w.2).putAll writes = s.putAll writes := by
  induction writes generalizing s with
  | nil => simp at h
  | cons v writes ih =>
    rw [putAll_cons, putAll_cons]
    by_cases hv : place w = place v
    · rw [put_put hv]
    · have hrest : place w ∈ writes.map place := by
        rw [List.map_cons, List.mem_cons] at h
        exact h.resolve_left hv
      rw [put_comm hv htaken, ih (isSome_at?_put htaken v) hrest]

private theorem put_putAll (htaken : (s.at? (place w)).isSome) (h : place w ∉ writes.map place) :
    (s.putAll writes).put w.1 w.2 = (s.put w.1 w.2).putAll writes := by
  induction writes generalizing s with
  | nil => rfl
  | cons v writes ih =>
    rw [List.map_cons, List.mem_cons, not_or] at h
    rw [putAll_cons, putAll_cons, put_comm h.1 htaken, ih (isSome_at?_put htaken v) h.2]

private theorem putAll_putAll (s : Store) (writes : List (String × StoredDocument)) :
    (s.putAll writes).putAll writes = s.putAll writes := by
  induction writes generalizing s with
  | nil => rfl
  | cons w writes ih =>
    have htaken : ((s.put w.1 w.2).at? (place w)).isSome := by
      rw [at?_put, if_pos rfl, Option.isSome_some]
    rw [putAll_cons, putAll_cons]
    by_cases h : place w ∈ writes.map place
    · -- The rest of the second round writes there once more.
      have hstays : (((s.put w.1 w.2).putAll writes).at? (place w)).isSome := by
        rw [at?_putAll]
        simp [htaken]
      rw [putAll_put hstays h, ih]
    · rw [put_putAll htaken h, put_put rfl, ih]

end Places

end Store

namespace InMemory

open BulkAction (named)

variable (freshId : Nat → String)

private theorem store_writeAll (m : InMemory) (actions : List BulkAction) :
    (m.writeAll freshId actions).store = m.store.putAll (named freshId m.made actions) := by
  induction actions generalizing m with
  | nil => rfl
  | cons a actions ih =>
    obtain ⟨index, docType, id, source⟩ := a
    have hstep := ih (m.write freshId index docType id source)
    cases id <;> exact hstep

private theorem named_of_ids {actions : List BulkAction} (h : ∀ a ∈ actions, a.id.isSome)
    (made made' : Nat) : named freshId made actions = named freshId made' actions := by
  induction actions with
  | nil => rfl
  | cons a actions ih =>
    rw [List.forall_mem_cons] at h
    obtain ⟨id, hid⟩ := Option.isSome_iff_exists.mp h.1
    simp only [named, hid, ih h.2]

private theorem afterWrites_again {actions : List BulkAction} (h : ∀ a ∈ actions, a.id.isSome)
    (m : InMemory) :
    ((m.afterWrites freshId actions).afterWrites freshId actions).store =
      (m.afterWrites freshId actions).store := by
  cases hfailure : m.failure with
  | some detail => simp [afterWrites, hfailure]
  | none =>
    have hstill : (m.writeAll freshId actions).failure = none := by
      rw [failure_writeAll, hfailure]
    rw [afterWrites_of_unfailing freshId hfailure, afterWrites_of_unfailing freshId hstill,
      store_writeAll, store_writeAll,
      named_of_ids freshId h (m.writeAll freshId actions).made m.made, Store.putAll_putAll]

private theorem bulk_bulk_sameContents (cap : Option Nat) (m : InMemory)
    (earlier later : List BulkAction) :
    ((Engine.inMemory cap freshId).bulk later
        ((Engine.inMemory cap freshId).bulk earlier m).2).2.SameContents
      ((m.afterWrites freshId earlier).afterWrites freshId later) := by
  have hlater := bulk_sameContents freshId cap
    ((Engine.inMemory cap freshId).bulk earlier m).2 later
  exact hlater.trans ((bulk_sameContents freshId cap m earlier).afterWrites freshId later)

/-- A bulk request whose actions all name their ids changes nothing when it is sent again, and two
requests leave the contents that one request with the actions of both leaves. Unless the store is
told to fail, every place that a request writes to holds what was last written there, and the other
places hold what they held. -/
theorem bulk_sent_again (cap : Option Nat) (m : InMemory) (actions : List BulkAction) :
    let bulk (actions : List BulkAction) (m : InMemory) :=
      (Engine.inMemory cap freshId).bulk actions m
    ((∀ a ∈ actions, a.id.isSome) →
      (bulk actions (bulk actions m).2).2.store = (bulk actions m).2.store) ∧
    (∀ later : List BulkAction,
      (bulk (actions ++ later) m).2.SameContents (bulk later (bulk actions m).2).2) ∧
    (m.failure = none → ∀ place, (bulk actions m).2.store.at? place =
      ((((named freshId m.made actions).filter fun w => Store.place w = place).getLast?).map
        Prod.snd).or (m.store.at? place)) := by
  intro bulk
  have honce := bulk_sameContents freshId cap m actions
  refine ⟨?_, ?_, ?_⟩
  · intro hids
    have htwice := bulk_bulk_sameContents freshId cap m actions actions
    rw [htwice.store, afterWrites_again freshId hids, honce.store]
  · intro later
    have htogether := bulk_sameContents freshId cap m (actions ++ later)
    rw [afterWrites_append] at htogether
    have hapart := bulk_bulk_sameContents freshId cap m actions later
    exact ⟨htogether.store.trans hapart.store.symm, htogether.failure.trans hapart.failure.symm,
      htogether.made.trans hapart.made.symm⟩
  · intro hfailure place
    rw [honce.store, afterWrites_of_unfailing freshId hfailure, store_writeAll, Store.at?_putAll]

def moves : List BulkAction :=
  [⟨"hosts", "host", some "1", [("up", .bool true)]⟩, ⟨"jobs", "job", some "1", []⟩,
    ⟨"hosts", "guest", some "1", []⟩, ⟨"hosts", "host", some "2", []⟩,
    ⟨"hosts", "guest", some "1", [("up", .bool false)]⟩]

theorem bulk_sent_again_moves :
    let bulk (m : InMemory) := ((Engine.inMemory none fun _ => "new").bulk moves m).2
    (∀ a ∈ moves, a.id.isSome) ∧ repeatedlyWritten.failure = none ∧
      (bulk (bulk repeatedlyWritten)).store = (bulk repeatedlyWritten).store ∧
      (bulk repeatedlyWritten).store.at? ("hosts", "1") =
        some ⟨"1", "guest", [("up", .bool false)]⟩ := by
  intro bulk
  have hids : ∀ a ∈ moves, a.id.isSome := by simp [moves]
  obtain ⟨hagain, -, hlatest⟩ := bulk_sent_again (fun _ => "new") none repeatedlyWritten moves
  refine ⟨hids, rfl, hagain hids, ?_⟩
  exact (hlatest rfl ("hosts", "1")).trans (by decide +kernel)

end InMemory

end Docket
