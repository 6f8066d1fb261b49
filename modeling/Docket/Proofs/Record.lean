import Docket.Record

/-!
What reading a field of a record gives after the record was changed, in which order fields can be
inserted and erased, and the record that is made of fields in order, or of fields with different
names. Records stay in order whatever is done to them, so a further record overlays one field by
field.
-/

set_option autoImplicit false
set_option relaxedAutoImplicit false

namespace Docket.Record

@[simp] theorem get?_nil (key : String) : get? [] key = none := rfl

theorem get?_cons (field key : String) (value : Json) (rest : Record) :
    get? ((field, value) :: rest) key = if key = field then some value else get? rest key := by
  by_cases hk : key = field
  · simp [get?, hk]
  · simp [get?, List.lookup_cons, beq_false_of_ne hk, hk]

@[simp] theorem get?_insert (field key : String) (value : Json) (r : Record) :
    get? (insert field value r) key = if key = field then some value else get? r key := by
  induction r with
  | nil => simp [insert, get?_cons]
  | cons m rest ih =>
    obtain ⟨f, v⟩ := m
    by_cases hf : field = f
    · subst hf
      simp only [insert, if_true, get?_cons]
      split <;> rfl
    · simp only [insert, if_neg hf]
      split
      · rw [get?_cons]
      · rw [get?_cons, ih, get?_cons]
        by_cases hk : key = field
        · simp [hk, hf]
        · simp [hk]

section Erasing

variable {field name : String} {r : Record}

theorem erase_cons (f : String) (v : Json) (rest : Record) (field : String) :
    erase ((f, v) :: rest) field =
      if f = field then erase rest field else (f, v) :: erase rest field := by
  by_cases h : f = field <;> simp [erase, h]

@[simp] theorem get?_erase (r : Record) (field key : String) :
    get? (erase r field) key = if key = field then none else get? r key := by
  induction r with
  | nil => simp [erase]
  | cons m rest ih =>
    obtain ⟨f, v⟩ := m
    rw [erase_cons, get?_cons]
    by_cases hf : f = field
    · subst hf
      rw [if_pos rfl, ih]
      split <;> rfl
    · rw [if_neg hf, get?_cons, ih]
      by_cases hk : key = f
      · rw [if_pos hk, if_pos hk, if_neg (hk ▸ hf)]
      · rw [if_neg hk, if_neg hk]

theorem erase_of_absent (h : r.get? field = none) : r.erase field = r := by
  rw [erase, List.filter_eq_self]
  intro m hm
  have hne : (field != m.1) = true := List.lookup_eq_none_iff.mp h m hm
  rwa [bne_comm] at hne

theorem erase_insert_self (value : Json) (r : Record) :
    (insert field value r).erase field = r.erase field := by
  induction r with
  | nil => simp [insert, erase]
  | cons m rest ih =>
    obtain ⟨f, v⟩ := m
    rw [insert]
    split
    · rename_i hf
      rw [erase_cons, erase_cons, if_pos rfl, if_pos hf.symm]
    · split
      · rw [erase_cons, if_pos rfl]
      · rw [erase_cons, erase_cons, ih]

/-- An inserted field passes over the fields before it in order, so one of them can be erased before
or after. -/
theorem erase_insert_of_lt (h : name < field) (value : Json) (r : Record) :
    (insert field value r).erase name = insert field value (r.erase name) := by
  have hne : field ≠ name := (String.ne_of_lt h).symm
  induction r with
  | nil => simp [insert, erase, hne]
  | cons m rest ih =>
    obtain ⟨f, v⟩ := m
    by_cases hf : f = name
    · rw [insert, if_neg (hf ▸ hne), if_neg (hf ▸ String.lt_asymm h), erase_cons, erase_cons,
        if_pos hf, if_pos hf, ih]
    · rw [insert, erase_cons f, if_neg hf, insert]
      split
      · rw [erase_cons, if_neg hne]
      · split
        · rw [erase_cons, if_neg hne, erase_cons, if_neg hf]
        · rw [erase_cons, if_neg hf, ih]

end Erasing

theorem mem_of_get?_insertAll {r fields : Record} {key : String} {v : Json}
    (h : (r.insertAll fields).get? key = some v) : (key, v) ∈ fields ∨ r.get? key = some v := by
  induction fields generalizing r with
  | nil => exact .inr h
  | cons m fields ih =>
    rcases ih h with hmem | hset
    · exact .inl (List.mem_cons_of_mem m hmem)
    · rw [get?_insert] at hset
      split at hset
      · rename_i hkey
        obtain rfl := Option.some.inj hset
        exact .inl (by simp [hkey])
      · exact .inr hset

theorem Sorted.cons_cons {m n : String × Json} {rest : Record} (h : m.1 < n.1)
    (hrest : Sorted (n :: rest)) : Sorted (m :: n :: rest) := by
  refine .cons ?_ hrest
  intro k hk
  rcases List.mem_cons.mp hk with rfl | hk
  · exact h
  · exact String.lt_trans h (List.rel_of_pairwise_cons hrest hk)

theorem Sorted.singleton (m : String × Json) : Sorted [m] := List.pairwise_singleton _ m

section Order

variable {r : Record}

theorem fst_of_mem_insert {field : String} {value : Json} {m : String × Json}
    (h : m ∈ insert field value r) : m.1 = field ∨ m ∈ r := by
  induction r with
  | nil => exact .inl (by rw [List.mem_singleton.mp h])
  | cons n rest ih =>
    obtain ⟨f, v⟩ := n
    rw [insert] at h
    split at h
    · rcases List.mem_cons.mp h with rfl | h
      · exact .inl rfl
      · exact .inr (by simp [h])
    · split at h
      · rcases List.mem_cons.mp h with rfl | h
        · exact .inl rfl
        · exact .inr h
      · rcases List.mem_cons.mp h with rfl | h
        · exact .inr (by simp)
        · exact (ih h).imp_right fun hrest => by simp [hrest]

theorem Sorted.insert (h : r.Sorted) (field : String) (value : Json) :
    (insert field value r).Sorted := by
  induction r with
  | nil => exact .singleton _
  | cons n rest ih =>
    obtain ⟨f, v⟩ := n
    obtain ⟨hfirst, hrest⟩ := List.pairwise_cons.mp h
    rw [Record.insert]
    split
    · rename_i heq
      subst heq
      exact .cons hfirst hrest
    · rename_i hne
      split
      · rename_i hlt
        exact .cons_cons hlt h
      · rename_i hge
        have hbelow : f < field :=
          Std.lt_of_le_of_ne (String.not_lt.mp hge) (Ne.symm hne)
        refine .cons (fun m hm => ?_) (ih hrest)
        rcases fst_of_mem_insert hm with heq | hmem
        · rwa [heq]
        · exact hfirst m hmem

theorem Sorted.insertAll (h : r.Sorted) (fields : Record) : (r.insertAll fields).Sorted := by
  induction fields generalizing r with
  | nil => exact h
  | cons m fields ih => exact ih (h.insert m.1 m.2)

theorem Sorted.erase (h : r.Sorted) (field : String) : (r.erase field).Sorted :=
  h.filter _

theorem get?_insertAll {fields : Record} (h : fields.Sorted) (r : Record) (key : String) :
    (r.insertAll fields).get? key = (fields.get? key).or (r.get? key) := by
  induction fields generalizing r with
  | nil => rfl
  | cons m fields ih =>
    obtain ⟨f, v⟩ := m
    obtain ⟨hfirst, hrest⟩ := List.pairwise_cons.mp h
    have hstep : r.insertAll ((f, v) :: fields) = (Record.insert f v r).insertAll fields := rfl
    rw [hstep, ih hrest, get?_insert, get?_cons]
    by_cases hk : key = f
    · -- The name is behind all that is left, so nothing sets the field again.
      have habsent : get? fields key = none := by
        rw [get?, List.lookup_eq_none_iff]
        intro n hn
        rw [hk]
        exact bne_iff_ne.mpr (String.ne_of_lt (hfirst n hn))
      rw [habsent, if_pos hk, if_pos hk]
      rfl
    · rw [if_neg hk, if_neg hk]

end Order

theorem insert_last {r : Record} {field : String} (value : Json) (hr : ∀ m ∈ r, m.1 < field) :
    insert field value r = r ++ [(field, value)] := by
  induction r with
  | nil => rfl
  | cons m rest ih =>
    obtain ⟨f, v⟩ := m
    have hf : f < field := hr (f, v) (by simp)
    rw [insert, if_neg (String.ne_of_lt hf).symm, if_neg (String.lt_asymm hf),
      ih fun m hm => hr m (by simp [hm]), List.cons_append]

theorem insertAll_last {r fields : Record} (h : Sorted (r ++ fields)) :
    r.insertAll fields = r ++ fields := by
  induction fields generalizing r with
  | nil => simp [insertAll]
  | cons m fields ih =>
    have hlast : ∀ m' ∈ r, m'.1 < m.1 := by
      intro m' hm'
      exact (List.pairwise_append.mp h).2.2 m' hm' m (by simp)
    have hstep : r.insertAll (m :: fields) = (insert m.1 m.2 r).insertAll fields := rfl
    have happend : r ++ [m] ++ fields = r ++ m :: fields := by simp
    rw [hstep, insert_last m.2 hlast, ih (by rwa [happend]), happend]

theorem ofList_of_sorted {r : Record} (h : Sorted r) : ofList r = r :=
  insertAll_last (r := []) h

section Distinct

variable {r fields : Record} {field : String}

theorem insert_perm (value : Json) (h : field ∉ r.map Prod.fst) :
    (insert field value r).Perm ((field, value) :: r) := by
  induction r with
  | nil => exact .refl _
  | cons m rest ih =>
    obtain ⟨f, v⟩ := m
    simp only [List.map_cons, List.mem_cons, not_or] at h
    rw [insert, if_neg h.1]
    split
    · exact .refl _
    · exact ((ih h.2).cons (f, v)).trans (.swap _ _ _)

theorem insertAll_perm (h : ((r ++ fields).map Prod.fst).Nodup) :
    (r.insertAll fields).Perm (r ++ fields) := by
  induction fields generalizing r with
  | nil => simp [insertAll]
  | cons m fields ih =>
    have hstep : r.insertAll (m :: fields) = (insert m.1 m.2 r).insertAll fields := rfl
    have hmoved : (r ++ m :: fields).Perm (m :: (r ++ fields)) := List.perm_middle
    have hkeys : (m.1 :: (r ++ fields).map Prod.fst).Nodup := (hmoved.map Prod.fst).nodup h
    have hnew : m.1 ∉ r.map Prod.fst := by
      intro hm
      apply (List.nodup_cons.mp hkeys).1
      simp [hm]
    have hinsert : (insert m.1 m.2 r ++ fields).Perm (m :: (r ++ fields)) :=
      (insert_perm m.2 hnew).append_right fields
    rw [hstep]
    exact (ih ((hinsert.map Prod.fst).nodup_iff.mpr hkeys)).trans (hinsert.trans hmoved.symm)

/-- Fields with different names make a record of just these fields. -/
theorem ofList_perm (h : (fields.map Prod.fst).Nodup) : (ofList fields).Perm fields :=
  insertAll_perm (r := []) h

end Distinct

end Docket.Record
