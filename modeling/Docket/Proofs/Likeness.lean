import Docket.Proofs.Writing
import Mathlib.Data.List.Forall2
import Mathlib.Data.Option.Defs

/-!
Stores that are alike but for generated ids and stamped times. Which ids stand for each other, and
which times, is a parameter. Ids correspond one to one, so alike documents are written to alike
places and alike stores stay alike.
-/

set_option autoImplicit false
set_option relaxedAutoImplicit false

namespace Docket

open Record (timeRecordedField)

/-- Which ids and which times stand for each other in two runs. -/
structure Likeness where
  ids : String → String → Prop
  times : Binary64 → Binary64 → Prop
  one_to_one : Relator.BiUnique ids

/-- Fields that are the same, or stamps at times that stand for each other. -/
inductive Likeness.Field (L : Likeness) : String × Json → String × Json → Prop
  | same (f : String × Json) : Field L f f
  | stamp {t t' : Binary64} (h : L.times t t') :
    Field L (timeRecordedField, .number (.double t)) (timeRecordedField, .number (.double t'))

namespace Likeness

def Fields (L : Likeness) (r r' : Record) : Prop := List.Forall₂ L.Field r r'

structure Action (L : Likeness) (a b : BulkAction) : Prop where
  index : a.index = b.index
  docType : a.docType = b.docType
  id : a.id = b.id
  source : L.Fields a.source b.source

structure Document (L : Likeness) (d e : StoredDocument) : Prop where
  id : L.ids d.id e.id
  docType : d.docType = e.docType
  source : L.Fields d.source e.source

def Indices (L : Likeness) (s t : Store) : Prop :=
  ∀ index, Option.Rel (List.Forall₂ L.Document) (s.documents? index) (t.documents? index)

/-- States that are alike in all that is not counted. -/
structure State (L : Likeness) (m n : InMemory) : Prop where
  store : L.Indices m.store n.store
  failure : m.failure = n.failure
  made : m.made = n.made

variable {L : Likeness}

section Fields

variable {r r' : Record} {name field : String} {v w : Json}

private theorem Field.name_eq {f g : String × Json} (h : L.Field f g) : f.1 = g.1 := by
  cases h <;> rfl

theorem Field.eq_of_name (h : L.Field (name, v) (name, w)) (hname : name ≠ timeRecordedField) :
    v = w := by
  cases h with
  | same => rfl
  | stamp => exact absurd rfl hname

private theorem Fields.refl (L : Likeness) (r : Record) : L.Fields r r :=
  List.forall₂_same.mpr fun f _ => .same f

private theorem Fields.get? (h : L.Fields r r') (hfield : field ≠ timeRecordedField) :
    r.get? field = r'.get? field := by
  induction h with
  | nil => rfl
  | @cons f g r r' hfg _ ih =>
    obtain ⟨name, v⟩ := f
    obtain ⟨name', w⟩ := g
    obtain rfl : name = name' := hfg.name_eq
    simp only [Record.get?, List.lookup_cons] at ih ⊢
    by_cases hname : field = name
    · subst hname
      rw [hfg.eq_of_name hfield, ih]
    · rw [beq_false_of_ne hname, ih]

private theorem Fields.has (h : L.Fields r r') (field : String) : r.has field = r'.has field := by
  induction h with
  | nil => rfl
  | @cons f g r r' hfg _ ih =>
    obtain ⟨name, v⟩ := f
    obtain ⟨name', w⟩ := g
    obtain rfl : name = name' := hfg.name_eq
    simp only [Record.has, Record.get?, List.lookup_cons] at ih ⊢
    cases field == name with
    | true => rfl
    | false => exact ih

private theorem Fields.insert (h : L.Fields r r') (hvw : L.Field (name, v) (name, w)) :
    L.Fields (Record.insert name v r) (Record.insert name w r') := by
  induction h with
  | nil => exact .cons hvw .nil
  | @cons f g r r' hfg hrest ih =>
    obtain ⟨first, x⟩ := f
    obtain ⟨first', y⟩ := g
    obtain rfl : first = first' := hfg.name_eq
    rw [Record.insert, Record.insert]
    split
    · exact .cons hvw hrest
    · split
      · exact .cons hvw (.cons hfg hrest)
      · exact .cons hfg ih

private theorem Fields.erase (h : L.Fields r r') (field : String) :
    L.Fields (r.erase field) (r'.erase field) := by
  refine List.rel_filter ?_ h
  intro f g hfg
  simp only [hfg.name_eq]

private theorem Fields.stamp (h : L.Fields r r') (keep : Bool) {t t' : Binary64}
    (ht : L.times t t') :
    L.Fields (r.stamp keep t) (r'.stamp keep t') := by
  rw [Record.stamp, Record.stamp, h.has]
  split
  · exact h
  · exact h.insert (.stamp ht)

private theorem Fields.takeText (h : L.Fields r r') (hfield : field ≠ timeRecordedField) :
    (r.takeText field).1 = (r'.takeText field).1 ∧
      L.Fields (r.takeText field).2 (r'.takeText field).2 := by
  constructor
  · rw [Record.takeText, Record.takeText, h.get? hfield]
  · exact h.erase field

end Fields

section Actions

variable (c : ClientConfig) (o : PostOptions) {now now' : Nat → Binary64}

private theorem Action.refl (L : Likeness) (a : BulkAction) : L.Action a a :=
    ⟨rfl, rfl, rfl, .refl L _⟩

private theorem Fields.ofRecord {r r' : Record} (h : L.Fields r r') (index : String) :
    L.Action (.ofRecord r index) (.ofRecord r' index) := by
  have hnames : Record.indexField ≠ timeRecordedField ∧ Record.typeField ≠ timeRecordedField ∧
      Record.idField ≠ timeRecordedField := by decide
  obtain ⟨hindex, h⟩ := h.takeText hnames.1
  obtain ⟨htype, h⟩ := h.takeText hnames.2.1
  obtain ⟨hid, h⟩ := h.takeText hnames.2.2
  exact ⟨congrArg (·.getD index) hindex, congrArg (·.getD Record.defaultDocType) htype, hid, h⟩

private theorem action_alike (r : Record) {t t' : Binary64} (ht : L.times t t') :
    L.Action (Post.action c o r t) (Post.action c o r t') := by
  have hmerged := Fields.refl L (r.merge o.extra)
  unfold Post.action
  split
  · exact ((hmerged.stamp true ht).insert (.same _)).ofRecord c.index
  · exact (hmerged.insert (.same _)).ofRecord c.index

private theorem actions_alike (rs : List Record) (hnow : ∀ i, L.times (now i) (now' i)) :
    List.Forall₂ L.Action (Post.actions c o now rs) (Post.actions c o now' rs) := by
  induction rs generalizing now now' with
  | nil => exact .nil
  | cons r rs ih => exact .cons (action_alike c o r (hnow 0)) (ih fun i => hnow (i + 1))

theorem document_alike (docType : String) (r : Record) {t t' : Binary64} (ht : L.times t t') :
    L.Action (Post.document c docType r o t) (Post.document c docType r o t') := by
  refine ⟨rfl, rfl, rfl, ?_⟩
  simp only [Post.document, Post.prepare]
  split
  · exact (Fields.refl L _).stamp false ht
  · exact .refl L _

private theorem requests_alike (step : InMemoryStep) (hnow : ∀ i, L.times (now i) (now' i)) :
    List.Forall₂ L.Action (step.requests c now) (step.requests c now') := by
  have hsame : ∀ actions, List.Forall₂ L.Action actions actions :=
    fun actions => List.forall₂_same.mpr fun a _ => .refl L a
  cases step with
  | client step =>
    cases step with
    | post docType r o =>
      simp only [InMemoryStep.requests]
      split
      · exact .nil
      · exact .cons (document_alike c o docType r (hnow 0)) .nil
    | bulkPost rs o => exact actions_alike c o rs hnow
    | _ => exact hsame _
  | _ => exact hsame _

end Actions

section States

variable {s t : Store} {m n : InMemory} {d e : StoredDocument}

private theorem Document.putInto (hde : L.Document d e) {docs docs' : List StoredDocument}
    (h : List.Forall₂ L.Document docs docs') :
    List.Forall₂ L.Document (d.putInto docs) (e.putInto docs') := by
  induction h with
  | nil => exact .cons hde .nil
  | @cons f g docs docs' hfg hrest ih =>
    -- Both writes stop at the same place, or both go on.
    have hplace : f.id = d.id ↔ g.id = e.id := Relator.rel_eq L.one_to_one hfg.id hde.id
    rw [StoredDocument.putInto, StoredDocument.putInto]
    by_cases hid : f.id = d.id
    · rw [if_pos hid, if_pos (hplace.mp hid)]
      exact .cons hde hrest
    · rw [if_neg hid, if_neg (mt hplace.mpr hid)]
      exact .cons hfg ih

private theorem rel_getD {α : Type} {R : α → α → Prop} {x y : Option α} {a : α}
    (h : Option.Rel R x y) (ha : R a a) : R (x.getD a) (y.getD a) := by
  cases h with
  | some h => exact h
  | none => exact ha

private theorem Indices.documents (h : L.Indices s t) (index : String) :
    List.Forall₂ L.Document ((s.documents? index).getD []) ((t.documents? index).getD []) :=
  rel_getD (h index) .nil

private theorem Indices.put (h : L.Indices s t) (index : String) (hde : L.Document d e) :
    L.Indices (s.put index d) (t.put index e) := by
  intro other
  rw [Store.documents?_put, Store.documents?_put]
  split
  · exact .some (hde.putInto (h.documents index))
  · exact h other

private theorem Indices.create (h : L.Indices s t) (index : String) :
    L.Indices (s.create index) (t.create index) := by
  intro other
  rw [Store.documents?_create, Store.documents?_create]
  split
  · exact .some (h.documents index)
  · exact h other

theorem State.congr {m' n' : InMemory} (h : L.State m n) (hm : m'.SameContents m)
    (hn : n'.SameContents n) : L.State m' n' where
  store := by
    rw [hm.store, hn.store]
    exact h.store
  failure := by rw [hm.failure, hn.failure, h.failure]
  made := by rw [hm.made, hn.made, h.made]

variable {freshId freshId' : Nat → String} {a b : BulkAction}

private theorem State.write (h : L.State m n) (hmade : ∀ i, L.ids (freshId i) (freshId' i))
    (hab : L.Action a b) (hgiven : ∀ id ∈ a.id, L.ids id id) :
    L.State (m.write freshId a.index a.docType a.id a.source)
      (n.write freshId' b.index b.docType b.id b.source) := by
  obtain ⟨index, docType, id, source⟩ := a
  obtain ⟨index', docType', id', source'⟩ := b
  obtain ⟨rfl, rfl, rfl, hsource⟩ := hab
  cases id with
  | some id => exact ⟨h.store.put index ⟨hgiven id rfl, rfl, hsource⟩, h.failure, h.made⟩
  | none =>
    have hid : L.ids (freshId m.made) (freshId' n.made) := by
      rw [h.made]
      exact hmade n.made
    exact ⟨h.store.put index ⟨hid, rfl, hsource⟩, h.failure, congrArg (· + 1) h.made⟩

private theorem State.writeAll (h : L.State m n) (hmade : ∀ i, L.ids (freshId i) (freshId' i))
    {actions actions' : List BulkAction} (hactions : List.Forall₂ L.Action actions actions')
    (hgiven : ∀ a ∈ actions, ∀ id ∈ a.id, L.ids id id) :
    L.State (m.writeAll freshId actions) (n.writeAll freshId' actions') := by
  induction hactions generalizing m n with
  | nil => exact h
  | @cons a b actions actions' hab _ ih =>
    obtain ⟨hgiven, hrest⟩ := List.forall_mem_cons.mp hgiven
    exact ih (h.write hmade hab hgiven) hrest

private theorem State.afterWrites (h : L.State m n) (hmade : ∀ i, L.ids (freshId i) (freshId' i))
    {actions actions' : List BulkAction} (hactions : List.Forall₂ L.Action actions actions')
    (hgiven : ∀ a ∈ actions, ∀ id ∈ a.id, L.ids id id) :
    L.State (m.afterWrites freshId actions) (n.afterWrites freshId' actions') := by
  rw [InMemory.afterWrites, InMemory.afterWrites, h.failure]
  split
  · exact h
  · exact h.writeAll hmade hactions hgiven

theorem State.effect (h : L.State m n) (hmade : ∀ i, L.ids (freshId i) (freshId' i))
    {c : ClientConfig} {now now' : Nat → Binary64} {step : InMemoryStep}
    (hnow : ∀ i, L.times (now i) (now' i))
    (hgiven : ∀ a ∈ step.requests c now, ∀ id ∈ a.id, L.ids id id) :
    L.State (m.effect freshId c now step) (n.effect freshId' c now' step) := by
  have hwrites := h.afterWrites hmade (requests_alike c step hnow) hgiven
  cases step with
  | createIndex index => exact ⟨h.store.create index, h.failure, h.made⟩
  | failWith detail => exact ⟨h.store, rfl, h.made⟩
  | _ => exact hwrites

end States

end Likeness

end Docket
