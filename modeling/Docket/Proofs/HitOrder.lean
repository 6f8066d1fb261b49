import Docket.Proofs.Record
import Docket.Proofs.Results

/-!
Sorting hits by one key. Where the values under the key are ordered transitively, either direction
keeps all hits, puts them in order and leaves ties as they came, so the two directions mirror each
other except among ties. The records made from sorted hits are in order as well, as long as a hit
that carries both a whole record and a projection shows the same value in both.
-/

set_option autoImplicit false
set_option relaxedAutoImplicit false

namespace Docket

def Json.Single : Json → Prop
  | .array items => items.length = 1
  | _ => True

def Record.compareBy (k : SortKey) (r s : Record) : Ordering :=
  k.order.apply (((r.get? k.field).getD .null).compare ((s.get? k.field).getD .null))

namespace Hit

section Ordering

variable {field : String} {hits : List Hit}
  (htrans : TransitiveOn Json.compare (· ∈ hits.map fun h => h.sortValue field))

include htrans

private theorem sortBy_stablySorted (order : SortOrder) :
    StablySorted (compareBy ⟨field, order⟩) hits (sortBy hits ⟨field, order⟩) :=
  stableSort_stablySorted hits (compareBy_totalPreorderOn ⟨field, order⟩ htrans)

private theorem sortBy_sortBy (order : SortOrder) :
    sortBy (sortBy hits ⟨field, order⟩) ⟨field, order⟩ = sortBy hits ⟨field, order⟩ := by
  have hsorted := sortBy_stablySorted htrans order
  exact stableSort_of_ascending
    ((compareBy_totalPreorderOn ⟨field, order⟩ htrans).mono fun _ => hsorted.mem_iff.mp)
    hsorted.ascending

private theorem sortBy_desc :
    sortBy hits ⟨field, .desc⟩ = (sortBy hits.reverse ⟨field, .asc⟩).reverse := by
  have hreversed :
      TransitiveOn Json.compare (· ∈ hits.reverse.map fun h => h.sortValue field) := by
    simpa using htrans
  have hmirror := (sortBy_stablySorted hreversed .asc).reverse
    (compareBy_totalPreorderOn ⟨field, .asc⟩ hreversed)
  rw [List.reverse_reverse] at hmirror
  exact (sortBy_stablySorted htrans .desc).unique
    (compareBy_totalPreorderOn ⟨field, .desc⟩ htrans) hmirror

end Ordering

/-- In either direction sorting keeps all hits, puts them in order with ties as they came, and does
nothing to what it has sorted. Two hits that differ under the key stand the other way round in the
other direction, and two that tie stand in both as they came. -/
theorem sortBy_orders_hits (field : String) (hits : List Hit)
    (htrans : TransitiveOn Json.compare (· ∈ hits.map fun h => h.sortValue field)) :
    (∀ order,
      StablySorted (compareBy ⟨field, order⟩) hits (sortBy hits ⟨field, order⟩) ∧
      sortBy (sortBy hits ⟨field, order⟩) ⟨field, order⟩ = sortBy hits ⟨field, order⟩) ∧
    sortBy hits ⟨field, .desc⟩ = (sortBy hits.reverse ⟨field, .asc⟩).reverse ∧
    ∀ a ∈ hits, ∀ b ∈ hits,
      ((a.sortValue field).compare (b.sortValue field) ≠ .eq →
        ([a, b].Sublist (sortBy hits ⟨field, .desc⟩) ↔
          [b, a].Sublist (sortBy hits ⟨field, .asc⟩))) ∧
      ((a.sortValue field).compare (b.sortValue field) = .eq →
        ∀ order, [a, b].Sublist (sortBy hits ⟨field, order⟩) ↔ [a, b].Sublist hits) := by
  refine ⟨fun order => ⟨sortBy_stablySorted htrans order, sortBy_sortBy htrans order⟩,
    sortBy_desc htrans, fun a ha b hb => ?_⟩
  have hbefore : ∀ order {x y : Hit}, x ∈ hits → y ∈ hits →
      ([x, y].Sublist (sortBy hits ⟨field, order⟩) ↔ compareBy ⟨field, order⟩ x y = .lt ∨
        compareBy ⟨field, order⟩ x y = .eq ∧ [x, y].Sublist hits) := fun order _ _ hx hy =>
    (sortBy_stablySorted htrans order).before_iff
      (compareBy_totalPreorderOn ⟨field, order⟩ htrans) hx hy
  have hswap := Json.compare_swap (a.sortValue field) (b.sortValue field)
  constructor
  · intro hne
    rw [hbefore .desc ha hb, hbefore .asc hb ha]
    simp [compareBy, SortOrder.apply, hswap, hne]
  · intro heq order
    rw [hbefore order ha hb]
    cases order <;> simp [compareBy, SortOrder.apply, heq]

def hostHits : List Hit :=
  [ofSource [("name", .string "h2"), ("state", .string "up")],
    ofFields [("name", .array [.string "h1"])],
    ofSource [("state", .string "up")],
    ofFields [("name", .array [.string "h2", .string "alias"])]]

private theorem hostHits_transitive :
    TransitiveOn Json.compare (· ∈ hostHits.map fun h => h.sortValue "name") := by
  refine Json.transitiveOn_of_numberless ?_
  simp only [hostHits, List.map_cons, List.map_nil, List.forall_mem_cons, List.not_mem_nil,
    false_implies, implies_true, and_true]
  exact ⟨.string _, .string _, .null, .string _⟩

theorem sortBy_orders_hits_hosts :
    StablySorted (compareBy ⟨"name", .desc⟩) hostHits (sortBy hostHits ⟨"name", .desc⟩) ∧
      ∀ order, [hostHits[0], hostHits[3]].Sublist (sortBy hostHits ⟨"name", order⟩) := by
  obtain ⟨hsorted, -, hpairs⟩ := sortBy_orders_hits "name" hostHits hostHits_transitive
  have hties := (hpairs hostHits[0] (by simp) hostHits[3] (by simp)).2 (by decide)
  exact ⟨(hsorted .desc).1, fun order => (hties order).mpr (by decide)⟩

section Records

variable {key : String}

/-- If a hit carries both a whole record and a projection, they show the same value under a key. -/
def PartsAgree (h : Hit) (key : String) : Prop :=
  ∀ r ∈ h.source, ∀ s ∈ h.fields, (r.get? key).getD .null = ((s.get? key).map unwrap).getD .null

theorem get?_unwrapped (r : Record) (key : String) :
    Record.get? (r.map fun m => (m.1, unwrap m.2)) key = (r.get? key).map unwrap := by
  induction r with
  | nil => rfl
  | cons m r ih =>
    rw [List.map_cons, Record.get?_cons, Record.get?_cons, ih]
    split <;> rfl

private theorem firstOf_of_single {v : Json} (hv : v.Single) : firstOf v = unwrap v := by
  match v, hv with
  | .array [_], _ => rfl
  | .null, _ | .bool _, _ | .number _, _ | .string _, _ | .object _, _ => rfl

private theorem sortValue_eq_record {h : Hit} (hsingle : ∀ r ∈ h.fields, ∀ v ∈ r.get? key, v.Single)
    (hparts : h.PartsAgree key) : h.sortValue key = (h.normalize.get? key).getD .null := by
  obtain ⟨_, _, _, source, fields⟩ := h
  cases fields with
  | none => cases source <;> rfl
  | some s =>
    rw [normalize, get?_unwrapped]
    cases source with
    | some r => exact hparts r rfl s rfl
    | none =>
      have hfirst : (s.get? key).map firstOf = (s.get? key).map unwrap :=
        Option.map_congr fun v hv => firstOf_of_single (hsingle s rfl v hv)
      simp only [sortValue, Option.bind_some, hfirst]

/-- The records of sorted hits are the records of the hits, stably sorted by the key: no projected
value is a list of none or several, and hits that carry two parts show the same value in both. -/
theorem sortBy_orders_records (k : SortKey) (hits : List Hit)
    (hsingle : ∀ h ∈ hits, ∀ r ∈ h.fields, ∀ v ∈ r.get? k.field, v.Single)
    (hparts : ∀ h ∈ hits, h.PartsAgree k.field)
    (htrans : TransitiveOn Json.compare (· ∈ hits.map fun h => h.sortValue k.field)) :
    StablySorted (Record.compareBy k) (hits.map normalize) ((sortBy hits k).map normalize) := by
  have hread : ∀ h ∈ hits, h.sortValue k.field = (h.normalize.get? k.field).getD .null :=
    fun h hh => sortValue_eq_record (hsingle h hh) (hparts h hh)
  have hrecords : (sortBy hits k).map normalize =
      stableSort (Record.compareBy k) (hits.map normalize) :=
    (stableSort_map _ normalize hits fun a ha b hb => by
      rw [Record.compareBy, compareBy, hread a ha, hread b hb]).symm
  have hvalues : hits.map (fun h => h.sortValue k.field) =
      (hits.map normalize).map fun r => (r.get? k.field).getD .null := by
    rw [List.map_map]
    exact List.map_congr_left hread
  rw [hvalues] at htrans
  rw [hrecords]
  exact stableSort_stablySorted _ <|
    ((SortOrder.apply_totalPreorderOn htrans k.order).comap
      fun r : Record => (r.get? k.field).getD .null).mono fun _ hr => List.mem_map_of_mem hr

def guestHits : List Hit :=
  [{ ofFields [("name", .array [.string "h2"])] with source := some [("name", .string "h2")] },
    ofSource [("name", .string "h1"), ("state", .string "up")], ofFields []]

theorem sortBy_orders_records_guests :
    (∀ h ∈ guestHits, h.PartsAgree "name") ∧
      StablySorted (Record.compareBy ⟨"name", .desc⟩) (guestHits.map normalize)
        ((sortBy guestHits ⟨"name", .desc⟩).map normalize) := by
  have hsingle : ∀ h ∈ guestHits, ∀ r ∈ h.fields, ∀ v ∈ r.get? "name", v.Single := by
    simp [guestHits, ofFields, ofSource, empty, Record.get?, Json.Single]
  have hparts : ∀ h ∈ guestHits, h.PartsAgree "name" := by
    simp [guestHits, ofFields, ofSource, empty, PartsAgree, Record.get?, unwrap]
  have htrans : TransitiveOn Json.compare (· ∈ guestHits.map fun h => h.sortValue "name") := by
    refine Json.transitiveOn_of_numberless ?_
    simp only [guestHits, List.map_cons, List.map_nil, List.forall_mem_cons, List.not_mem_nil,
      false_implies, implies_true, and_true]
    exact ⟨.string _, .string _, .null⟩
  exact ⟨hparts, sortBy_orders_records ⟨"name", .desc⟩ guestHits hsingle hparts htrans⟩

def crossedHits : List Hit :=
  [{ ofFields [("name", .array [.string "h2"])] with source := some [("name", .string "h1")] },
    { ofFields [("name", .array [.string "h1"])] with source := some [("name", .string "h2")] }]

/-- Hits are sorted by the whole record and shown as the projection, so parts that differ can leave
the records out of order. -/
theorem parts_that_differ_disorder_records :
    ¬ ∀ (k : SortKey) (hits : List Hit),
      (∀ h ∈ hits, ∀ r, r ∈ h.source ∨ r ∈ h.fields → ∀ v ∈ r.get? k.field, v.Single) →
      TransitiveOn Json.compare (· ∈ hits.map fun h => h.sortValue k.field) →
      ((sortBy hits k).map normalize).Pairwise fun r s => Record.compareBy k r s ≠ .gt := by
  intro hclaim
  have hsingle : ∀ h ∈ crossedHits, ∀ r, r ∈ h.source ∨ r ∈ h.fields →
      ∀ v ∈ r.get? "name", v.Single := by
    simp [crossedHits, ofFields, empty, or_imp, forall_and, Record.get?, Json.Single]
  have htrans : TransitiveOn Json.compare (· ∈ crossedHits.map fun h => h.sortValue "name") := by
    have hvalues : (crossedHits.map fun h => h.sortValue "name") = [.string "h1", .string "h2"] :=
      rfl
    apply Json.transitiveOn_of_numberless
    simp [hvalues, Json.NumbersIn.string]
  have hordered := hclaim ⟨"name", .asc⟩ crossedHits hsingle htrans
  exact absurd hordered (by decide)

end Records

end Hit

end Docket
