import Docket.Proofs.Results

/-!
Sorting stored documents by several keys. The first key that tells two documents apart decides which
one stands first, and documents that no key tells apart stay as they came. It is the same to sort by
one key at a time, from the last key to the first.
-/

set_option autoImplicit false
set_option relaxedAutoImplicit false

namespace Docket.StoredDocument

/-- The first key that tells two documents apart puts `a` before `b`, in its own direction. -/
inductive Precedes (a b : StoredDocument) : List SortKey → Prop
  | decided {k : SortKey} {rest : List SortKey} :
      compareBy k a b = .lt → Precedes a b (k :: rest)
  | tied {k : SortKey} {rest : List SortKey} :
      compareBy k a b = .eq → Precedes a b rest → Precedes a b (k :: rest)

section Comparing

variable (a b : StoredDocument) (keys : List SortKey)

private theorem compareByAll_eq_lt_iff : compareByAll a b keys = .lt ↔ Precedes a b keys := by
  induction keys with
  | nil =>
    simp only [compareByAll, reduceCtorEq, false_iff]
    rintro ⟨⟩
  | cons k rest ih =>
    rw [compareByAll, Ordering.then_eq_lt, ih]
    constructor
    · rintro (hlt | ⟨heq, hrest⟩)
      · exact .decided hlt
      · exact .tied heq hrest
    · rintro (hlt | ⟨heq, hrest⟩)
      · exact .inl hlt
      · exact .inr ⟨heq, hrest⟩

private theorem compareByAll_eq_eq_iff :
    compareByAll a b keys = .eq ↔ ∀ k ∈ keys, compareBy k a b = .eq := by
  induction keys with
  | nil => simp [compareByAll]
  | cons k rest ih => rw [compareByAll, Ordering.then_eq_eq, ih, List.forall_mem_cons]

end Comparing

section Sorting

variable {keys : List SortKey} {docs : List StoredDocument}

private theorem sortByAll_singleton (k : SortKey) (docs : List StoredDocument) :
    sortByAll [k] docs = stableSort (compareBy k) docs :=
  stableSort_congr _ docs fun a _ b _ => by simp [compareByAll]

private theorem foldr_sortBy_stablySorted
    (hkeys : ∀ k ∈ keys, TotalPreorderOn (compareBy k) (· ∈ docs)) :
    StablySorted (fun a b => compareByAll a b keys) docs
      (keys.foldr (fun k found => sortByAll [k] found) docs) := by
  induction keys with
  | nil => exact .of_ascending (List.pairwise_of_forall fun _ _ => by simp [compareByAll])
  | cons k rest ih =>
    rw [List.forall_mem_cons] at hkeys
    have hrest := ih hkeys.2
    have hfirst : TotalPreorderOn (compareBy k)
        (· ∈ rest.foldr (fun k found => sortByAll [k] found) docs) :=
      hkeys.1.mono fun _ => hrest.mem_iff.mp
    rw [List.foldr_cons, sortByAll_singleton]
    exact hrest.lexicographic hkeys.1 (stableSort_stablySorted _ hfirst)

end Sorting

/-- The documents found for a body that asks for several keys are the ones that its clauses select,
and one stands before another exactly if the first key that tells them apart puts it there, or if no
key does and it came first. They are the same as sorted by one key at a time, the first one last. -/
theorem sortByAll_lexicographic (keys : List SortKey) (docs : List StoredDocument)
    (htrans : ∀ k ∈ keys,
      TransitiveOn Json.compare (· ∈ docs.map fun d => d.sortValue k.field)) :
    (∀ (s : Store) (index : String) (body : Json) (stored : List StoredDocument)
      (clauses : List Json), s.documents? index = some stored →
      SearchBody.clauses body = .ok clauses → Clause.select clauses stored = .ok docs →
      SearchBody.sortKeys body = keys → s.matching index body = .ok (sortByAll keys docs)) ∧
    (sortByAll keys docs).Perm docs ∧
    (∀ a ∈ docs, ∀ b ∈ docs, [a, b].Sublist (sortByAll keys docs) ↔
      Precedes a b keys ∨ (∀ k ∈ keys, compareBy k a b = .eq) ∧ [a, b].Sublist docs) ∧
    sortByAll keys docs = keys.foldr (fun k found => sortByAll [k] found) docs := by
  have hkeys : ∀ k ∈ keys, TotalPreorderOn (compareBy k) (· ∈ docs) :=
    fun k hk => compareBy_totalPreorderOn (htrans k hk)
  have hall := compareByAll_totalPreorderOn hkeys
  have hsorted : StablySorted (fun a b => compareByAll a b keys) docs (sortByAll keys docs) :=
    stableSort_stablySorted docs hall
  refine ⟨?_, hsorted.perm, ?_, hsorted.unique hall (foldr_sortBy_stablySorted hkeys)⟩
  · intro s index body stored clauses hstored hclauses hselect hbody
    rw [Store.matching_of_documents hstored hclauses, hselect, hbody]
    rfl
  · intro a ha b hb
    rw [hsorted.before_iff hall ha hb, compareByAll_eq_lt_iff, compareByAll_eq_eq_iff]

def hostKeys : List SortKey := [⟨"state", .desc⟩, ⟨"port", .asc⟩, ⟨"_id", .desc⟩]

def hostKeysBody : Json :=
  .object [("sort", .array [.object [("state", .string "desc")], .string "port",
    .object [("_id", .string "desc")]])]

theorem sortByAll_lexicographic_hosts :
    Fetch.hostStore.store.matching "metadata" hostKeysBody =
        .ok (sortByAll hostKeys Fetch.hosts) ∧
      sortByAll hostKeys Fetch.hosts =
        sortByAll [⟨"state", .desc⟩] (sortByAll [⟨"port", .asc⟩]
          (sortByAll [⟨"_id", .desc⟩] Fetch.hosts)) ∧
      (sortByAll hostKeys Fetch.hosts).map StoredDocument.id = ["c", "b", "a", "d"] := by
  have htrans : ∀ k ∈ hostKeys,
      TransitiveOn Json.compare (· ∈ Fetch.hosts.map fun d => d.sortValue k.field) := by
    intro k hk
    refine Json.transitiveOn_of_numberless ?_
    simp only [hostKeys, List.mem_cons, List.not_mem_nil, or_false] at hk
    rcases hk with rfl | rfl | rfl
    · have hstates : Fetch.hosts.map (fun d => d.sortValue "state") =
          ["up", "up", "up", "down"].map .string := rfl
      simp [hstates, Json.NumbersIn.string]
    · have hports : Fetch.hosts.map (fun d => d.sortValue "port") =
          [.null, .null, .null, .null] := rfl
      simp [hports, Json.NumbersIn.null]
    · have hids : Fetch.hosts.map (fun d => d.sortValue "_id") =
          ["a", "b", "c", "d"].map .string := rfl
      simp [hids, Json.NumbersIn.string]
  obtain ⟨hmatching, -, -, hfold⟩ := sortByAll_lexicographic hostKeys Fetch.hosts htrans
  exact ⟨hmatching Fetch.hostStore.store "metadata" hostKeysBody Fetch.hosts [] rfl rfl rfl rfl,
    hfold, by decide +kernel⟩

end Docket.StoredDocument
