import Docket.Config
import Docket.Http.Calls
import Docket.Proofs.Record
import Mathlib.Data.List.Forall2
import Mathlib.Data.List.Nodup
import Mathlib.Data.Option.Defs

/-!
Reading a text directly and reading it by way of its value. Where no object repeats a key, a place
of a text and the value of what stands there show every decoder the same, so a decoder answers alike
on both. The members of an object may come in another order, and a decoder asks for them by key.
-/

set_option autoImplicit false
set_option relaxedAutoImplicit false

namespace Docket

namespace Json

open Quoted (Piece)

namespace Tree

mutual

def keysDiffer : Tree → Bool
  | .array items => itemsDiffer items
  | .object members =>
    decide (members.map fun m => Quoted.string? m.1).Nodup && membersDiffer members
  | _ => true

def itemsDiffer : List Tree → Bool
  | [] => true
  | t :: rest => keysDiffer t && itemsDiffer rest

def membersDiffer : List (List Piece × Tree) → Bool
  | [] => true
  | (_, t) :: rest => keysDiffer t && membersDiffer rest

end

end Tree

/-- A text, of whatever grammar, in which no object repeats a key. -/
def KeysDiffer (text : String) : Prop := ∀ t ∈ Tree.ofText? text, t.keysDiffer

def Shows (p : Placed) (v : Json) : Prop := ofTree? p.depth p.tree = some v ∧ p.tree.keysDiffer

def ShowsMember (m : String × Placed) (n : String × Json) : Prop := m.1 = n.1 ∧ Shows m.2 n.2

inductive ViewsAgree : View Placed → View Json → Prop
  | null : ViewsAgree .null .null
  | bool (b : Bool) : ViewsAgree (.bool b) (.bool b)
  | number (n : Number) : ViewsAgree (.number n) (.number n)
  | string (s : String) : ViewsAgree (.string s) (.string s)
  | items {ps : List Placed} {vs : List Json} :
      List.Forall₂ Shows ps vs → ViewsAgree (.items ps) (.items vs)
  | members {ps : List (String × Placed)} {written vs : List (String × Json)} :
      List.Forall₂ ShowsMember ps written → written.Perm vs → (written.map Prod.fst).Nodup →
        ViewsAgree (.members ps) (.members vs)

section Views

private theorem ofItems?_shows {depth : Nat} {items : List Tree} {vs : List Json}
    (hvs : ofItems? depth items = some vs) (hkeys : Tree.itemsDiffer items) :
    List.Forall₂ Shows (items.map fun t => ⟨depth, t⟩) vs := by
  induction items generalizing vs with
  | nil =>
    obtain rfl := Option.some.inj hvs
    exact .nil
  | cons t items ih =>
    obtain ⟨hfirst, hrest⟩ := Bool.and_eq_true_iff.mp hkeys
    rw [ofItems?] at hvs
    split at hvs
    · rename_i v values hv hvalues
      obtain rfl := Option.some.inj hvs
      exact .cons ⟨hv, hfirst⟩ (ih hvalues hrest)
    · simp at hvs

theorem ofMembers?_shows {depth : Nat} {members : List (List Piece × Tree)}
    {written : List (String × Json)} (hwritten : ofMembers? depth members = some written)
    (hkeys : Tree.membersDiffer members) :
    ∃ ps, Placed.members? depth members = some ps ∧ List.Forall₂ ShowsMember ps written ∧
      members.map (fun m => Quoted.string? m.1) = written.map fun m => some m.1 := by
  induction members generalizing written with
  | nil =>
    obtain rfl := Option.some.inj hwritten
    exact ⟨[], rfl, .nil, rfl⟩
  | cons m members ih =>
    obtain ⟨key, t⟩ := m
    obtain ⟨hfirst, hrest⟩ := Bool.and_eq_true_iff.mp hkeys
    rw [ofMembers?] at hwritten
    split at hwritten
    · rename_i k v values hk hv hvalues
      obtain rfl := Option.some.inj hwritten
      obtain ⟨ps, hps, hshows, hnames⟩ := ih hvalues hrest
      refine ⟨(k, ⟨depth, t⟩) :: ps, by simp [Placed.members?, hk, hps], ?_, by simp [hk, hnames]⟩
      exact .cons ⟨rfl, hv, hfirst⟩ hshows
    · simp at hwritten

private theorem view_shows {p : Placed} {v : Json} (h : Shows p v) :
    ∃ x y, Node.view p = some x ∧ Node.view v = some y ∧ ViewsAgree x y := by
  obtain ⟨depth, tree⟩ := p
  obtain ⟨hv, hkeys⟩ := h
  cases tree with
  | null =>
    obtain rfl := Option.some.inj hv
    exact ⟨_, _, rfl, rfl, .null⟩
  | bool b =>
    obtain rfl := Option.some.inj hv
    exact ⟨_, _, rfl, rfl, .bool b⟩
  | number l =>
    obtain ⟨n, hn, rfl⟩ := Option.map_eq_some_iff.mp hv
    exact ⟨_, _, by simp [Node.view, hn], rfl, .number n⟩
  | string ps =>
    obtain ⟨s, hs, rfl⟩ := Option.map_eq_some_iff.mp hv
    exact ⟨_, _, by simp [Node.view, hs], rfl, .string s⟩
  | array items =>
    cases depth with
    | zero => simp [ofTree?] at hv
    | succ depth =>
      obtain ⟨vs, hvs, rfl⟩ := Option.map_eq_some_iff.mp hv
      exact ⟨_, _, rfl, rfl, .items (ofItems?_shows hvs hkeys)⟩
  | object members =>
    cases depth with
    | zero => simp [ofTree?] at hv
    | succ depth =>
      obtain ⟨written, hwritten, rfl⟩ := Option.map_eq_some_iff.mp hv
      obtain ⟨hnodup, hmembers⟩ := Bool.and_eq_true_iff.mp hkeys
      obtain ⟨ps, hps, hshows, hnames⟩ := ofMembers?_shows hwritten hmembers
      have hdiffer : (written.map Prod.fst).Nodup := by
        rw [decide_eq_true_iff, hnames] at hnodup
        refine List.Nodup.of_map some ?_
        rwa [List.map_map]
      refine ⟨_, _, by simp [Node.view, hps], rfl, .members hshows ?_ hdiffer⟩
      exact (Record.ofList_perm hdiffer).symm

end Views

section Fields

variable {members : List (String × Json)} {key : String}

private theorem filter_key_cases (h : (members.map Prod.fst).Nodup) (key : String) :
    members.filter (fun m => m.1 == key) = [] ∨
      ∃ m, members.filter (fun m => m.1 == key) = [m] := by
  have hsub : (members.filter fun m => m.1 == key).Sublist members := List.filter_sublist
  have hnodup : ((members.filter fun m => m.1 == key).map Prod.fst).Nodup :=
    h.sublist (hsub.map Prod.fst)
  have hkey : ∀ m ∈ members.filter fun m => m.1 == key, m.1 = key := by
    intro m hm
    simpa using (List.mem_filter.mp hm).2
  match hfilter : members.filter fun m => m.1 == key with
  | [] => exact .inl hfilter
  | [m] => exact .inr ⟨m, hfilter⟩
  | m :: n :: rest =>
    rw [hfilter] at hnodup hkey
    have hm := hkey m (by simp)
    have hn := hkey n (by simp)
    simp [hm, hn] at hnodup

theorem field?_perm {others : List (String × Json)} (h : members.Perm others)
    (hnodup : (members.map Prod.fst).Nodup) (key : String) :
    field? key members = field? key others := by
  have hfilter := h.filter fun m => m.1 == key
  rcases filter_key_cases hnodup key with hnone | ⟨m, hone⟩
  · rw [hnone] at hfilter
    rw [field?, field?, hnone, List.nil_perm.mp hfilter]
  · rw [hone] at hfilter
    rw [field?, field?, hone, List.singleton_perm.mp hfilter]

private theorem field?_shows {ps : List (String × Placed)} (h : List.Forall₂ ShowsMember ps members)
    (hnodup : (members.map Prod.fst).Nodup) (key : String) :
    ∃ x y, field? key ps = some x ∧ field? key members = some y ∧ Option.Rel Shows x y := by
  have hfilter : List.Forall₂ ShowsMember (ps.filter fun m => m.1 == key)
      (members.filter fun m => m.1 == key) := by
    refine List.rel_filter (fun m n hmn => ?_) h
    simp [hmn.1]
  rcases filter_key_cases hnodup key with hnone | ⟨m, hone⟩
  · rw [hnone] at hfilter
    rw [field?, field?, hnone, List.forall₂_nil_right_iff.mp hfilter]
    exact ⟨none, none, rfl, rfl, .none⟩
  · rw [hone] at hfilter
    obtain ⟨p, rest, hp, hrest, heq⟩ := List.forall₂_cons_right_iff.mp hfilter
    rw [field?, field?, hone, heq, List.forall₂_nil_right_iff.mp hrest]
    exact ⟨some p.2, some m.2, rfl, rfl, .some hp.2⟩

private theorem absent_shows (n : Nat) :
    List.Forall₂ (Option.Rel Shows) (List.replicate n none) (List.replicate n none) := by
  induction n with
  | zero => exact .nil
  | succ n ih => exact .cons .none ih

private theorem fields?_shows {p : Placed} {v : Json} (h : Shows p v) (keys : List String) :
    (fields? keys p = none ∧ fields? keys v = none) ∨
      ∃ xs ys, fields? keys p = some xs ∧ fields? keys v = some ys ∧
        List.Forall₂ (Option.Rel Shows) xs ys ∧ xs.length = keys.length := by
  obtain ⟨x, y, hx, hy, hviews⟩ := view_shows h
  cases hviews with
  | null => exact .inl (by simp [fields?, hx, hy])
  | bool b => exact .inl (by simp [fields?, hx, hy])
  | number n => exact .inl (by simp [fields?, hx, hy])
  | string s => exact .inl (by simp [fields?, hx, hy])
  | @items ps vs hitems =>
    have hlength := hitems.length_eq
    by_cases hmany : ps.length ≤ keys.length
    · -- both lists are followed by as many absent fields
      have hgiven : List.Forall₂ (Option.Rel Shows) (ps.map some) (vs.map some) := by
        rw [List.forall₂_map_left_iff, List.forall₂_map_right_iff]
        exact hitems.imp fun _ _ => .some
      have hparts : List.Forall₂ (Option.Rel Shows)
          (ps.map some ++ List.replicate (keys.length - ps.length) none)
          (vs.map some ++ List.replicate (keys.length - ps.length) none) :=
        List.rel_append hgiven (absent_shows _)
      refine .inr ⟨_, _, by simp [fields?, hx, hmany], ?_, hparts, ?_⟩
      · simp [fields?, hy, ← hlength, hmany]
      · simp only [List.length_append, List.length_map, List.length_replicate]
        omega
    · exact .inl (by simp [fields?, hx, hy, ← hlength, hmany])
  | @members ps written vs hshows hperm hnodup =>
    have hmapM : ∃ xs ys, keys.mapM (fun key => field? key ps) = some xs ∧
        keys.mapM (fun key => field? key vs) = some ys ∧
        List.Forall₂ (Option.Rel Shows) xs ys ∧ xs.length = keys.length := by
      induction keys with
      | nil => exact ⟨[], [], rfl, rfl, .nil, rfl⟩
      | cons key keys ih =>
        obtain ⟨x, y, hx, hy, hxy⟩ := field?_shows hshows hnodup key
        obtain ⟨xs, ys, hxs, hys, hparts, hlength⟩ := ih
        rw [field?_perm hperm hnodup] at hy
        refine ⟨x :: xs, y :: ys, by simp [List.mapM_cons, hx, hxs],
          by simp [List.mapM_cons, hy, hys], .cons hxy hparts, by simp [hlength]⟩
    obtain ⟨xs, ys, hxs, hys, hparts, hlength⟩ := hmapM
    exact .inr ⟨xs, ys, by simpa [fields?, hx] using hxs, by simpa [fields?, hy] using hys, hparts,
      hlength⟩

end Fields

section Decoders

variable {α : Type}

/-- A decoder of places and one of values that answer the same wherever a place shows a value. -/
def ReadsAlike (f : Placed → Option α) (g : Json → Option α) : Prop :=
  ∀ ⦃p v⦄, Shows p v → f p = g v

private theorem stringOf?_alike : ReadsAlike stringOf? stringOf? := by
  intro p v h
  obtain ⟨x, y, hx, hy, hviews⟩ := view_shows h
  cases hviews <;> simp [stringOf?, hx, hy]

private theorem naturalOf?_alike (bound : Nat) : ReadsAlike (naturalOf? bound)
    (naturalOf? bound) := by
  intro p v h
  obtain ⟨x, y, hx, hy, hviews⟩ := view_shows h
  cases hviews <;> simp [naturalOf?, hx, hy]

theorem recordOf?_alike : ReadsAlike recordOf? recordOf? := by
  intro p v h
  have hp : Node.value p = some v := h.1
  have hv : Node.value v = some v := rfl
  rw [recordOf?, recordOf?, hp, hv]

private theorem mapM_alike {f : Placed → Option α} {g : Json → Option α} (hfg : ReadsAlike f g)
    {ps : List Placed} {vs : List Json} (h : List.Forall₂ Shows ps vs) : ps.mapM f = vs.mapM g := by
  induction h with
  | nil => rfl
  | cons hitem _ ih => rw [List.mapM_cons, List.mapM_cons, hfg hitem, ih]

private theorem listOf?_alike {f : Placed → Option α} {g : Json → Option α} (hfg : ReadsAlike f g) :
    ReadsAlike (listOf? f) (listOf? g) := by
  intro p v h
  obtain ⟨x, y, hx, hy, hviews⟩ := view_shows h
  cases hviews with
  | items hitems => simp only [listOf?, hx, hy, mapM_alike hfg hitems]
  | _ => simp [listOf?, hx, hy]

private theorem nameOf?_alike (named : String → Option α) : ReadsAlike (nameOf? named)
    (nameOf? named) := by
  intro p v h
  obtain ⟨x, y, hx, hy, hviews⟩ := view_shows h
  cases hviews with
  | @members ps written vs hshows hperm hnodup =>
    match written, hshows with
    | [], .nil =>
      rw [List.nil_perm.mp hperm] at hy
      simp only [nameOf?, hx, hy]
    | [(key, inner)], .cons (a := (_, place)) ⟨rfl, hinner⟩ .nil =>
      rw [← List.singleton_perm.mp hperm] at hy
      obtain ⟨x', y', hx', hy', hviews'⟩ := view_shows hinner
      cases hviews' <;> simp only [nameOf?, hx, hy, hx', hy']
    | _ :: _ :: _, .cons _ (.cons _ _) =>
      -- neither object is one key, whatever the order of its members
      match vs, hperm.length_eq with
      | _ :: _ :: _, _ => simp only [nameOf?, hx, hy]
  | _ => simp [nameOf?, hx, hy]

private theorem optional?_alike {f : Placed → Option α} {g : Json → Option α} (hfg : ReadsAlike f g)
    {x : Option Placed} {y : Option Json} (h : Option.Rel Shows x y) :
    optional? f x = optional? g y := by
  cases h with
  | none => rfl
  | @some p v hshows =>
    obtain ⟨x, y, hx, hy, hviews⟩ := view_shows hshows
    cases hviews <;> simp only [optional?, hx, hy, hfg hshows]

private theorem defaulted?_alike {f : Placed → Option α} {g : Json → Option α}
    (hfg : ReadsAlike f g)
    (otherwise : α) {x : Option Placed} {y : Option Json} (h : Option.Rel Shows x y) :
    defaulted? otherwise f x = defaulted? otherwise g y := by
  cases h with
  | none => rfl
  | some hshows => exact hfg hshows

private theorem required?_alike {f : Placed → Option α} {g : Json → Option α} (hfg : ReadsAlike f g)
    {x : Option Placed} {y : Option Json} (h : Option.Rel Shows x y) :
    required? f x = required? g y := by
  cases h with
  | none => rfl
  | some hshows => exact hfg hshows

end Decoders

end Json

open Json

theorem Total.decode?_alike : ReadsAlike Total.decode? Total.decode? := by
  intro p v h
  have hp : Node.value p = some v := h.1
  have hv : Node.value v = some v := rfl
  obtain ⟨x, y, hx, hy, hviews⟩ := view_shows h
  cases hviews with
  | number n => simp only [decode?, hp, hv, hx, hy, naturalOf?_alike wordBound h]
  | members hshows hperm hnodup =>
    obtain ⟨part, given, hpart, hgiven, hrel⟩ := field?_shows hshows hnodup "value"
    rw [field?_perm hperm hnodup] at hgiven
    simp only [decode?, hp, hv, hx, hy, hpart, hgiven, Option.bind_some,
      required?_alike (naturalOf?_alike wordBound) hrel]
  | _ => simp [decode?, hx, hy]

theorem Hit.decode?_alike : ReadsAlike Hit.decode? Hit.decode? := by
  intro p v h
  rcases fields?_shows h ["_index", "_type", "_id", "_source", "fields"] with
    ⟨hp, hv⟩ | ⟨xs, ys, hp, hv, hparts, hlength⟩
  · simp only [decode?, hp, hv]
  · match xs, ys, hparts, hlength with
    | [_, _, _, _, _], _, .cons hindex (.cons hdocType (.cons hid (.cons hsource
        (.cons hfields .nil)))), _ =>
      simp only [decode?, hp, hv, optional?_alike stringOf?_alike hindex,
        optional?_alike stringOf?_alike hdocType, optional?_alike stringOf?_alike hid,
        optional?_alike recordOf?_alike hsource, optional?_alike recordOf?_alike hfields]

namespace SearchResponse

private theorem decodeHits?_alike : ReadsAlike decodeHits? decodeHits? := by
  intro p v h
  rcases fields?_shows h ["total", "hits"] with ⟨hp, hv⟩ | ⟨xs, ys, hp, hv, hparts, hlength⟩
  · simp only [decodeHits?, hp, hv]
  · match xs, ys, hparts, hlength with
    | [_, _], _, .cons htotal (.cons hhits .nil), _ =>
      simp only [decodeHits?, hp, hv, defaulted?_alike Total.decode?_alike _ htotal,
        defaulted?_alike (listOf?_alike Hit.decode?_alike) _ hhits]

theorem decode?_alike : ReadsAlike decode? decode? := by
  intro p v h
  rcases fields?_shows h ["_scroll_id", "hits"] with ⟨hp, hv⟩ | ⟨xs, ys, hp, hv, hparts, hlength⟩
  · simp only [decode?, hp, hv]
  · match xs, ys, hparts, hlength with
    | [_, _], _, .cons hcursor (.cons hhits .nil), _ =>
      simp only [decode?, hp, hv, optional?_alike stringOf?_alike hcursor,
        defaulted?_alike decodeHits?_alike _ hhits]

end SearchResponse

namespace ClientConfig

private theorem portOf?_alike : ReadsAlike portOf? portOf? := by
  intro p v h
  rw [portOf?, portOf?, naturalOf?_alike 65536 h]

private theorem millisecondsOf?_alike : ReadsAlike millisecondsOf? millisecondsOf? := by
  intro p v h
  rw [millisecondsOf?, millisecondsOf?, naturalOf?_alike wordBound h]

theorem decode?_alike : ReadsAlike decode? decode? := by
  intro p v h
  rcases fields?_shows h keys with ⟨hp, hv⟩ | ⟨xs, ys, hp, hv, hparts, hlength⟩
  · simp only [decode?, hp, hv]
  · match xs, ys, hparts, hlength with
    | [_, _, _, _, _, _, _], _, .cons hhost (.cons hport (.cons hindex (.cons hudpPort
        (.cons htimeoutMs (.cons htransport (.cons hengine .nil)))))), _ =>
      simp only [decode?, hp, hv, defaulted?_alike stringOf?_alike _ hhost,
        defaulted?_alike portOf?_alike _ hport, defaulted?_alike stringOf?_alike _ hindex,
        defaulted?_alike portOf?_alike _ hudpPort,
        defaulted?_alike millisecondsOf?_alike _ htimeoutMs,
        defaulted?_alike (nameOf?_alike Transport.ofName?) _ htransport,
        defaulted?_alike (nameOf?_alike EngineKind.ofName?) _ hengine]

end ClientConfig

/-- Reading a text directly and reading the value of the text give the same, where the text has a
value and no object repeats a key. Answers of a store are read by way of their values. -/
theorem direct_reading_agrees (text : String) (v : Json) (hv : Json.ofText? text = some v)
    (hkeys : Json.KeysDiffer text) :
    decodeText? SearchResponse.decode? text = SearchResponse.decode? v ∧
      decodeText? SearchResponse.decode? text = (HttpStore.readResponse text).toOption ∧
      ClientConfig.ofText? text = ClientConfig.decode? v := by
  obtain ⟨t, ht, hvalue⟩ := Option.bind_eq_some_iff.mp hv
  have hshows : Shows ⟨depthLimit, t⟩ v := ⟨hvalue, hkeys t ht⟩
  have hanswer : decodeText? SearchResponse.decode? text = SearchResponse.decode? v := by
    rw [decodeText?, ht, Option.bind_some]
    exact SearchResponse.decode?_alike hshows
  refine ⟨hanswer, ?_, ?_⟩
  · rw [hanswer, HttpStore.readResponse, HttpStore.readValue, hv]
    simp only [Except.bind]
    split <;> simp [*, Except.toOption]
  · rw [ClientConfig.ofText?, decodeText?, ht, Option.bind_some]
    exact ClientConfig.decode?_alike hshows

def mixedText : String :=
  "\x7b\"engine\":\x7b\"noop\":null\x7d," ++
    "\"hits\":[\x7b\"relation\":\"eq\",\"value\":7\x7d,[[null,\"a\"]]]\x7d"

theorem direct_reading_agrees_mixed :
    let v : Json := .object [("engine", .object [("noop", .null)]),
      ("hits", .array [.object [("relation", .string "eq"), ("value", .ofNat 7)],
        .array [.array [.null, .string "a"]]])]
    Json.ofText? mixedText = some v ∧ Json.KeysDiffer mixedText ∧
      decodeText? SearchResponse.decode? mixedText = SearchResponse.decode? v ∧
      ClientConfig.ofText? mixedText = ClientConfig.decode? v ∧
      SearchResponse.decode? v =
        some ⟨none, .object 7, [⟨none, some "a", none, none, none⟩]⟩ ∧
      ClientConfig.decode? v = some { ClientConfig.default with engine := .noop } := by
  intro v
  have hv : Json.ofText? mixedText = some v := by decide +kernel
  have hkeys : Json.KeysDiffer mixedText := by
    have htree : (Tree.ofText? mixedText).all Tree.keysDiffer = true := by decide +kernel
    intro t ht
    rw [ht] at htree
    exact htree
  obtain ⟨hanswer, -, hsettings⟩ := direct_reading_agrees mixedText v hv hkeys
  exact ⟨hv, hkeys, hanswer, hsettings, by decide +kernel, by decide +kernel⟩

end Docket
