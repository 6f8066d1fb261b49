import Docket.Proofs.Literals
import Docket.Proofs.Quoting
import Docket.Proofs.Record

/-!
JSON text read back. A value of whole numbers and records in order is read from its own text, as
long as its lists and objects nest no deeper than the reader goes. What comes after the text is
left.
-/

set_option autoImplicit false
set_option relaxedAutoImplicit false

namespace Docket.Json

open Docket.Json.Tree (Stops isBlank skipBlanks)

/-- Values whose numbers are whole, whose objects are records with their fields in order, and whose
lists and objects nest at most so many levels. -/
inductive Canonical : Nat → Json → Prop
  | null (depth : Nat) : Canonical depth .null
  | bool (depth : Nat) (b : Bool) : Canonical depth (.bool b)
  | int (depth : Nat) (n : Int) (h : InWord n) : Canonical depth (.number (.int n h))
  | string (depth : Nat) (s : String) : Canonical depth (.string s)
  | array {depth : Nat} {items : List Json} :
      (∀ v ∈ items, Canonical depth v) → Canonical (depth + 1) (.array items)
  | object {depth : Nat} {members : Record} : members.Sorted →
      (∀ m ∈ members, Canonical depth m.2) → Canonical (depth + 1) (.object members)

theorem Canonical.mono {low high : Nat} {v : Json} (h : Canonical low v) (hle : low ≤ high) :
    Canonical high v := by
  induction h generalizing high with
  | null => exact .null high
  | bool _ b => exact .bool high b
  | int _ n hn => exact .int high n hn
  | string _ s => exact .string high s
  | array _ ih =>
    obtain ⟨depth, rfl⟩ := Nat.exists_eq_add_of_lt hle
    exact .array fun v hv => ih v hv (by omega)
  | object hsorted _ ih =>
    obtain ⟨depth, rfl⟩ := Nat.exists_eq_add_of_lt hle
    exact .object hsorted fun m hm => ih m hm (by omega)

/-- The text of the value is read as the value, and what follows is left, unless it continues a
number. -/
def ReadsBack (depth : Nat) (v : Json) : Prop :=
  ∃ t, ofTree? depth t = some v ∧ ∀ fuel rest, v.render.length ≤ fuel → Stops rest →
    Tree.parse fuel (v.render ++ rest) = some (t, rest)

section Heads

/-- A character that can open a value: no blank, and not the bracket that closes a list. -/
def Opens (c : Char) : Prop := isBlank c = false ∧ c ≠ ']'

private theorem opens_of_isDigit {c : Char} (hc : c.isDigit = true) : Opens c := by
  constructor
  · simp only [isBlank, Bool.or_eq_false_iff, decide_eq_false_iff_not]
    refine ⟨⟨⟨?_, ?_⟩, ?_⟩, ?_⟩ <;> rintro rfl <;> simp at hc
  · rintro rfl
    simp at hc

private theorem exists_renderInt (n : Int) :
    ∃ c cs, Number.renderInt n = c :: cs ∧ (c = '-' ∨ c.isDigit = true) := by
  obtain ⟨d, ds, hds⟩ := List.exists_cons_of_ne_nil (Number.digits_ne_nil n.natAbs)
  have hd : d.isDigit = true := Number.isDigit_of_mem_digits (n := n.natAbs) (by simp [hds])
  by_cases hneg : n < 0
  · exact ⟨'-', Number.digits n.natAbs, by simp [Number.renderInt, hneg], .inl rfl⟩
  · exact ⟨d, ds, by simp [Number.renderInt, hneg, hds], .inr hd⟩

private theorem exists_render {depth : Nat} {v : Json} (h : Canonical depth v) :
    ∃ c cs, v.render = c :: cs ∧ Opens c := by
  cases h with
  | null => exact ⟨'n', _, by rw [render], by decide, by decide⟩
  | bool _ b => cases b <;> exact ⟨_, _, by rw [render], by decide, by decide⟩
  | int _ n =>
    obtain ⟨c, cs, hcs, hc⟩ := exists_renderInt n
    refine ⟨c, cs, by rw [render, Number.render, hcs], ?_⟩
    rcases hc with rfl | hc
    · exact ⟨by decide, by decide⟩
    · exact opens_of_isDigit hc
  | string => exact ⟨'"', _, by rw [render, Quoted.render], by decide, by decide⟩
  | array => exact ⟨'[', _, by rw [render], by decide, by decide⟩
  | object => exact ⟨'{', _, by rw [render], by decide, by decide⟩

private theorem skipBlanks_render {depth : Nat} {v : Json} (h : Canonical depth v)
    (rest : List Char) :
    skipBlanks (v.render ++ rest) = v.render ++ rest := by
  obtain ⟨c, cs, hcs, hblank, -⟩ := exists_render h
  simp [hcs, skipBlanks, hblank]

end Heads

section Scalars

private theorem readsBack_null (depth : Nat) : ReadsBack depth .null := by
  refine ⟨.null, rfl, ?_⟩
  intro fuel rest hfuel _
  cases fuel with
  | zero => simp [render] at hfuel
  | succ fuel => simp [Tree.parse, render, skipBlanks, isBlank]

private theorem readsBack_bool (depth : Nat) (b : Bool) : ReadsBack depth (.bool b) := by
  refine ⟨.bool b, rfl, ?_⟩
  intro fuel rest hfuel _
  cases fuel with
  | zero => cases b <;> simp [render] at hfuel
  | succ fuel => cases b <;> simp [Tree.parse, render, skipBlanks, isBlank]

private theorem parse_int {c : Char} {cs : List Char} (fuel : Nat)
    (hc : c = '-' ∨ c.isDigit = true) :
    Tree.parse (fuel + 1) (c :: cs) =
      (Tree.literal? (c :: cs)).map fun (l, rest) => (.number l, rest) := by
  have hopens : isBlank c = false := by
    rcases hc with rfl | hc
    · decide
    · exact (opens_of_isDigit hc).1
  have hskip : skipBlanks (c :: cs) = c :: cs := by simp [skipBlanks, hopens]
  have hother : ∀ d : Char, d ≠ '-' → d.isDigit = false → c ≠ d := by
    rintro d hminus hdigit rfl
    rcases hc with hc | hc
    · exact hminus hc
    · simp [hdigit] at hc
  have hnull := hother 'n' (by decide) (by decide)
  have htrue := hother 't' (by decide) (by decide)
  have hfalse := hother 'f' (by decide) (by decide)
  have hquote := hother '"' (by decide) (by decide)
  have hbracket := hother '[' (by decide) (by decide)
  have hbrace := hother '{' (by decide) (by decide)
  rw [Tree.parse, hskip]
  split <;> simp_all

private theorem readsBack_int (depth : Nat) (n : Int) (h : InWord n) :
    ReadsBack depth (.number (.int n h)) := by
  refine ⟨.number (Number.literal n), ?_, ?_⟩
  · simp [ofTree?, Number.number?_literal n h]
  · intro fuel rest hfuel hrest
    obtain ⟨c, cs, hcs, hc⟩ := exists_renderInt n
    obtain ⟨fuel, rfl⟩ : ∃ f, fuel = f + 1 := by
      simp only [render, Number.render, hcs, List.length_cons] at hfuel
      exact ⟨fuel - 1, by omega⟩
    have hliteral := Tree.literal?_renderInt n hrest
    rw [hcs, List.cons_append] at hliteral
    rw [render, Number.render, hcs, List.cons_append, parse_int fuel hc, hliteral, Option.map_some]

private theorem readsBack_string (depth : Nat) (s : String) : ReadsBack depth (.string s) := by
  obtain ⟨ps, hs, hps⟩ := Quoted.pieces?_render s
  refine ⟨.string ps, by simp [ofTree?, hs], ?_⟩
  intro fuel rest hfuel _
  cases fuel with
  | zero => simp [render, Quoted.render] at hfuel
  | succ fuel =>
    have hskip : skipBlanks (render (.string s) ++ rest) = render (.string s) ++ rest :=
      skipBlanks_render (.string depth s) rest
    rw [Tree.parse, hskip]
    simp [render, Quoted.render, hps]

end Scalars

section Lists

private theorem commaSeparated_cons_cons (t u : List Char) (ts : List (List Char)) :
    commaSeparated (t :: u :: ts) = t ++ ',' :: commaSeparated (u :: ts) := by
  simp [commaSeparated]

private theorem stops_of_mark {c : Char} (hc : c = ',' ∨ c = ']' ∨ c = '}') (rest : List Char) :
    Stops (c :: rest) := by
  rcases hc with rfl | rfl | rfl <;> exact .cons (by decide) (by decide) (by decide) (by decide)

private theorem parseItems_render {depth : Nat} (v : Json) (items : List Json)
    (h : ∀ w ∈ v :: items, ReadsBack depth w) :
    ∃ ts, ofItems? depth ts = some (v :: items) ∧ ∀ fuel seen rest,
      (commaSeparated (renderItems (v :: items))).length < fuel →
        Tree.parseItems fuel seen (commaSeparated (renderItems (v :: items)) ++ ']' :: rest) =
          some (seen.reverse ++ ts, rest) := by
  induction items generalizing v with
  | nil =>
    obtain ⟨t, ht, hparse⟩ := h v (by simp)
    refine ⟨[t], by simp [ofItems?, ht], ?_⟩
    intro fuel seen rest hfuel
    simp only [renderItems, commaSeparated, List.flatMap_nil, List.append_nil] at hfuel ⊢
    obtain ⟨fuel, rfl⟩ : ∃ f, fuel = f + 1 := ⟨fuel - 1, by omega⟩
    rw [Tree.parseItems, hparse fuel _ (by omega) (stops_of_mark (.inr (.inl rfl)) rest)]
    simp [skipBlanks, isBlank]
  | cons w items ih =>
    obtain ⟨t, ht, hparse⟩ := h v (by simp)
    obtain ⟨ts, hts, hitems⟩ := ih w fun x hx => h x (by simp [hx])
    refine ⟨t :: ts, by simp [ofItems?, ht, hts], ?_⟩
    intro fuel seen rest hfuel
    simp only [renderItems, commaSeparated_cons_cons, List.length_append, List.length_cons] at hfuel
    obtain ⟨fuel, rfl⟩ : ∃ f, fuel = f + 1 := ⟨fuel - 1, by omega⟩
    have hrest := hitems fuel (t :: seen) rest (by simp only [renderItems]; omega)
    simp only [renderItems] at hrest
    rw [Tree.parseItems, renderItems, renderItems, commaSeparated_cons_cons, List.append_assoc,
      List.cons_append, hparse fuel _ (by omega) (stops_of_mark (.inl rfl) _)]
    simp [skipBlanks, isBlank, hrest]

private theorem readsBack_array {depth : Nat} {items : List Json}
    (hall : ∀ v ∈ items, Canonical depth v)
    (h : ∀ v ∈ items, ReadsBack depth v) : ReadsBack (depth + 1) (.array items) := by
  cases items with
  | nil =>
    refine ⟨.array [], rfl, ?_⟩
    intro fuel rest hfuel _
    cases fuel with
    | zero => simp [render] at hfuel
    | succ fuel => simp [Tree.parse, render, renderItems, commaSeparated, skipBlanks, isBlank]
  | cons v items =>
    obtain ⟨ts, hts, hitems⟩ := parseItems_render v items h
    refine ⟨.array ts, by simp [ofTree?, hts], ?_⟩
    intro fuel rest hfuel _
    simp only [render, List.length_cons, List.length_append, List.length_nil] at hfuel
    obtain ⟨fuel, rfl⟩ : ∃ f, fuel = f + 1 := ⟨fuel - 1, by omega⟩
    have hparse := hitems fuel [] rest (by omega)
    -- the first item opens the list, so the text does not read as an empty one
    obtain ⟨c, cs, hcs, hblank, hclose⟩ := exists_render (hall v (by simp))
    obtain ⟨cs', hcs'⟩ : ∃ cs', commaSeparated (renderItems (v :: items)) ++ ']' :: rest =
        c :: cs' := by
      simp only [renderItems, commaSeparated, hcs, List.cons_append]
      exact ⟨_, rfl⟩
    rw [hcs'] at hparse
    have hopen : skipBlanks ('[' :: c :: cs') = '[' :: c :: cs' := by simp [skipBlanks, isBlank]
    have hskip : skipBlanks (c :: cs') = c :: cs' := by simp [skipBlanks, hblank]
    rw [render, List.cons_append, List.append_assoc, List.singleton_append, hcs', Tree.parse, hopen]
    simp [hskip, hclose, hparse]

end Lists

section Objects

private theorem key?_render (k : String) :
    ∃ ps, Quoted.string? ps = some k ∧ ∀ rest,
      Tree.key? (Quoted.render k ++ ':' :: rest) = some (ps, rest) := by
  obtain ⟨ps, hk, hps⟩ := Quoted.pieces?_render k
  refine ⟨ps, hk, ?_⟩
  intro rest
  simp [Tree.key?, Quoted.render, skipBlanks, isBlank, hps]

private theorem parseMembers_render {depth : Nat} (k : String) (v : Json) (members : Record)
    (h : ∀ m ∈ (k, v) :: members, ReadsBack depth m.2) :
    ∃ ts, ofMembers? depth ts = some ((k, v) :: members) ∧ ∀ fuel seen rest,
      (commaSeparated (renderMembers ((k, v) :: members))).length < fuel →
        Tree.parseMembers fuel seen
            (commaSeparated (renderMembers ((k, v) :: members)) ++ '}' :: rest) =
          some (seen.reverse ++ ts, rest) := by
  induction members generalizing k v with
  | nil =>
    obtain ⟨ps, hk, hkey⟩ := key?_render k
    obtain ⟨t, ht, hparse⟩ : ReadsBack depth v := h (k, v) (by simp)
    refine ⟨[(ps, t)], by simp [ofMembers?, hk, ht], ?_⟩
    intro fuel seen rest hfuel
    simp only [renderMembers, commaSeparated, List.flatMap_nil, List.append_nil,
      List.length_append, List.length_cons] at hfuel
    obtain ⟨fuel, rfl⟩ : ∃ f, fuel = f + 1 := ⟨fuel - 1, by omega⟩
    simp only [renderMembers, commaSeparated, List.flatMap_nil, List.append_nil,
      List.append_assoc, List.cons_append]
    rw [Tree.parseMembers, hkey]
    simp only [hparse fuel _ (by omega) (stops_of_mark (.inr (.inr rfl)) rest)]
    simp [skipBlanks, isBlank]
  | cons next members ih =>
    obtain ⟨l, w⟩ := next
    obtain ⟨ps, hk, hkey⟩ := key?_render k
    obtain ⟨t, ht, hparse⟩ : ReadsBack depth v := h (k, v) (by simp)
    obtain ⟨ts, hts, hmembers⟩ := ih l w fun m hm => h m (List.mem_cons_of_mem _ hm)
    refine ⟨(ps, t) :: ts, by simp [ofMembers?, hk, ht, hts], ?_⟩
    intro fuel seen rest hfuel
    have hcomma : commaSeparated (renderMembers ((k, v) :: (l, w) :: members)) =
        Quoted.render k ++ ':' ::
          (v.render ++ ',' :: commaSeparated (renderMembers ((l, w) :: members))) := by
      simp [renderMembers, commaSeparated_cons_cons]
    rw [hcomma] at hfuel ⊢
    simp only [List.length_append, List.length_cons] at hfuel
    obtain ⟨fuel, rfl⟩ : ∃ f, fuel = f + 1 := ⟨fuel - 1, by omega⟩
    have hrest := hmembers fuel ((ps, t) :: seen) rest (by omega)
    simp only [List.append_assoc, List.cons_append]
    rw [Tree.parseMembers, hkey]
    simp only [hparse fuel _ (by omega) (stops_of_mark (.inl rfl) _)]
    simp [skipBlanks, isBlank, hrest]

theorem parse_object {depth : Nat} {members : Record} (h : ∀ m ∈ members, ReadsBack depth m.2) :
    ∃ ts, ofMembers? depth ts = some members ∧ ∀ fuel rest,
      (render (.object members)).length ≤ fuel →
        Tree.parse fuel (render (.object members) ++ rest) = some (.object ts, rest) := by
  cases members with
  | nil =>
    refine ⟨[], rfl, ?_⟩
    intro fuel rest hfuel
    cases fuel with
    | zero => simp [render] at hfuel
    | succ fuel => simp [Tree.parse, render, renderMembers, commaSeparated, skipBlanks, isBlank]
  | cons m members =>
    obtain ⟨k, v⟩ := m
    obtain ⟨ts, hts, hmembers⟩ := parseMembers_render k v members h
    refine ⟨ts, hts, ?_⟩
    intro fuel rest hfuel
    simp only [render, List.length_cons, List.length_append, List.length_nil] at hfuel
    obtain ⟨fuel, rfl⟩ : ∃ f, fuel = f + 1 := ⟨fuel - 1, by omega⟩
    have hparse := hmembers fuel [] rest (by omega)
    -- a key opens the object, so the text does not read as an empty one
    obtain ⟨cs, hcs⟩ : ∃ cs,
        commaSeparated (renderMembers ((k, v) :: members)) ++ '}' :: rest = '"' :: cs := by
      simp only [renderMembers, commaSeparated, Quoted.render, List.cons_append]
      exact ⟨_, rfl⟩
    rw [hcs] at hparse
    have hopen : skipBlanks ('{' :: '"' :: cs) = '{' :: '"' :: cs := by simp [skipBlanks, isBlank]
    have hskip : skipBlanks ('"' :: cs) = '"' :: cs := by simp [skipBlanks, isBlank]
    rw [render, List.cons_append, List.append_assoc, List.singleton_append, hcs, Tree.parse, hopen]
    simp [hskip, hparse]

private theorem readsBack_object {depth : Nat} {members : Record} (hsorted : members.Sorted)
    (h : ∀ m ∈ members, ReadsBack depth m.2) : ReadsBack (depth + 1) (.object members) := by
  obtain ⟨ts, hts, hparse⟩ := parse_object h
  refine ⟨.object ts, by simp [ofTree?, hts, Record.ofList_of_sorted hsorted], ?_⟩
  intro fuel rest hfuel _
  exact hparse fuel rest hfuel

end Objects

theorem Canonical.readsBack {depth : Nat} {v : Json} (h : Canonical depth v) :
    ReadsBack depth v := by
  induction h with
  | null depth => exact readsBack_null depth
  | bool depth b => exact readsBack_bool depth b
  | int depth n hn => exact readsBack_int depth n hn
  | string depth s => exact readsBack_string depth s
  | array hall ih => exact readsBack_array hall ih
  | object hsorted _ ih => exact readsBack_object hsorted ih

theorem tree_of_text {v : Json} {t : Tree}
    (h : Tree.parse (v.render.length + 1) (v.render ++ []) = some (t, [])) :
    Tree.ofText? v.text = some t := by
  rw [List.append_nil] at h
  simp [Tree.ofText?, Tree.ofChars?, text, h, skipBlanks]

theorem read?_text {depth : Nat} {v : Json} (h : Canonical depth v) :
    read? v.text depth = some v := by
  obtain ⟨t, ht, hparse⟩ := h.readsBack
  rw [read?, tree_of_text (hparse _ [] (by omega) .nil), Option.bind_some, ht]

theorem ofText?_text {v : Json} (h : Canonical depthLimit v) : ofText? v.text = some v :=
  read?_text h

end Docket.Json
