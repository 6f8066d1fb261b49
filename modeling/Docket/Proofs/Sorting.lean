import Docket.Proofs.Preorder
import Docket.Query.Sort
import Mathlib.Data.List.Pairwise
import Mathlib.Data.List.Perm.Basic

/-!
The stable sort. It keeps all elements whatever the order does; where the order is a total preorder
on the elements, the result ascends, and elements that tie stay in the order in which they came.
-/

set_option autoImplicit false
set_option relaxedAutoImplicit false

namespace Docket

variable {α : Type} {β : Type}

/-- The list `ys` is `xs` in ascending order, with ties in the order of `xs`. -/
structure StablySorted (order : α → α → Ordering) (xs ys : List α) : Prop where
  perm : ys.Perm xs
  ascending : ys.Pairwise fun a b => order a b ≠ .gt
  ties : ∀ k ∈ xs, (ys.filter fun a => order k a = .eq) = xs.filter fun a => order k a = .eq

theorem StablySorted.congr {order order' : α → α → Ordering} {xs ys : List α}
    (h : StablySorted order xs ys) (agree : ∀ a ∈ xs, ∀ b ∈ xs, order' a b = order a b) :
    StablySorted order' xs ys where
  perm := h.perm
  ascending := by
    refine h.ascending.imp_of_mem fun ha hb hab => ?_
    rwa [agree _ (h.perm.mem_iff.mp ha) _ (h.perm.mem_iff.mp hb)]
  ties := by
    intro k hk
    have hys : (ys.filter fun a => order' k a = .eq) = ys.filter fun a => order k a = .eq :=
      List.filter_congr fun a ha => by rw [agree k hk a (h.perm.mem_iff.mp ha)]
    have hxs : (xs.filter fun a => order' k a = .eq) = xs.filter fun a => order k a = .eq :=
      List.filter_congr fun a ha => by rw [agree k hk a ha]
    rw [hys, hxs, h.ties k hk]

namespace StablySorted

variable {order major minor : α → α → Ordering} {xs ys zs : List α} {S : α → Prop}

theorem mem_iff (h : StablySorted order xs ys) {a : α} : a ∈ ys ↔ a ∈ xs := h.perm.mem_iff

theorem of_ascending (h : xs.Pairwise fun a b => order a b ≠ .gt) : StablySorted order xs xs where
  perm := .refl xs
  ascending := h
  ties _ _ := rfl

private theorem eq_of_ties (hp : TotalPreorderOn order (· ∈ ys)) (hperm : ys.Perm zs)
    (hys : ys.Pairwise fun a b => order a b ≠ .gt) (hzs : zs.Pairwise fun a b => order a b ≠ .gt)
    (hties : ∀ k ∈ ys, (ys.filter fun a => order k a = .eq) = zs.filter fun a => order k a = .eq) :
    ys = zs := by
  induction ys generalizing zs with
  | nil => exact hperm.nil_eq
  | cons y ys ih =>
    cases zs with
    | nil => exact absurd hperm.eq_nil (List.cons_ne_nil y ys)
    | cons z zs =>
      -- Both heads are least, so they tie, and the ties of one head show that they are the same.
      have htie : order y z = .eq := by
        have hyz : order y z ≠ .gt := by
          rcases List.mem_cons.mp (hperm.mem_iff.mpr List.mem_cons_self) with heq | hmem
          · simp [heq, hp.self]
          · exact List.rel_of_pairwise_cons hys hmem
        have hzy : order z y ≠ .gt := by
          rcases List.mem_cons.mp (hperm.mem_iff.mp List.mem_cons_self) with heq | hmem
          · simp [heq, hp.self]
          · exact List.rel_of_pairwise_cons hzs hmem
        rw [hp.swap y z] at hzy
        cases ho : order y z <;> simp_all
      have hheads := hties y List.mem_cons_self
      simp only [List.filter_cons, hp.self, htie, decide_true, if_true] at hheads
      obtain rfl := (List.cons.inj hheads).1
      refine congrArg (y :: ·) (ih (hp.mono fun a ha => List.mem_cons_of_mem y ha)
        hperm.cons_inv hys.of_cons hzs.of_cons fun k hk => ?_)
      have htails := hties k (List.mem_cons_of_mem y hk)
      by_cases hky : order k y = .eq
      · simpa [List.filter_cons, hky] using htails
      · simpa [List.filter_cons, hky] using htails

/-- There is only one way to sort a list and keep ties in their order. -/
theorem unique (h : TotalPreorderOn order (· ∈ xs)) (hys : StablySorted order xs ys)
    (hzs : StablySorted order xs zs) : ys = zs := by
  refine eq_of_ties (h.mono fun a => hys.mem_iff.mp) (hys.perm.trans hzs.perm.symm) hys.ascending
    hzs.ascending fun k hk => ?_
  rw [hys.ties k (hys.mem_iff.mp hk), hzs.ties k (hys.mem_iff.mp hk)]

theorem reverse (h : TotalPreorderOn order (· ∈ xs)) (hys : StablySorted order xs ys) :
    StablySorted (fun a b => (order a b).swap) xs.reverse ys.reverse where
  perm := (List.reverse_perm ys).trans (hys.perm.trans (List.reverse_perm xs).symm)
  ascending := by
    simp only [← h.swap]
    exact List.pairwise_reverse.mpr hys.ascending
  ties k hk := by
    simp only [Ordering.swap_eq_eq, List.filter_reverse]
    rw [hys.ties k (List.mem_reverse.mp hk)]

private theorem before_iff_of_tie (h : TotalPreorderOn order S) {ls : List α} {a b : α}
    (hab : order a b = .eq) :
    [a, b].Sublist ls ↔ [a, b].Sublist (ls.filter fun x => order a x = .eq) := by
  constructor
  · intro hsub
    simpa [h.self, hab] using hsub.filter fun x => order a x = .eq
  · exact fun hsub => hsub.trans List.filter_sublist

/-- What stands before what: smaller elements, and of elements that tie the one that came first. -/
theorem before_iff (h : TotalPreorderOn order (· ∈ xs)) (hys : StablySorted order xs ys) {a b : α}
    (ha : a ∈ xs) (hb : b ∈ xs) :
    [a, b].Sublist ys ↔ order a b = .lt ∨ order a b = .eq ∧ [a, b].Sublist xs := by
  have hascending : ∀ {x y : α}, [x, y].Sublist ys → order x y ≠ .gt :=
    List.pairwise_iff_forall_sublist.mp hys.ascending
  cases hab : order a b with
  | eq =>
    simp only [reduceCtorEq, false_or, true_and]
    rw [before_iff_of_tie h hab, hys.ties a ha, ← before_iff_of_tie h hab]
  | gt =>
    simp only [reduceCtorEq, false_and, or_false, iff_false]
    exact fun hsub => hascending hsub hab
  | lt =>
    simp only [reduceCtorEq, false_and, or_false, iff_true]
    have hne : a ≠ b := by
      rintro rfl
      simp [h.self] at hab
    have hpairs : ys.Pairwise fun x y => [x, y].Sublist ys ∨ [y, x].Sublist ys :=
      List.pairwise_iff_forall_sublist.mpr .inl
    have hsymm : Std.Symm fun x y => [x, y].Sublist ys ∨ [y, x].Sublist ys := ⟨fun _ _ => .symm⟩
    refine (hpairs.forall (hys.mem_iff.mpr ha) (hys.mem_iff.mpr hb) hne).resolve_right ?_
    exact fun hsub => hascending hsub (h.gt_of_lt hab)

/-- Sorting by a minor order and then by a major one sorts by both, the major one first. -/
theorem lexicographic (h : TotalPreorderOn major (· ∈ xs)) (hys : StablySorted minor xs ys)
    (hzs : StablySorted major ys zs) :
    StablySorted (fun a b => (major a b).then (minor a b)) xs zs where
  perm := hzs.perm.trans hys.perm
  ascending := by
    refine List.pairwise_iff_forall_sublist.mpr fun {a b} hsub => ?_
    have hmajor := List.pairwise_iff_forall_sublist.mp hzs.ascending hsub
    cases hab : major a b with
    | lt => simp
    | gt => exact absurd hab hmajor
    | eq =>
      -- elements that tie in the major order stand as the minor order put them
      have ha : a ∈ ys := hzs.mem_iff.mp (hsub.subset List.mem_cons_self)
      have hbefore : [a, b].Sublist ys := by
        rw [before_iff_of_tie h hab] at hsub ⊢
        rwa [← hzs.ties a ha]
      simpa using List.pairwise_iff_forall_sublist.mp hys.ascending hbefore
  ties k hk := by
    have hsplit : ∀ ls : List α, (ls.filter fun a => (major k a).then (minor k a) = .eq) =
        (ls.filter fun a => major k a = .eq).filter fun a => minor k a = .eq := by
      intro ls
      simp only [List.filter_filter, Ordering.then_eq_eq, Bool.decide_and, Bool.and_comm]
    rw [hsplit, hzs.ties k (hys.mem_iff.mpr hk), List.filter_comm, hys.ties k hk, hsplit,
      List.filter_comm]

end StablySorted

section Placing

variable (order : α → α → Ordering)

theorem placeFromEnd_perm (x : α) (placed : List α) :
    (placeFromEnd order x placed).Perm (x :: placed) := by
  induction placed with
  | nil => simp [placeFromEnd]
  | cons last before ih =>
    rw [placeFromEnd]
    split
    · exact (ih.cons last).trans (.swap x last before)
    · exact .refl _

theorem forall_mem_placeFromEnd {S : α → Prop} {x : α} {placed : List α} (hx : S x)
    (hS : ∀ a ∈ placed, S a) : ∀ a ∈ placeFromEnd order x placed, S a := by
  intro a ha
  rcases List.mem_cons.mp ((placeFromEnd_perm order x placed).mem_iff.mp ha) with rfl | ha
  · exact hx
  · exact hS a ha

theorem placeFromEnd_map {order' : β → β → Ordering} (f : α → β) (x : α) (placed : List α)
    (agree : ∀ a ∈ placed, order' (f x) (f a) = order x a) :
    placeFromEnd order' (f x) (placed.map f) = (placeFromEnd order x placed).map f := by
  induction placed with
  | nil => rfl
  | cons last before ih =>
    have ih' := ih fun a ha => agree a (List.mem_cons_of_mem last ha)
    simp only [List.map_cons, placeFromEnd, agree last List.mem_cons_self]
    split
    · rw [ih', List.map_cons]
    · rfl

variable {order}

private theorem placeFromEnd_descending {S : α → Prop} (h : TotalPreorderOn order S) (x : α)
    (placed : List α) (hx : S x) (hS : ∀ a ∈ placed, S a)
    (hp : placed.Pairwise fun a b => order b a ≠ .gt) :
    (placeFromEnd order x placed).Pairwise fun a b => order b a ≠ .gt := by
  induction placed with
  | nil => simp [placeFromEnd]
  | cons last before ih =>
    have hbefore : ∀ a ∈ before, S a := fun a ha => hS a (List.mem_cons_of_mem last ha)
    have hlast : ∀ a ∈ before, order a last ≠ .gt := fun _ => List.rel_of_pairwise_cons hp
    rw [placeFromEnd]
    split
    · rename_i hlt
      have hx' : order x last ≠ .gt := by simp [hlt]
      exact List.pairwise_cons.mpr
        ⟨forall_mem_placeFromEnd order hx' hlast, ih hbefore hp.of_cons⟩
    · rename_i hge
      have hxl : order last x ≠ .gt := by
        rw [h.swap x last]
        cases ho : order x last <;> simp_all
      refine List.pairwise_cons.mpr ⟨?_, hp⟩
      intro a ha
      rcases List.mem_cons.mp ha with rfl | ha
      · exact hxl
      · exact h.trans a last x (hbefore a ha) (hS last List.mem_cons_self) hx (hlast a ha) hxl

private theorem filter_placeFromEnd {S : α → Prop} (h : TotalPreorderOn order S) (k x : α)
    (placed : List α) (hk : S k) (hx : S x) (hS : ∀ a ∈ placed, S a) :
    ((placeFromEnd order x placed).filter fun a => order k a = .eq) =
      (x :: placed).filter fun a => order k a = .eq := by
  induction placed with
  | nil => simp [placeFromEnd]
  | cons last before ih =>
    have ih' := ih fun a ha => hS a (List.mem_cons_of_mem last ha)
    rw [placeFromEnd]
    split
    · rename_i hlt
      rw [List.filter_cons, ih']
      by_cases hkx : order k x = .eq
      · -- The element passes only elements that do not tie with the key.
        have hkl : order k last = .lt :=
          h.lt_of_le_of_lt hk hx (hS last List.mem_cons_self) (by simp [hkx]) hlt
        simp [hkx, hkl]
      · simp [List.filter_cons, hkx]
    · rfl

end Placing

section Folding

variable (order : α → α → Ordering)

private theorem foldl_place_perm (xs placed : List α) :
    (xs.foldl (fun placed x => placeFromEnd order x placed) placed).Perm (xs ++ placed) := by
  induction xs generalizing placed with
  | nil => exact .refl _
  | cons x xs ih =>
    refine (ih _).trans (((placeFromEnd_perm order x placed).append_left xs).trans ?_)
    exact List.perm_middle

theorem stableSort_perm (xs : List α) : (stableSort order xs).Perm xs := by
  rw [stableSort]
  refine (List.reverse_perm _).trans ?_
  simpa using foldl_place_perm order xs []

private theorem foldl_place_map {order' : β → β → Ordering} (f : α → β) (xs placed : List α)
    (agree : ∀ a ∈ xs, ∀ b ∈ xs ++ placed, order' (f a) (f b) = order a b) :
    (xs.map f).foldl (fun placed x => placeFromEnd order' x placed) (placed.map f) =
      (xs.foldl (fun placed x => placeFromEnd order x placed) placed).map f := by
  induction xs generalizing placed with
  | nil => rfl
  | cons x xs ih =>
    simp only [List.map_cons, List.foldl_cons]
    rw [placeFromEnd_map order f x placed fun a ha => agree x (by simp) a (by simp [ha])]
    refine ih _ fun a ha b hb => agree a (List.mem_cons_of_mem x ha) b ?_
    rcases List.mem_append.mp hb with hb | hb
    · simp [hb]
    · have hb' := (placeFromEnd_perm order x placed).mem_iff.mp hb
      simp only [List.mem_cons] at hb'
      simp only [List.cons_append, List.mem_cons, List.mem_append]
      tauto

theorem stableSort_map {order' : β → β → Ordering} (f : α → β) (xs : List α)
    (agree : ∀ a ∈ xs, ∀ b ∈ xs, order' (f a) (f b) = order a b) :
    stableSort order' (xs.map f) = (stableSort order xs).map f := by
  have hfold := foldl_place_map order f xs [] (by simpa using agree)
  simp only [List.map_nil] at hfold
  rw [stableSort, stableSort, hfold, List.map_reverse]

theorem stableSort_congr {order' : α → α → Ordering} (xs : List α)
    (agree : ∀ a ∈ xs, ∀ b ∈ xs, order' a b = order a b) :
    stableSort order' xs = stableSort order xs := by
  simpa using stableSort_map order id xs agree

theorem stableSort_of_ties (xs : List α) (ties : ∀ a b, order a b = .eq) :
    stableSort order xs = xs := by
  have hplace : ∀ x placed, placeFromEnd order x placed = x :: placed := by
    intro x placed
    cases placed <;> simp [placeFromEnd, ties]
  simp [stableSort, hplace]

variable {order}

private theorem foldl_place_descending {S : α → Prop} (h : TotalPreorderOn order S)
    (xs placed : List α) (hxs : ∀ a ∈ xs, S a) (hS : ∀ a ∈ placed, S a)
    (hp : placed.Pairwise fun a b => order b a ≠ .gt) :
    (xs.foldl (fun placed x => placeFromEnd order x placed) placed).Pairwise
      fun a b => order b a ≠ .gt := by
  induction xs generalizing placed with
  | nil => exact hp
  | cons x xs ih =>
    have hx : S x := hxs x List.mem_cons_self
    have hxs' : ∀ a ∈ xs, S a := fun a ha => hxs a (List.mem_cons_of_mem x ha)
    exact ih _ hxs' (forall_mem_placeFromEnd order hx hS)
      (placeFromEnd_descending h x placed hx hS hp)

private theorem filter_foldl_place {S : α → Prop} (h : TotalPreorderOn order S) (k : α)
    (xs placed : List α) (hk : S k) (hxs : ∀ a ∈ xs, S a) (hS : ∀ a ∈ placed, S a) :
    ((xs.foldl (fun placed x => placeFromEnd order x placed) placed).filter
        fun a => order k a = .eq) =
      (xs.filter fun a => order k a = .eq).reverse ++ placed.filter fun a => order k a = .eq := by
  induction xs generalizing placed with
  | nil => rfl
  | cons x xs ih =>
    have hx : S x := hxs x List.mem_cons_self
    have hxs' : ∀ a ∈ xs, S a := fun a ha => hxs a (List.mem_cons_of_mem x ha)
    have hplaced := forall_mem_placeFromEnd order hx hS
    rw [List.foldl_cons, ih _ hxs' hplaced, filter_placeFromEnd h k x placed hk hx hS]
    by_cases hkx : order k x = .eq <;> simp [hkx]

/-- Where the order is a total preorder on the elements, the sort is stable. -/
theorem stableSort_stablySorted (xs : List α) (h : TotalPreorderOn order (· ∈ xs)) :
    StablySorted order xs (stableSort order xs) where
  perm := stableSort_perm order xs
  ascending := by
    rw [stableSort, List.pairwise_reverse]
    exact foldl_place_descending h xs [] (fun _ ha => ha) (by simp) .nil
  ties := by
    intro k hk
    rw [stableSort, List.filter_reverse, filter_foldl_place h k xs [] hk (fun _ ha => ha) (by simp)]
    simp

theorem stableSort_of_ascending {xs : List α} (h : TotalPreorderOn order (· ∈ xs))
    (hxs : xs.Pairwise fun a b => order a b ≠ .gt) : stableSort order xs = xs :=
  (stableSort_stablySorted xs h).unique h (.of_ascending hxs)

end Folding

end Docket
