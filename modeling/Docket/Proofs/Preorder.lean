import Mathlib.Tactic.ByContra

/-!
Comparisons that are total preorders on a class of things: the sides can be swapped, and not being
greater passes on. Comparisons need not be transitive on everything, so the class is named.
-/

set_option autoImplicit false
set_option relaxedAutoImplicit false

namespace Docket

variable {α : Type} {β : Type}

/-- Not greater than passes on along three elements of a class. -/
def TransitiveOn (order : α → α → Ordering) (S : α → Prop) : Prop :=
  ∀ a b c, S a → S b → S c → order a b ≠ .gt → order b c ≠ .gt → order a c ≠ .gt

/-- Swapping the sides swaps the answer, and not greater than is transitive on a class. -/
structure TotalPreorderOn (order : α → α → Ordering) (S : α → Prop) : Prop where
  swap : ∀ a b, order b a = (order a b).swap
  trans : TransitiveOn order S

namespace TotalPreorderOn

variable {order major minor : α → α → Ordering} {S : α → Prop}

theorem gt_of_lt (h : TotalPreorderOn order S) {a b : α} (hab : order a b = .lt) :
    order b a = .gt := by
  rw [h.swap a b, hab]
  rfl

private theorem swap_ne_gt_of_ne_lt (h : TotalPreorderOn order S) {a b : α}
    (hab : order a b ≠ .lt) : order b a ≠ .gt := by
  rw [h.swap a b]
  cases ho : order a b <;> simp_all

theorem lt_of_le_of_lt (h : TotalPreorderOn order S) {a b c : α} (ha : S a) (hb : S b) (hc : S c)
    (hab : order a b ≠ .gt) (hbc : order b c = .lt) : order a c = .lt := by
  by_contra hac
  have hcb : order c b ≠ .gt := h.trans c a b hc ha hb (h.swap_ne_gt_of_ne_lt hac) hab
  exact hcb (h.gt_of_lt hbc)

theorem lt_of_lt_of_le (h : TotalPreorderOn order S) {a b c : α} (ha : S a) (hb : S b) (hc : S c)
    (hab : order a b = .lt) (hbc : order b c ≠ .gt) : order a c = .lt := by
  by_contra hac
  have hba : order b a ≠ .gt := h.trans b c a hb hc ha hbc (h.swap_ne_gt_of_ne_lt hac)
  exact hba (h.gt_of_lt hab)

theorem self (h : TotalPreorderOn order S) (a : α) : order a a = .eq := by
  have hswap := h.swap a a
  cases ho : order a a <;> simp_all

/-- Where the answers for elements that tie pass on, comparing first by the order passes on. -/
theorem then_ne_gt (h : TotalPreorderOn order S) {a b c : α} (ha : S a) (hb : S b) (hc : S c)
    {ab bc ac : Ordering} (hpasses : ab ≠ .gt → bc ≠ .gt → ac ≠ .gt)
    (hab : (order a b).then ab ≠ .gt) (hbc : (order b c).then bc ≠ .gt) :
    (order a c).then ac ≠ .gt := by
  have hab' : order a b ≠ .gt := by
    intro hgt
    simp [hgt] at hab
  have hbc' : order b c ≠ .gt := by
    intro hgt
    simp [hgt] at hbc
  have hac' := h.trans a b c ha hb hc hab' hbc'
  cases hac : order a c with
  | lt => simp
  | gt => exact absurd hac hac'
  | eq =>
    -- The outer elements tie, so neither step is strict, and the other answers decide.
    have hab0 : order a b = .eq := by
      cases ho : order a b with
      | eq => rfl
      | gt => exact absurd ho hab'
      | lt => simp [h.lt_of_lt_of_le ha hb hc ho hbc'] at hac
    have hbc0 : order b c = .eq := by
      cases ho : order b c with
      | eq => rfl
      | gt => exact absurd ho hbc'
      | lt => simp [h.lt_of_le_of_lt ha hb hc hab' ho] at hac
    simp only [hab0, hbc0, Ordering.eq_then] at hab hbc ⊢
    exact hpasses hab hbc

theorem lexicographic (hmajor : TotalPreorderOn major S) (hminor : TotalPreorderOn minor S) :
    TotalPreorderOn (fun a b => (major a b).then (minor a b)) S where
  swap a b := by rw [hmajor.swap a b, hminor.swap a b, Ordering.swap_then]
  trans a b c ha hb hc := hmajor.then_ne_gt ha hb hc (hminor.trans a b c ha hb hc)

theorem mono (h : TotalPreorderOn order S) {T : α → Prop} (hT : ∀ a, T a → S a) :
    TotalPreorderOn order T where
  swap := h.swap
  trans a b c ha hb hc := h.trans a b c (hT a ha) (hT b hb) (hT c hc)

theorem comap (h : TotalPreorderOn order S) (key : β → α) :
    TotalPreorderOn (fun a b => order (key a) (key b)) fun a => S (key a) where
  swap a b := h.swap (key a) (key b)
  trans a b c := h.trans (key a) (key b) (key c)

theorem reversed (h : TotalPreorderOn order S) :
    TotalPreorderOn (fun a b => (order a b).swap) S where
  swap a b := by rw [h.swap a b]
  trans a b c ha hb hc hab hbc := by
    simp only [← h.swap] at hab hbc ⊢
    exact h.trans c b a hc hb ha hbc hab

end TotalPreorderOn

end Docket
