import Docket.Log

/-!
Progress of a download. An event is logged whenever the share downloaded passes the mark, which then
rises in steps past the share. Shares are exact fractions, shown in whole percent.
-/

set_option autoImplicit false
set_option relaxedAutoImplicit false

namespace Docket

structure Progress where
  /-- How many hits are expected; nothing is logged when none are. -/
  total : Nat
  /-- The share, in percent, that is yet to be passed. -/
  mark : Nat
  deriving DecidableEq

namespace Progress

def step : Nat := 5

def start (total : Nat) : Progress := ⟨total, 0⟩

def Passes (total downloaded mark : Nat) : Prop := mark * total < 100 * downloaded

instance (total downloaded mark : Nat) : Decidable (Passes total downloaded mark) :=
  inferInstanceAs (Decidable (_ < _))

/-- Raises a mark step by step until it is not passed any more. -/
def raise (total downloaded mark : Nat) : Nat :=
  if 0 < total ∧ Passes total downloaded mark then raise total downloaded (mark + step) else mark
  termination_by 100 * downloaded - mark * total
  decreasing_by
    rename_i h
    obtain ⟨hpos, hpass⟩ := h
    have : (mark + step) * total = mark * total + step * total := Nat.add_mul ..
    simp only [Passes, step] at *
    omega

/-- The share of `downloaded` hits in whole percent; a half goes to the even neighbour. -/
def percent (total downloaded : Nat) : Nat :=
  let whole := 100 * downloaded / total
  let rest := 100 * downloaded % total
  if total < 2 * rest || (total == 2 * rest && whole % 2 == 1) then whole + 1 else whole

def percentText (n : Nat) : String :=
  if n < 10 then " " ++ toString n else toString n

def event (total downloaded : Nat) : Event :=
  ⟨.debug, .fetch, percentText (percent total downloaded) ++ "% downloaded",
    [("downloaded", .number downloaded)]⟩

def record (p : Progress) (downloaded : Nat) : Progress × List Event :=
  if 0 < p.total ∧ Passes p.total downloaded p.mark then
    ({ p with mark := raise p.total downloaded p.mark }, [event p.total downloaded])
  else (p, [])

end Progress

end Docket
