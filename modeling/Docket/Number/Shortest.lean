import Docket.Number.Binary64

/-!
The shortest decimal that reads back as a given double. Among the decimals of fewest digits in the
rounding interval of the double the nearest one is taken, an exact tie going to the even digit.
-/

set_option autoImplicit false
set_option relaxedAutoImplicit false

namespace Docket.Binary64

structure Decimal where
  digits : Nat
  exponent : Int
  deriving DecidableEq, Repr

/-- The reals that round to one double: `low / den` to `high / den`, with the double itself at
`mid / den`; the ends belong to the interval when the significand is even. -/
structure Interval where
  low : Nat
  mid : Nat
  high : Nat
  den : Nat
  closed : Bool

def interval (place : Nat) : Interval :=
  let (m, s) := significand place
  let step := Nat.pow 2 s
  let mid := 4 * m * step
  let below := if m = binade ∧ 0 < s then step else 2 * step
  ⟨mid - below, mid, mid + 2 * step, 4 * unitsPerOne, m % 2 = 0⟩

def Interval.holds (i : Interval) (num den : Nat) : Bool :=
  if i.closed then i.low * den ≤ num * i.den && num * i.den ≤ i.high * den
  else i.low * den < num * i.den && num * i.den < i.high * den

def tenPower (e : Int) : Nat × Nat :=
  if 0 ≤ e then (Nat.pow 10 e.toNat, 1) else (1, Nat.pow 10 (-e).toNat)

/-- The multiple of `10 ^ e` in the interval that is nearest to its middle, if there is one. -/
def Interval.onGrid? (i : Interval) (e : Int) : Option Decimal :=
  let (n, d) := tenPower e
  let floor := i.mid * d / (i.den * n)
  let rest := i.mid * d % (i.den * n)
  let lower := i.holds (floor * n) d
  let upper := i.holds ((floor + 1) * n) d
  let nearer :=
    if 2 * rest < i.den * n then floor
    else if i.den * n < 2 * rest then floor + 1
    else floor + floor % 2
  match lower, upper with
  | true, true => some ⟨nearer, e⟩
  | true, false => some ⟨floor, e⟩
  | false, true => some ⟨floor + 1, e⟩
  | false, false => none

/-- The exponent `k` of the leading digit: the middle lies in `[10 ^ k, 10 ^ (k + 1))`. -/
def Interval.leading (i : Interval) : Int :=
  let guess : Int := ((i.mid.log2 : Int) - i.den.log2 - 1) * 1233 / 4096
  let reaches (k : Int) : Bool := let (n, d) := tenPower k; i.den * n ≤ i.mid * d
  if reaches (guess + 2) then guess + 2 else if reaches (guess + 1) then guess + 1
  else if reaches guess then guess else guess - 1

def Interval.search (i : Interval) (e : Int) : Nat → Decimal
  | 0 => ⟨i.mid / i.den, 0⟩
  | fuel + 1 =>
    match i.onGrid? e with
    | some d => d
    | none => i.search (e - 1) fuel

/-- Drops trailing zeros, which only a carry into a new leading digit leaves. -/
def Decimal.strip (d : Decimal) : Nat → Decimal
  | 0 => d
  | fuel + 1 =>
    if d.digits % 10 = 0 ∧ d.digits ≠ 0 then
      Decimal.strip ⟨d.digits / 10, d.exponent + 1⟩ fuel
    else d

/-- The shortest decimal that rounds to the double at a place above zero; seventeen digits always
suffice. -/
def shortest (place : Nat) : Decimal :=
  let i := interval place
  (i.search i.leading 18).strip 18

end Docket.Binary64
