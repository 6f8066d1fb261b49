/-!
Doubles as exact data. A finite double is a sign and a place: the nonnegative doubles are numbered
upward from zero, so the place orders absolute values and no machine arithmetic is involved.
Rounding is to the nearest double, ties to the even place, computed on natural numbers.
-/

set_option autoImplicit false
set_option relaxedAutoImplicit false

namespace Docket

/-- How many places share an exponent, the 52nd power of two. -/
def Binary64.binade : Nat := 4503599627370496

def Binary64.beyond : Nat := 2047 * binade

/-- A finite double: its sign, and the number of nonnegative doubles below its absolute value. -/
structure Binary64 where
  negative : Bool
  place : Nat
  finite : place < Binary64.beyond
  deriving DecidableEq

namespace Binary64

/-- Significand `m` and shift `s` of a place: the absolute value there is `m * 2 ^ s / 2 ^ 1074`. -/
def significand (place : Nat) : Nat × Nat :=
  if place < binade then (place, 0)
  else (binade + place % binade, place / binade - 1)

def units (place : Nat) : Nat :=
  (significand place).1 * Nat.pow 2 (significand place).2

def unitsPerOne : Nat := Nat.pow 2 1074

def roundHalfEven (num den : Nat) : Nat :=
  let q := num / den
  let r := num % den
  if 2 * r < den then q else if den < 2 * r then q + 1 else q + q % 2

/-- The place nearest to `num / den`; `beyond` or more when no finite double is. -/
def nearest (num den : Nat) : Nat :=
  let scaled := num * unitsPerOne
  let low := scaled.log2 - den.log2 - 53
  let shift := if scaled < den * Nat.pow 2 (low + 53) then low else low + 1
  shift * binade + roundHalfEven scaled (den * Nat.pow 2 shift)

def product (a b : Nat) : Nat :=
  nearest (units a * units b) (unitsPerOne * unitsPerOne)

def quotient (a b : Nat) : Nat :=
  nearest (units a) (units b)

/-- The double of a sign at a place, or the largest one short of the place. -/
def atPlace (negative : Bool) (place : Nat) : Binary64 :=
  if h : place < beyond then ⟨negative, place, h⟩
  else ⟨negative, beyond - 1, by decide⟩

def ofInt (n : Int) : Binary64 :=
  atPlace (n < 0) (nearest n.natAbs 1)

def ofMillionths (n : Nat) : Binary64 :=
  atPlace false (nearest n 1000000)

/-- Position in the total order of doubles, in which `-0.0` is just below `0.0`. -/
def rank (x : Binary64) : Int :=
  if x.negative then -(x.place : Int) - 1 else x.place

end Binary64

end Docket
