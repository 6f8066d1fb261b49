import Docket.Number

/-!
Reading decimal literals. A literal without point and exponent that fits a 64-bit word, signed or
unsigned, is that whole number; every other literal is a double, rounded twice: its leading digits
that fit an unsigned word become a double, which is multiplied or divided by the double nearest to
the power of ten. Minus zero is the double `-0.0`, and a literal beyond the doubles has no value.
-/

set_option autoImplicit false
set_option relaxedAutoImplicit false

namespace Docket.Number

/-- A decimal literal as written: sign, digits before the point, digits after it, and the sign and
digits of the exponent. -/
structure Literal where
  negative : Bool
  whole : List Char
  fraction : Option (List Char)
  exponent : Option (Bool × List Char)
  deriving DecidableEq

def digitValue (c : Char) : Nat := c.toNat - '0'.toNat

def digitsValue (value : Nat) (ds : List Char) : Nat :=
  ds.foldl (fun n c => n * 10 + digitValue c) value

/-- Appends digits to `value` while it stays an unsigned word; also returns the digits left. -/
def takeWord (value : Nat) : List Char → Nat × List Char
  | [] => (value, [])
  | c :: rest =>
    if value * 10 + digitValue c < wordBound then takeWord (value * 10 + digitValue c) rest
    else (value, c :: rest)

def tenPlace (e : Nat) : Nat := Binary64.nearest (Nat.pow 10 e) 1

/-- Divides by a power of ten, in steps of `10 ^ 308`; three steps bring any word to zero. -/
def scaleDown : Nat → Nat → Nat → Nat
  | 0, _, _ => 0
  | steps + 1, place, e =>
    if e ≤ 308 then Binary64.quotient place (tenPlace e)
    else scaleDown steps (Binary64.quotient place (tenPlace 308)) (e - 308)

def scaledPlace? (word : Nat) (e : Int) : Option Nat :=
  let start := Binary64.nearest word 1
  let place :=
    if e < 0 then scaleDown 3 start (-e).toNat
    else if word = 0 then 0
    else if e ≤ 308 then Binary64.product start (tenPlace e.toNat)
    else Binary64.beyond
  if place < Binary64.beyond then some place else none

def ofInt? (n : Int) : Option Number :=
  if h : InWord n then some (.int n h) else none

def ofWord (negative : Bool) (word : Nat) : Number :=
  let asDouble := Number.double (.atPlace negative (Binary64.nearest word 1))
  if negative && word == 0 then asDouble
  else (ofInt? (if negative then -word else word)).getD asDouble

/-- Significand and power of ten of a literal whose whole part left `left` digits out. -/
def Literal.scaled (l : Literal) (word left : Nat) : Nat × Int :=
  let (significand, e) : Nat × Int := match l.fraction with
    | none => (word, left)
    | some ds =>
      let (significand, rest) := takeWord word ds
      (significand, left - (ds.length - rest.length : Nat))
  match l.exponent with
  | none => (significand, e)
  | some (false, ds) => (significand, e + digitsValue 0 ds)
  | some (true, ds) => (significand, e - digitsValue 0 ds)

def Literal.number? (l : Literal) : Option Number :=
  let (word, left) := takeWord 0 l.whole
  if l.fraction.isNone && l.exponent.isNone && left.isEmpty then
    some (ofWord l.negative word)
  else
    let (significand, e) := l.scaled word left.length
    (scaledPlace? significand e).map fun place => .double (.atPlace l.negative place)

end Docket.Number
