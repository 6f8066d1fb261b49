import Docket.Number.Shortest

/-!
Numbers of a JSON document: whole numbers of 64 bits, signed or unsigned, and finite doubles.
The two kinds stay apart, so `1` and `1.0` are different numbers, and they print differently.
-/

set_option autoImplicit false
set_option relaxedAutoImplicit false

namespace Docket

def wordBound : Nat := 18446744073709551616

/-- Whole numbers of a word of 64 bits, signed or unsigned. -/
def InWord (n : Int) : Prop := -9223372036854775808 ≤ n ∧ n < 18446744073709551616

instance (n : Int) : Decidable (InWord n) := inferInstanceAs (Decidable (_ ∧ _))

inductive Number where
  | int (value : Int) (inRange : InWord value)
  | double (value : Binary64)
  deriving DecidableEq

namespace Number

def ofUInt64 (n : UInt64) : Number :=
  .int n.toNat ⟨by omega, by have := n.toNat_lt; omega⟩

/-- A count, held at the largest word when it is beyond 64 bits. -/
def ofNat (n : Nat) : Number :=
  if h : n < wordBound then .int n ⟨by omega, by simp only [wordBound] at h; omega⟩
  else .int 18446744073709551615 (by decide)

def signed? : Number → Option Int
  | .int n _ => if n < 9223372036854775808 then some n else none
  | .double _ => none

def unsigned? : Number → Option Nat
  | .int n _ => if 0 ≤ n then some n.toNat else none
  | .double _ => none

def toBinary64 : Number → Binary64
  | .int n _ => .ofInt n
  | .double x => x

/-- Numbers that are both signed words compare exactly, all others as doubles. -/
def compare (a b : Number) : Ordering :=
  match a.signed?, b.signed? with
  | some x, some y => Ord.compare x y
  | _, _ => Ord.compare a.toBinary64.rank b.toBinary64.rank

def digits (n : Nat) : List Char := Nat.toDigits 10 n

def renderInt (n : Int) : List Char :=
  if n < 0 then '-' :: digits n.natAbs else digits n.natAbs

/-- Where doubles are written positionally: leading digits from `10 ^ low` to below `10 ^ high`. -/
structure PositionalRange where
  low : Int
  high : Int

def jsonRange : PositionalRange := ⟨-5, 16⟩

/-- Digits with the point placed after `whole` of them; zeros fill the gaps. -/
def positional (ds : List Char) (whole : Int) : List Char :=
  if whole ≤ 0 then '0' :: '.' :: (List.replicate (-whole).toNat '0' ++ ds)
  else
    let n := whole.toNat
    if ds.length ≤ n then ds ++ List.replicate (n - ds.length) '0' ++ ['.', '0']
    else ds.take n ++ '.' :: ds.drop n

def scientific (ds : List Char) (leading : Int) : List Char :=
  let mantissa := match ds with
    | [] => []
    | [d] => [d]
    | d :: rest => d :: '.' :: rest
  let exponent := (if leading < 0 then '-' else '+') :: digits leading.natAbs
  mantissa ++ 'e' :: exponent

def renderPlace (style : PositionalRange) (place : Nat) : List Char :=
  if place = 0 then ['0', '.', '0']
  else
    let d := Binary64.shortest place
    let ds := digits d.digits
    let leading := d.exponent + ds.length - 1
    if style.low ≤ leading ∧ leading < style.high then positional ds (leading + 1)
    else scientific ds leading

def renderBinary64 (x : Binary64) : List Char :=
  let text := renderPlace jsonRange x.place
  if x.negative then '-' :: text else text

def render : Number → List Char
  | .int n _ => renderInt n
  | .double x => renderBinary64 x

end Number

end Docket
