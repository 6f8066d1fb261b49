import Docket.Pattern.Node

/-!
How much memory the states of an expression take. Every state takes one unit, a state with several
ways on also four bytes for each, and a class eight bytes for each range. Counted repetitions are
written out, so nested counts multiply.
-/

set_option autoImplicit false
set_option relaxedAutoImplicit false

namespace Docket.Pattern

def stateBytes : Nat := 32

def splitBytes (ways : Nat) : Nat := stateBytes + 4 * ways

def groupBytes : Nat := 16

def sizeLimit : Nat := 10 * 1048576

/-- Bytes of `n` copies one after the other; none at all still takes a state. -/
def copiesBytes (n bytes : Nat) : Nat :=
  if n = 0 then stateBytes else n * bytes

def starBytes (nullable : Bool) (bytes : Nat) : Nat :=
  if nullable then splitBytes 2 + stateBytes + (bytes + splitBytes 2) else bytes + splitBytes 2

def repetitionBytes (least : Nat) (most : Option Nat) (nullable : Bool) (bytes : Nat) : Nat :=
  match least, most with
  | 0, none => starBytes nullable bytes
  | 0, some 1 => splitBytes 2 + stateBytes + bytes
  | n, none => n * bytes + splitBytes 2
  | n, some m =>
    if m = n then copiesBytes n bytes
    else copiesBytes n bytes + stateBytes + (m - n) * (splitBytes 2 + bytes)

mutual

def Node.bytes : Node → Nat
  | .empty | .char _ | .look _ => stateBytes
  | .one k => stateBytes + 8 * k.ranges.length
  | .repeated least most sub => repetitionBytes least most sub.nullable sub.bytes
  | .group sub => 2 * stateBytes + sub.bytes
  | .sequence subs => bytesAll subs
  | .choice subs => splitBytes subs.length + stateBytes + bytesAll subs

def bytesAll : List Node → Nat
  | [] => 0
  | sub :: rest => sub.bytes + bytesAll rest

end

/-- Bytes of a whole pattern with a number of capturing groups: the whole is a group of its own,
and one more state tells that it has matched. -/
def wholeBytes (e : Node) (groups : Nat) : Nat :=
  3 * stateBytes + e.bytes + groupBytes * (groups + 1)

end Docket.Pattern
