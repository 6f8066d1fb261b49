/-!
Classes of characters, as ranges of code points. A class made of ranges holds them in increasing
order, with overlapping and neighbouring ones merged; the number of ranges is what a class weighs.
-/

set_option autoImplicit false
set_option relaxedAutoImplicit false

namespace Docket

/-- Ranges of code points, both ends included. -/
structure CharClass where
  ranges : List (Nat × Nat)
  deriving DecidableEq

namespace CharClass

def place (r : Nat × Nat) : List (Nat × Nat) → List (Nat × Nat)
  | [] => [r]
  | s :: rest => if r.1 ≤ s.1 then r :: s :: rest else s :: place r rest

def mergeInto (r : Nat × Nat) : List (Nat × Nat) → List (Nat × Nat)
  | [] => [r]
  | s :: rest =>
    if s.1 ≤ r.2 + 1 then mergeInto (r.1, max r.2 s.2) rest else r :: mergeInto s rest

def canonical (rs : List (Nat × Nat)) : List (Nat × Nat) :=
  match rs.foldr place [] with
  | [] => []
  | r :: rest => mergeInto r rest

def ofRanges (rs : List (Nat × Nat)) : CharClass := ⟨canonical rs⟩

def ofChars (rs : List (Char × Char)) : CharClass :=
  ofRanges (rs.map fun r => (r.1.toNat, r.2.toNat))

def contains (k : CharClass) (c : Char) : Bool :=
  k.ranges.any fun r => r.1 ≤ c.toNat && c.toNat ≤ r.2

def lastCode : Nat := 0x10FFFF

def gaps (start : Nat) : List (Nat × Nat) → List (Nat × Nat)
  | [] => if start ≤ lastCode then [(start, lastCode)] else []
  | r :: rest => if start < r.1 then (start, r.1 - 1) :: gaps (r.2 + 1) rest
    else gaps (r.2 + 1) rest

def complement (k : CharClass) : CharClass := ⟨gaps 0 k.ranges⟩

/-- A range in the other case: its lower-case part if it has one, else its upper-case part. -/
def otherCase? (r : Nat × Nat) : Option (Nat × Nat) :=
  let within (low high : Nat) : Option (Nat × Nat) :=
    if max low r.1 ≤ min high r.2 then some (max low r.1, min high r.2) else none
  match within 97 122, within 65 90 with
  | some s, _ => some (s.1 - 32, s.2 - 32)
  | none, some s => some (s.1 + 32, s.2 + 32)
  | none, none => none

def foldCase (k : CharClass) : CharClass :=
  ofRanges (k.ranges ++ k.ranges.filterMap otherCase?)

def digit : List (Char × Char) := [('0', '9')]

def word : List (Char × Char) := [('0', '9'), ('A', 'Z'), ('_', '_'), ('a', 'z')]

def space : List (Char × Char) := [('\t', '\r'), (' ', ' ')]

def ofName? (name : String) : Option (List (Char × Char)) :=
  [("alnum", [('0', '9'), ('A', 'Z'), ('a', 'z')]),
    ("alpha", [('A', 'Z'), ('a', 'z')]),
    ("ascii", [('\x00', '\x7f')]),
    ("blank", [('\t', '\t'), (' ', ' ')]),
    ("cntrl", [('\x00', '\x1f'), ('\x7f', '\x7f')]),
    ("digit", digit),
    ("graph", [('!', '~')]),
    ("lower", [('a', 'z')]),
    ("print", [(' ', '~')]),
    ("punct", [('!', '/'), (':', '@'), ('[', '\x60'), ('{', '~')]),
    ("space", space),
    ("upper", [('A', 'Z')]),
    ("word", word),
    ("xdigit", [('0', '9'), ('A', 'F'), ('a', 'f')])].lookup name

end CharClass

end Docket
