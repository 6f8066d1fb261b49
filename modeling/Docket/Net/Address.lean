/-!
Addresses of hosts, and their text. Of the forms of version 6 with one run of zero groups left out,
any is read, and the one that leaves out the first of the longest runs is written. A host that is
not an address is looked up in a table, exactly as written.
-/

set_option autoImplicit false
set_option relaxedAutoImplicit false

namespace Docket

inductive Address where
  | v4 (a b c d : UInt8)
  | v6 (groups : Vector UInt16 8)
  deriving DecidableEq

namespace Address

def pieces (separator : Char) : List Char → List (List Char)
  | [] => [[]]
  | c :: rest =>
    if c = separator then [] :: pieces separator rest
    else
      match pieces separator rest with
      | [] => [[c]]
      | piece :: more => (c :: piece) :: more

def octet? (ds : List Char) : Option UInt8 :=
  let n := ds.foldl (fun n c => n * 10 + (c.toNat - 48)) 0
  if !ds.isEmpty && ds.length ≤ 3 && ds.all Char.isDigit && (ds.head? != some '0' || ds.length == 1)
      && n < 256 then some (UInt8.ofNat n)
  else none

def octets? (cs : List Char) : Option (UInt8 × UInt8 × UInt8 × UInt8) :=
  match (pieces '.' cs).mapM octet? with
  | some [a, b, c, d] => some (a, b, c, d)
  | _ => none

def hexDigit? (c : Char) : Option Nat :=
  if c.isDigit then some (c.toNat - 48)
  else if 'a' ≤ c && c ≤ 'f' then some (c.toNat - 87)
  else if 'A' ≤ c && c ≤ 'F' then some (c.toNat - 55)
  else none

def group? (ds : List Char) : Option UInt16 :=
  if ds.isEmpty || 4 < ds.length then none
  else (ds.mapM hexDigit?).map fun ns => UInt16.ofNat (ns.foldl (fun n d => n * 16 + d) 0)

def joined (high low : UInt8) : UInt16 := UInt16.ofNat (high.toNat * 256 + low.toNat)

/-- Groups, of which the last two may be written as four octets; also tells whether they are. -/
def groups? : List (List Char) → Option (List UInt16 × Bool)
  | [] => some ([], false)
  | [last] =>
    match octets? last with
    | some (a, b, c, d) => some ([joined a b, joined c d], true)
    | none => (group? last).map fun g => ([g], false)
  | piece :: rest =>
    match group? piece, groups? rest with
    | some g, some (gs, octets) => some (g :: gs, octets)
    | _, _ => none

def section? (cs : List Char) : Option (List UInt16 × Bool) :=
  if cs.isEmpty then some ([], false) else groups? (pieces ':' cs)

def splitGap : List Char → Option (List Char × List Char)
  | ':' :: ':' :: rest => some ([], rest)
  | c :: rest => (splitGap rest).map fun (before, behind) => (c :: before, behind)
  | [] => none

def ofGroups? (gs : List UInt16) : Option Address :=
  if h : gs.length = 8 then some (.v6 ⟨gs.toArray, by simp [h]⟩) else none

/-- Reads an address of version 6. A double colon stands for at least one group of zero. -/
def readV6? (cs : List Char) : Option Address :=
  match splitGap cs with
  | none => (section? cs).bind fun (gs, _) => ofGroups? gs
  | some (before, behind) =>
    match section? before, section? behind with
    | some (front, false), some (back, _) =>
      if front.length + back.length ≤ 7 then
        ofGroups? (front ++ List.replicate (8 - front.length - back.length) 0 ++ back)
      else none
    | _, _ => none

def parse? (text : String) : Option Address :=
  match octets? text.toList with
  | some (a, b, c, d) => some (.v4 a b c d)
  | none => readV6? text.toList

def renderOctets (a b c d : UInt8) : String :=
  toString a.toNat ++ "." ++ toString b.toNat ++ "." ++ toString c.toNat ++ "." ++
    toString d.toNat

def zeros (gs : List UInt16) : Nat := (gs.takeWhile (· == 0)).length

/-- Where the first of the longest runs of zero groups starts, and its length. -/
def longestZeros (gs : List UInt16) : Nat × Nat :=
  (List.range gs.length).foldl (fun best i =>
    if best.2 < zeros (gs.drop i) then (i, zeros (gs.drop i)) else best) (0, 0)

def renderGroups (gs : List UInt16) : String :=
  ":".intercalate (gs.map fun g => String.ofList (Nat.toDigits 16 g.toNat))

/-- The text of eight groups. A single zero group is not left out. -/
def renderV6 (gs : List UInt16) : String :=
  match gs with
  | [0, 0, 0, 0, 0, 0xffff, high, low] =>
    "::ffff:" ++ renderOctets (UInt8.ofNat (high.toNat / 256)) (UInt8.ofNat high.toNat)
      (UInt8.ofNat (low.toNat / 256)) (UInt8.ofNat low.toNat)
  | gs =>
    let (start, length) := longestZeros gs
    if length ≤ 1 then renderGroups gs
    else renderGroups (gs.take start) ++ "::" ++ renderGroups (gs.drop (start + length))

def render : Address → String
  | .v4 a b c d => renderOctets a b c d
  | .v6 groups => renderV6 groups.toList

def unspecified : Address → Address
  | .v4 .. => .v4 0 0 0 0
  | .v6 _ => .v6 (Vector.replicate 8 0)

end Address

structure Endpoint where
  address : Address
  port : UInt16
  deriving DecidableEq

def Endpoint.render (e : Endpoint) : String :=
  match e.address with
  | .v4 .. => e.address.render ++ ":" ++ toString e.port.toNat
  | .v6 _ => "[" ++ e.address.render ++ "]:" ++ toString e.port.toNat

structure Hosts where
  table : List (String × List Address)

namespace Hosts

/-- The addresses of a name in the table. A name without addresses, or with a NUL in it, has
none. -/
def lookup (h : Hosts) (name : String) : List Address :=
  if name.toList.contains '\x00' then [] else (h.table.lookup name).getD []

def addresses (h : Hosts) (host : String) : List Address :=
  match Address.parse? host with
  | some a => [a]
  | none => h.lookup host

end Hosts

end Docket
