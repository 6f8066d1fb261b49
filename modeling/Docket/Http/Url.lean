import Docket.Net.Address

/-!
URLs of requests: the host and the port that a request goes to, and the target it names there. A
fragment is not sent. In a segment of a path, letters, digits, `-`, `_`, `.` and `~` stand for
themselves; every other character is written byte by byte in UTF-8 as `%XX`, upper-case.
-/

set_option autoImplicit false
set_option relaxedAutoImplicit false

namespace Docket

namespace Percent

def isUnreserved (c : Char) : Bool :=
  ('a' ≤ c && c ≤ 'z') || ('A' ≤ c && c ≤ 'Z') || ('0' ≤ c && c ≤ '9') ||
    c = '-' || c = '_' || c = '.' || c = '~'

def hexDigit (n : Nat) : Char :=
  if n < 10 then Char.ofNat (48 + n) else Char.ofNat (55 + n)

def escapeByte (b : UInt8) : List Char :=
  ['%', hexDigit (b.toNat / 16), hexDigit (b.toNat % 16)]

def encodeChar (c : Char) : List Char :=
  if isUnreserved c then [c] else (String.utf8EncodeChar c).flatMap escapeByte

def encode (s : String) : String :=
  String.ofList (s.toList.flatMap encodeChar)

end Percent

structure Url where
  /-- A name, an address, or an address of version 6 in brackets. -/
  host : String
  port : UInt16
  target : String
  deriving DecidableEq

namespace Url

def isAuthorityChar (c : Char) : Bool :=
  c.isAlphanum || "!$&'()*+,-.:;=@[]_~".toList.contains c

/-- Characters of a path: a reader passes over few signs that ought to be encoded. -/
def isPathChar (c : Char) : Bool :=
  0x21 ≤ c.toNat && !"#<>?\x60".toList.contains c

def isQueryChar (c : Char) : Bool :=
  0x21 ≤ c.toNat && !"\"#<>".toList.contains c

/-- Whether an authority is well formed: user information before an at sign, brackets around an
address, at most one colon behind them, and a percent sign only inside or before them. The arguments
hold the colons and percent signs of the current part, and the brackets so far. -/
def isAuthority (colons : Nat) (percent opened closed : Bool) : List Char → Bool
  | [] => opened == closed && colons ≤ 1 && !percent
  | ':' :: rest => colons < 8 && isAuthority (colons + 1) percent opened closed rest
  | '[' :: rest => !percent && !opened && isAuthority colons percent true closed rest
  | ']' :: rest => opened && !closed && isAuthority 0 false opened true rest
  | '@' :: rest => !rest.isEmpty && isAuthority 0 false opened closed rest
  | '%' :: rest => isAuthority colons true opened closed rest
  | c :: rest => isAuthorityChar c && isAuthority colons percent opened closed rest

def behindLast (separator : Char) (cs : List Char) : List Char :=
  (cs.reverse.takeWhile (· != separator)).reverse

def hostOf (authority : List Char) : List Char :=
  match behindLast '@' authority with
  | '[' :: rest => '[' :: (rest.takeWhile (· != ']') ++ [']'])
  | cs => cs.takeWhile (· != ':')

def defaultPort : UInt16 := 80

/-- The port of an authority: what stands behind the last colon, if that is a port. -/
def portOf (authority : List Char) : UInt16 :=
  let ds := behindLast ':' authority
  let n := ds.foldl (fun n c => n * 10 + (c.toNat - 48)) 0
  if authority.contains ':' && !ds.isEmpty && ds.all Char.isDigit && n < 65536 then UInt16.ofNat n
  else defaultPort

/-- Path and query of what follows an authority, without the fragment. -/
def targetOf? (cs : List Char) : Option (List Char) :=
  let path := cs.takeWhile fun c => c != '?' && c != '#'
  let query := match cs.dropWhile fun c => c != '?' && c != '#' with
    | '?' :: rest => '?' :: rest.takeWhile (· != '#')
    | _ => []
  if path.all isPathChar && query.all isQueryChar then
    some (if path.isEmpty && query.isEmpty then ['/'] else path ++ query)
  else none

def maxBytes : Nat := 65534

def behindScheme? : List Char → Option (List Char)
  | 'h' :: 't' :: 't' :: 'p' :: ':' :: '/' :: '/' :: rest => some rest
  | _ => none

def parse? (text : String) : Option Url := do
  let rest ← if text.utf8ByteSize ≤ maxBytes then behindScheme? text.toList else none
  let isEnd (c : Char) : Bool := c == '/' || c == '?' || c == '#'
  let authority := rest.takeWhile fun c => !isEnd c
  let target ← targetOf? (rest.dropWhile fun c => !isEnd c)
  if !authority.isEmpty && isAuthority 0 false false false authority then
    pure ⟨String.ofList (hostOf authority), portOf authority, String.ofList target⟩
  else none

/-- The addresses of the host. An address of version 6 counts only in brackets. -/
def addresses (u : Url) (hosts : Hosts) : List Address :=
  match u.host.toList with
  | '[' :: rest =>
    match Address.readV6? rest.dropLast with
    | some a => [a]
    | none => hosts.lookup u.host
  | _ => hosts.addresses u.host

end Url

end Docket
