/-!
Quoted strings of JSON text. Writing escapes the quote, the backslash and the characters below the
space, and nothing else. Reading keeps escaped UTF-16 units apart from written characters, because
whether the units pair up only matters once the string is used.
-/

set_option autoImplicit false
set_option relaxedAutoImplicit false

namespace Docket.Json.Quoted

def hexDigit (n : Nat) : Char :=
  if n < 10 then Char.ofNat (48 + n) else Char.ofNat (87 + n)

def escape (c : Char) : List Char :=
  if c = '"' then ['\\', '"']
  else if c = '\\' then ['\\', '\\']
  else if c = '\n' then ['\\', 'n']
  else if c = '\r' then ['\\', 'r']
  else if c = '\t' then ['\\', 't']
  else if c.toNat = 8 then ['\\', 'b']
  else if c.toNat = 12 then ['\\', 'f']
  else if c.toNat < 32 then ['\\', 'u', '0', '0', hexDigit (c.toNat / 16), hexDigit (c.toNat % 16)]
  else [c]

def render (s : String) : List Char :=
  '"' :: (s.toList.flatMap escape ++ ['"'])

/-- A piece of a string as written: a character, or an escaped UTF-16 unit. -/
inductive Piece where
  | char (c : Char)
  | unit (code : Nat)
  deriving DecidableEq

def hexValue? (c : Char) : Option Nat :=
  if '0' ≤ c ∧ c ≤ '9' then some (c.toNat - 48)
  else if 'a' ≤ c ∧ c ≤ 'f' then some (c.toNat - 87)
  else if 'A' ≤ c ∧ c ≤ 'F' then some (c.toNat - 55)
  else none

def unit? (a b c d : Char) : Option Nat := do
  let a ← hexValue? a
  let b ← hexValue? b
  let c ← hexValue? c
  let d ← hexValue? d
  pure (((a * 16 + b) * 16 + c) * 16 + d)

def escaped? (c : Char) : Option Char :=
  if c = '"' ∨ c = '\\' ∨ c = '/' then some c
  else if c = 'b' then some (Char.ofNat 8)
  else if c = 'f' then some (Char.ofNat 12)
  else if c = 'n' then some '\n'
  else if c = 'r' then some '\r'
  else if c = 't' then some '\t'
  else none

/-- The pieces up to the closing quote, and what follows it; `seen` holds earlier pieces, latest
first. Raw characters below the space are refused. -/
def pieces? (seen : List Piece) : List Char → Option (List Piece × List Char)
  | [] => none
  | '"' :: rest => some (seen.reverse, rest)
  | '\\' :: 'u' :: a :: b :: c :: d :: rest =>
    match unit? a b c d with
    | some code => pieces? (.unit code :: seen) rest
    | none => none
  | '\\' :: e :: rest =>
    match escaped? e with
    | some c => pieces? (.char c :: seen) rest
    | none => none
  | c :: rest =>
    if c.toNat < 32 ∨ c = '\\' then none else pieces? (.char c :: seen) rest

def isLead (code : Nat) : Bool := 0xD800 ≤ code && code ≤ 0xDBFF

def isTrail (code : Nat) : Bool := 0xDC00 ≤ code && code ≤ 0xDFFF

/-- The characters the pieces stand for; `seen` holds earlier characters, latest first. Surrogates
must come in pairs. -/
def chars? (seen : List Char) : List Piece → Option (List Char)
  | [] => some seen.reverse
  | .char c :: rest => chars? (c :: seen) rest
  | .unit lead :: .unit trail :: rest =>
    if isLead lead then
      if isTrail trail then
        chars? (Char.ofNat (0x10000 + (lead - 0xD800) * 1024 + (trail - 0xDC00)) :: seen) rest
      else none
    else if isTrail lead then none
    else chars? (Char.ofNat lead :: seen) (.unit trail :: rest)
  | .unit code :: rest =>
    if isLead code || isTrail code then none else chars? (Char.ofNat code :: seen) rest

def string? (ps : List Piece) : Option String :=
  (chars? [] ps).map String.ofList

end Docket.Json.Quoted
