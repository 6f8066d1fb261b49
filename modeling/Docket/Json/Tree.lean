import Docket.Number.Literal
import Docket.Record

/-!
JSON text as a tree of what was written. The tree keeps repeated keys, number literals and string
escapes as they stand, so that grammar is decided here and meaning afterwards: `Json.ofTree?` gives
the value of a tree, with a bound on nesting, the last of a repeated key winning.
-/

set_option autoImplicit false
set_option relaxedAutoImplicit false

namespace Docket.Json

open Quoted (Piece)

/-- What a JSON text says, before numbers and strings are given their values. -/
inductive Tree where
  | null
  | bool (b : Bool)
  | number (l : Number.Literal)
  | string (pieces : List Piece)
  | array (items : List Tree)
  | object (members : List (List Piece × Tree))

namespace Tree

def isBlank (c : Char) : Bool := c = ' ' || c = '\t' || c = '\n' || c = '\r'

def skipBlanks : List Char → List Char
  | [] => []
  | c :: rest => if isBlank c then skipBlanks rest else c :: rest

def isDigit (c : Char) : Bool := '0' ≤ c && c ≤ '9'

def digits? (cs : List Char) : Option (List Char × List Char) :=
  match cs.span isDigit with
  | ([], _) => none
  | split => some split

/-- Digits before the point: no zero stands before another digit. -/
def whole? (cs : List Char) : Option (List Char × List Char) :=
  match digits? cs with
  | some ('0' :: _ :: _, _) => none
  | split => split

def fraction? : List Char → Option (Option (List Char) × List Char)
  | '.' :: rest => (digits? rest).map fun (ds, rest) => (some ds, rest)
  | cs => some (none, cs)

def signedDigits? : List Char → Option ((Bool × List Char) × List Char)
  | '+' :: rest => (digits? rest).map fun (ds, rest) => ((false, ds), rest)
  | '-' :: rest => (digits? rest).map fun (ds, rest) => ((true, ds), rest)
  | cs => (digits? cs).map fun (ds, rest) => ((false, ds), rest)

def exponent? : List Char → Option (Option (Bool × List Char) × List Char)
  | 'e' :: rest => (signedDigits? rest).map fun (x, rest) => (some x, rest)
  | 'E' :: rest => (signedDigits? rest).map fun (x, rest) => (some x, rest)
  | cs => some (none, cs)

def literal? (cs : List Char) : Option (Number.Literal × List Char) := do
  let (negative, cs) := match cs with
    | '-' :: rest => (true, rest)
    | cs => (false, cs)
  let (whole, cs) ← whole? cs
  let (fraction, cs) ← fraction? cs
  let (exponent, cs) ← exponent? cs
  pure (⟨negative, whole, fraction, exponent⟩, cs)

def key? (cs : List Char) : Option (List Piece × List Char) :=
  match skipBlanks cs with
  | '"' :: rest =>
    match Quoted.pieces? [] rest with
    | some (key, rest) =>
      match skipBlanks rest with
      | ':' :: rest => some (key, rest)
      | _ => none
    | none => none
  | _ => none

mutual

/-- A tree, and what follows it; `fuel` bounds the steps, one per bracket, comma and value. -/
def parse : Nat → List Char → Option (Tree × List Char)
  | 0, _ => none
  | fuel + 1, cs =>
    match skipBlanks cs with
    | 'n' :: 'u' :: 'l' :: 'l' :: rest => some (.null, rest)
    | 't' :: 'r' :: 'u' :: 'e' :: rest => some (.bool true, rest)
    | 'f' :: 'a' :: 'l' :: 's' :: 'e' :: rest => some (.bool false, rest)
    | '"' :: rest => (Quoted.pieces? [] rest).map fun (ps, rest) => (.string ps, rest)
    | '[' :: rest =>
      match skipBlanks rest with
      | ']' :: rest => some (.array [], rest)
      | rest => (parseItems fuel [] rest).map fun (xs, rest) => (.array xs, rest)
    | '{' :: rest =>
      match skipBlanks rest with
      | '}' :: rest => some (.object [], rest)
      | rest => (parseMembers fuel [] rest).map fun (ms, rest) => (.object ms, rest)
    | cs => (literal? cs).map fun (l, rest) => (.number l, rest)

def parseItems : Nat → List Tree → List Char → Option (List Tree × List Char)
  | 0, _, _ => none
  | fuel + 1, seen, cs =>
    match parse fuel cs with
    | none => none
    | some (t, rest) =>
      match skipBlanks rest with
      | ',' :: rest => parseItems fuel (t :: seen) rest
      | ']' :: rest => some ((t :: seen).reverse, rest)
      | _ => none

def parseMembers :
    Nat → List (List Piece × Tree) → List Char → Option (List (List Piece × Tree) × List Char)
  | 0, _, _ => none
  | fuel + 1, seen, cs =>
    match key? cs with
    | none => none
    | some (key, rest) =>
      match parse fuel rest with
      | none => none
      | some (t, rest) =>
        match skipBlanks rest with
        | ',' :: rest => parseMembers fuel ((key, t) :: seen) rest
        | '}' :: rest => some (((key, t) :: seen).reverse, rest)
        | _ => none

end

def ofChars? (cs : List Char) : Option Tree :=
  match parse (cs.length + 1) cs with
  | some (t, rest) => if (skipBlanks rest).isEmpty then some t else none
  | none => none

def ofText? (text : String) : Option Tree := ofChars? text.toList

end Tree

def depthLimit : Nat := 127

mutual

/-- The value of a tree whose lists and objects nest at most `depth` levels. -/
def ofTree? (depth : Nat) : Tree → Option Json
  | .null => some .null
  | .bool b => some (.bool b)
  | .number l => l.number?.map .number
  | .string ps => (Quoted.string? ps).map .string
  | .array items =>
    match depth with
    | 0 => none
    | depth + 1 => (ofItems? depth items).map .array
  | .object members =>
    match depth with
    | 0 => none
    | depth + 1 => (ofMembers? depth members).map fun ms => .object (Record.ofList ms)

def ofItems? (depth : Nat) : List Tree → Option (List Json)
  | [] => some []
  | t :: rest =>
    match ofTree? depth t, ofItems? depth rest with
    | some v, some vs => some (v :: vs)
    | _, _ => none

def ofMembers? (depth : Nat) : List (List Piece × Tree) → Option (List (String × Json))
  | [] => some []
  | (key, t) :: rest =>
    match Quoted.string? key, ofTree? depth t, ofMembers? depth rest with
    | some k, some v, some ms => some ((k, v) :: ms)
    | _, _, _ => none

end

def read? (text : String) (depth : Nat) : Option Json :=
  (Tree.ofText? text).bind (ofTree? depth)

def ofText? (text : String) : Option Json := read? text depthLimit

end Docket.Json
