import Docket.Pattern.Blank
import Docket.Pattern.Cause
import Docket.Pattern.Node

/-!
Single characters of a pattern: literals, the dot, the anchors, and what follows a backslash.
-/

set_option autoImplicit false
set_option relaxedAutoImplicit false

namespace Docket.Pattern

structure Flags where
  ignoreCase : Bool := false
  multiLine : Bool := false
  dotAll : Bool := false
  crlf : Bool := false
  verbose : Bool := false

def Flags.literal (f : Flags) (c : Char) : Node :=
  if f.ignoreCase && c.isAlpha then .one (CharClass.foldCase (.ofChars [(c, c)])) else .char c

def Flags.dot (f : Flags) : Node :=
  if f.dotAll then .one (CharClass.complement ⟨[]⟩)
  else if f.crlf then .one (CharClass.ofChars [('\n', '\n'), ('\r', '\r')]).complement
  else .one (CharClass.ofChars [('\n', '\n')]).complement

def Flags.caret (f : Flags) : Node :=
  .look (if f.multiLine then (if f.crlf then .crlfStart else .lineStart) else .start)

def Flags.dollar (f : Flags) : Node :=
  .look (if f.multiLine then (if f.crlf then .crlfFinish else .lineFinish) else .finish)

def hexValue (c : Char) : Nat :=
  if c.isDigit then c.toNat - 48 else if c.toNat < 97 then c.toNat - 55 else c.toNat - 87

def isHexDigit (c : Char) : Bool :=
  c.isDigit || ('a' ≤ c && c ≤ 'f') || ('A' ≤ c && c ≤ 'F')

def codePoint? (ds : List Char) : Except Cause Char :=
  let n := ds.foldl (fun n c => n * 16 + hexValue c) 0
  if !ds.isEmpty && decide n.isValidChar then .ok (Char.ofNat n) else .error .badCodePoint

def byNumber (f : Flags) (width : Nat) (cs : List Char) : Except Cause (Node × List Char) :=
  match skipBlanks f.verbose cs with
  | '{' :: rest =>
    match takeWhileVisible f.verbose isHexDigit rest with
    | (ds, '}' :: rest) => (codePoint? ds).map fun c => (f.literal c, skipBlanks f.verbose rest)
    | _ => .error .badCodePoint
  | cs =>
    match takeVisible f.verbose isHexDigit width false cs with
    | (ds, rest) =>
      if ds.length = width then (codePoint? ds).map fun c => (f.literal c, rest)
      else .error .badCodePoint

def wordBoundary? (name : String) : Option Look :=
  [("start", Look.wordStart), ("end", Look.wordFinish), ("start-half", Look.wordStartHalf),
    ("end-half", Look.wordFinishHalf)].lookup name

/-- What follows a boundary sign: perhaps a name in braces. Braces that start otherwise are left
for a repetition. -/
def boundary (f : Flags) (cs : List Char) : Except Cause (Node × List Char) :=
  let isNameChar (c : Char) : Bool := c.isAlpha || c == '-'
  match cs with
  | '{' :: rest =>
    match takeWhileVisible f.verbose isNameChar rest with
    | (_, []) => .error .badWordBoundary
    | ([], _) => .ok (.look .wordBoundary, cs)
    | (name, '}' :: rest) =>
      match wordBoundary? (String.ofList name) with
      | some l => .ok (.look l, rest)
      | none => .error .badWordBoundary
    | _ => .error .badWordBoundary
  | _ => .ok (.look .wordBoundary, cs)

def letterClass? (c : Char) : Option CharClass :=
  match c with
  | 'd' => some (.ofChars CharClass.digit)
  | 's' => some (.ofChars CharClass.space)
  | 'w' => some (.ofChars CharClass.word)
  | 'D' => some (CharClass.ofChars CharClass.digit).complement
  | 'S' => some (CharClass.ofChars CharClass.space).complement
  | 'W' => some (CharClass.ofChars CharClass.word).complement
  | _ => none

def control? (c : Char) : Option Char :=
  [('a', '\x07'), ('f', '\x0c'), ('t', '\t'), ('n', '\n'), ('r', '\r'), ('v', '\x0b')].lookup c

def condition? (c : Char) : Option Look :=
  [('A', Look.start), ('z', Look.finish), ('B', Look.notWordBoundary), ('<', Look.wordStart),
    ('>', Look.wordFinish)].lookup c

/-- What stands after a backslash. ASCII signs stand for themselves; a letter without a meaning is
refused, as are digits and characters beyond ASCII. -/
def escape (f : Flags) : List Char → Except Cause (Node × List Char)
  | [] => .error .badEscape
  | 'x' :: rest => byNumber f 2 rest
  | 'u' :: rest => byNumber f 4 rest
  | 'U' :: rest => byNumber f 8 rest
  | 'b' :: rest => boundary f rest
  | 'p' :: _ => .error .unicodeClass
  | 'P' :: _ => .error .unicodeClass
  | c :: rest =>
    if c.isDigit then .error .backReference
    else
      match letterClass? c, control? c, condition? c with
      | some k, _, _ => .ok (.one k, rest)
      | none, some d, _ => .ok (f.literal d, rest)
      | none, none, some l => .ok (.look l, rest)
      | none, none, none =>
        if c.isAlpha || 128 ≤ c.toNat then .error .badEscape else .ok (f.literal c, rest)

end Docket.Pattern
