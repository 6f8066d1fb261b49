import Docket.Pattern.Escape

/-!
Classes in brackets.
-/

set_option autoImplicit false
set_option relaxedAutoImplicit false

namespace Docket.Pattern

abbrev Ranges := List (Nat × Nat)

def single (c : Char) : Nat × Nat := (c.toNat, c.toNat)

def classItem (f : Flags) : List Char → Except Cause (Node × List Char)
  | [] => .error .unclosedClass
  | '\\' :: rest => escape f rest
  | c :: rest => .ok (.char c, rest)

def itemRanges : Node → Except Cause Ranges
  | .char c => .ok [single c]
  | .one k => .ok k.ranges
  | _ => .error .badClassItem

def itemBound : Node → Except Cause Char
  | .char c => .ok c
  | _ => .error .badClassRange

/-- An item or a range of items. A dash before another dash or the closing bracket makes no
range. -/
def classRange (f : Flags) (cs : List Char) : Except Cause (Ranges × List Char) := do
  let (first, rest) ← classItem f cs
  match skipBlanks f.verbose rest with
  | [] => .error .unclosedClass
  | '-' :: rest =>
    let ahead := glance f.verbose rest
    if ahead = some ']' || ahead = some '-' then pure (← itemRanges first, '-' :: rest)
    else
      let (second, rest) ← classItem f (skipBlanks f.verbose rest)
      let low ← itemBound first
      let high ← itemBound second
      if low ≤ high then pure ([(low.toNat, high.toNat)], rest) else .error .badClassRange
  | rest => pure (← itemRanges first, rest)

/-- A named class that starts at `[:`, given what follows the bracket. -/
def namedClass? (cs : List Char) : Option (Ranges × List Char) :=
  match cs with
  | ':' :: rest =>
    let (negated, rest) := match rest with
      | '^' :: rest => (true, rest)
      | rest => (false, rest)
    match rest.dropWhile (· != ':') with
    | ':' :: ']' :: after =>
      (CharClass.ofName? (String.ofList (rest.takeWhile (· != ':')))).map fun ranges =>
        let k := CharClass.ofChars ranges
        ((if negated then k.complement else k).ranges, after)
    | _ => none
  | _ => none

def classItems (f : Flags) : Nat → Ranges → List Char → Except Cause (Ranges × List Char)
  | 0, _, _ => .error .unfinished
  | fuel + 1, seen, cs =>
    match skipBlanks f.verbose cs with
    | [] => .error .unclosedClass
    | ']' :: rest => .ok (seen, rest)
    | '[' :: rest =>
      match namedClass? rest with
      | some (ranges, rest) => classItems f fuel (seen ++ ranges) rest
      | none => .error .nestedClass
    | '&' :: '&' :: _ => .error .classOperator
    | '-' :: '-' :: _ => .error .classOperator
    | '~' :: '~' :: _ => .error .classOperator
    | cs =>
      match classRange f cs with
      | .ok (ranges, rest) => classItems f fuel (seen ++ ranges) rest
      | .error e => .error e

/-- Dashes at the start of a class, or else a closing bracket there, stand for themselves. -/
def classStart (f : Flags) (cs : List Char) : Ranges × List Char :=
  match takeWhileVisible f.verbose (· == '-') cs with
  | ([], ']' :: rest) => ([single ']'], rest)
  | (dashes, rest) => (dashes.map single, rest)

def bracket (f : Flags) (cs : List Char) : Except Cause (Node × List Char) := do
  let (negated, cs) := match skipBlanks f.verbose cs with
    | '^' :: rest => (true, rest)
    | rest => (false, rest)
  let (seen, cs) := classStart f cs
  let (ranges, rest) ← classItems f (cs.length + 1) seen cs
  let k := CharClass.ofRanges ranges
  let k := if f.ignoreCase then k.foldCase else k
  pure (.one (if negated then k.complement else k), rest)

end Docket.Pattern
