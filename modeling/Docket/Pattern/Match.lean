import Docket.Pattern.Node

/-!
Matching. The places of a text are the ones before, between and behind its characters. An expression
takes a set of places where a match may start to the set of places where it may then end; a set is a
list of truth values, one per place.
-/

set_option autoImplicit false
set_option relaxedAutoImplicit false

namespace Docket.Pattern

abbrev Places := List Bool

namespace Places

def union (a b : Places) : Places := List.zipWith (· || ·) a b

def inter (a b : Places) : Places := List.zipWith (· && ·) a b

def any (a : Places) : Bool := List.any a id

end Places

/-- A text, and for each place the characters before and behind it. -/
structure Subject where
  text : List Char
  around : List (Option Char × Option Char)

def neighbours (before : Option Char) : List Char → List (Option Char × Option Char)
  | [] => [(before, none)]
  | c :: rest => (before, some c) :: neighbours (some c) rest

def Subject.ofText (s : String) : Subject := ⟨s.toList, neighbours none s.toList⟩

def isWordChar (c : Char) : Bool := c.isAlphanum || c == '_'

def Look.holds (l : Look) (before after : Option Char) : Bool :=
  let wordBefore := before.any isWordChar
  let wordAfter := after.any isWordChar
  match l with
  | .start => before.isNone
  | .finish => after.isNone
  | .lineStart => before.all (· == '\n')
  | .lineFinish => after.all (· == '\n')
  | .crlfStart =>
    before.isNone || before == some '\n' || (before == some '\r' && after != some '\n')
  | .crlfFinish =>
    after.isNone || after == some '\r' || (after == some '\n' && before != some '\r')
  | .wordBoundary => wordBefore != wordAfter
  | .notWordBoundary => wordBefore == wordAfter
  | .wordStart => !wordBefore && wordAfter
  | .wordFinish => wordBefore && !wordAfter
  | .wordStartHalf => !wordBefore
  | .wordFinishHalf => !wordAfter

def stepOver (ok : Char → Bool) (text : List Char) (starts : Places) : Places :=
  false :: List.zipWith (fun c here => here && ok c) text starts

/-- Applies a step a number of times; from no place there is no way on. -/
def times (step : Places → Places) : Nat → Places → Places
  | 0, starts => starts
  | n + 1, starts => if starts.any then times step n (step starts) else starts

def upTo (step : Places → Places) : Nat → Places → Places
  | 0, starts => starts
  | n + 1, starts => if Places.any starts then starts.union (upTo step n (step starts)) else starts

/-- Adds what a step reaches until nothing new comes, at most `n` times. -/
def saturate (step : Places → Places) : Nat → Places → Places
  | 0, reached => reached
  | n + 1, reached =>
    let next := reached.union (step reached)
    if next = reached then reached else saturate step n next

mutual

/-- The places where a match of an expression ends, given where it may start. -/
def Node.reach (s : Subject) : Node → Places → Places
  | .empty, starts => starts
  | .char c, starts => stepOver (· == c) s.text starts
  | .one k, starts => stepOver k.contains s.text starts
  | .look l, starts => starts.inter (s.around.map fun p => l.holds p.1 p.2)
  | .repeated least most sub, starts =>
    let started := times (Node.reach s sub) least starts
    match most with
    | none => saturate (Node.reach s sub) (s.text.length + 1) started
    | some most => upTo (Node.reach s sub) (most - least) started
  | .group sub, starts => Node.reach s sub starts
  | .sequence subs, starts => reachThrough s subs starts
  | .choice subs, starts => reachAny s subs starts

def reachThrough (s : Subject) : List Node → Places → Places
  | [], starts => starts
  | sub :: rest, starts => reachThrough s rest (Node.reach s sub starts)

def reachAny (s : Subject) : List Node → Places → Places
  | [], starts => starts.map fun _ => false
  | sub :: rest, starts => (Node.reach s sub starts).union (reachAny s rest starts)

end

def Node.occursIn (e : Node) (text : String) : Bool :=
  let s := Subject.ofText text
  (e.reach s (s.around.map fun _ => true)).any

end Docket.Pattern
