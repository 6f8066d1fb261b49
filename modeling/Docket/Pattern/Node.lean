import Docket.Pattern.CharClass

/-!
Patterns after reading: what remains of a regular expression once its flags are worked in.
-/

set_option autoImplicit false
set_option relaxedAutoImplicit false

namespace Docket.Pattern

/-- A condition on the place between two characters. A word character is an ASCII letter, a digit or
the underscore. -/
inductive Look where
  | start
  | finish
  | lineStart
  | lineFinish
  /-- As `lineStart`, where a carriage return and a line feed together end a line. -/
  | crlfStart
  | crlfFinish
  | wordBoundary
  | notWordBoundary
  | wordStart
  | wordFinish
  | wordStartHalf
  | wordFinishHalf
  deriving DecidableEq

/-- A regular expression. How greedy a repetition is does not matter for what matches. -/
inductive Node where
  | empty
  | char (c : Char)
  | one (k : CharClass)
  | look (l : Look)
  | repeated (least : Nat) (most : Option Nat) (sub : Node)
  | group (sub : Node)
  | sequence (subs : List Node)
  | choice (subs : List Node)

namespace Node

def ofSequence : List Node → Node
  | [] => .empty
  | [sub] => sub
  | subs => .sequence subs

def ofChoice : List Node → Node
  | [] => .one ⟨[]⟩
  | [sub] => sub
  | subs => .choice subs

/-- A repetition; zero times is the empty expression, once is the part. -/
def ofRepetition (least : Nat) (most : Option Nat) (sub : Node) : Node :=
  if most = some 0 then .empty
  else if least = 1 ∧ most = some 1 then sub
  else .repeated least most sub

mutual

def depth : Node → Nat
  | .empty | .char _ | .one _ | .look _ => 0
  | .repeated _ _ sub => sub.depth + 1
  | .group sub => sub.depth + 1
  | .sequence subs => depthAll subs + 1
  | .choice subs => depthAll subs + 1

def depthAll : List Node → Nat
  | [] => 0
  | sub :: rest => max sub.depth (depthAll rest)

end

mutual

/-- Whether an expression can match nothing, where every condition counts as met. -/
def nullable : Node → Bool
  | .empty | .look _ => true
  | .char _ | .one _ => false
  | .repeated least _ sub => least == 0 || sub.nullable
  | .group sub => sub.nullable
  | .sequence subs => allNullable subs
  | .choice subs => anyNullable subs

def allNullable : List Node → Bool
  | [] => true
  | sub :: rest => sub.nullable && allNullable rest

def anyNullable : List Node → Bool
  | [] => false
  | sub :: rest => sub.nullable || anyNullable rest

end

end Node

end Docket.Pattern
