import Docket.Error
import Docket.Json.Order
import Docket.Pattern
import Docket.Store

/-!
Clauses of a search body, and which documents satisfy them. A list in a field satisfies a clause if
one of its items does.
-/

set_option autoImplicit false
set_option relaxedAutoImplicit false

namespace Docket

inductive Clause where
  | term (field : String) (expected : Json)
  | terms (field : String) (allowed : List Json)
  | range (field : String) (low high : Option Json)
  | regexp (field pattern : String)
  deriving DecidableEq

namespace Clause

/-- Field and argument of a clause of some kind: the first member of the object under the kind. -/
def part? (kind : String) (clause : Json) : Option (String × Json) :=
  (clause.get? kind).bind fun argument => argument.members?.bind List.head?

def ofJson? (clause : Json) : Option Clause :=
  match part? "term" clause with
  | some (field, expected) => some (.term field expected)
  | none =>
    match part? "terms" clause with
    | some (field, allowed) => some (.terms field (allowed.items?.getD []))
    | none =>
      match part? "range" clause with
      | some (field, bounds) => some (.range field (bounds.get? "gte") (bounds.get? "lte"))
      | none =>
        (part? "regexp" clause).map fun (field, pattern) =>
          .regexp field (pattern.string?.getD "")

def field : Clause → String
  | .term f _ => f
  | .terms f _ => f
  | .range f _ _ => f
  | .regexp f _ => f

def same (a b : Json) : Bool := a.compare b == .eq

def between (low high : Option Json) (v : Json) : Bool :=
  low.all (fun l => v.compare l != .lt) && high.all (fun h => v.compare h != .gt)

def refused (reason : String) : EngineError := .status 400 reason

/-- The test of a clause on a single value. A malformed pattern has none. -/
def test : Clause → Except EngineError (Json → Bool)
  | .term _ expected => .ok fun v => same v expected
  | .terms _ allowed => .ok fun v => allowed.any (same v)
  | .range _ low high => .ok (between low high)
  | .regexp _ pattern =>
    match Pattern.compile (Pattern.anchored pattern) with
    | .ok p => .ok fun v => v.string?.any p.occursIn
    | .error cause =>
      .error (refused ("invalid regexp '" ++ pattern ++ "': " ++ cause.message))

def accepts (c : Clause) (d : StoredDocument) : Except EngineError Bool :=
  c.test.map fun ok => (d.field? c.field).any fun v => v.asList.any ok

def holds (clause : Json) (d : StoredDocument) : Except EngineError Bool :=
  match ofJson? clause with
  | some c => c.accepts d
  | none => .error (refused ("unsupported clause: " ++ clause.text))

/-- Whether a document satisfies all clauses; the first one that fails ends the test. -/
def allHold : List Json → StoredDocument → Except EngineError Bool
  | [], _ => .ok true
  | clause :: rest, d =>
    match holds clause d with
    | .ok true => allHold rest d
    | other => other

def select (clauses : List Json) : List StoredDocument → Except EngineError (List StoredDocument)
  | [] => .ok []
  | d :: rest =>
    match allHold clauses d with
    | .error e => .error e
    | .ok keep => (select clauses rest).map fun found => if keep then d :: found else found

end Clause

end Docket
