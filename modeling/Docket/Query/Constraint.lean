import Docket.Json

/-!
Constraints of a query and the clauses they become. A clause is an object with one key, the kind of
the clause, over an object with one key, the field.
-/

set_option autoImplicit false
set_option relaxedAutoImplicit false

namespace Docket

inductive Constraint where
  | equality (field : String) (value : Json)
  /-- The field is not below `low` and not above `high`; an absent bound does not bind. -/
  | range (field : String) (low high : Option Json)
  | regex (field pattern : String)
  | batch (field : String) (values : List Json)
  deriving DecidableEq

namespace Constraint

def field : Constraint → String
  | .equality f _ => f
  | .range f _ _ => f
  | .regex f _ => f
  | .batch f _ => f

/-- Whether the constraint says nothing: its field has no name, or its range has no bound. -/
def isTrivial : Constraint → Bool
  | .range _ none none => true
  | c => c.field == ""

def bounds (low high : Option Json) : List (String × Json) :=
  (low.map fun v => ("gte", v)).toList ++ (high.map fun v => ("lte", v)).toList

def kindArgument : Constraint → String × Json
  | .equality _ v => ("term", v)
  | .batch _ vs => ("terms", .array vs)
  | .range _ low high => ("range", .object (bounds low high))
  | .regex _ pattern => ("regexp", .string pattern)

def clause? (c : Constraint) : Option Json :=
  if c.isTrivial then none
  else some (.object [(c.kindArgument.1, .object [(c.field, c.kindArgument.2)])])

end Constraint

end Docket
