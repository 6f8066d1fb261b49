import Docket.Json

/-!
A total order of JSON values. Values of different kinds are ordered by kind; strings by their
characters, lists item by item, objects by their compact text, and numbers exactly when both are
signed words and as doubles otherwise.
-/

set_option autoImplicit false
set_option relaxedAutoImplicit false

namespace Docket.Json

def kindRank : Json → Nat
  | .null => 0
  | .bool _ => 1
  | .number _ => 2
  | .string _ => 3
  | .array _ => 4
  | .object _ => 5

mutual

def compare : Json → Json → Ordering
  | .bool a, .bool b => Ord.compare a b
  | .number a, .number b => a.compare b
  | .string a, .string b => Ord.compare a b
  | .array as, .array bs => compareItems as bs
  | .object as, .object bs => Ord.compare (text (.object as)) (text (.object bs))
  | a, b => Ord.compare a.kindRank b.kindRank

/-- The order of two lists: the first difference decides, else the longer list is greater. -/
def compareItems : List Json → List Json → Ordering
  | [], [] => .eq
  | [], _ :: _ => .lt
  | _ :: _, [] => .gt
  | a :: as, b :: bs => (compare a b).then (compareItems as bs)

end

end Docket.Json
