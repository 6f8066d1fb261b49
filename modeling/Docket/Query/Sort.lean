import Docket.Json.Decode

/-!
Sort keys of a query, which are a field and a direction, and the sort.

The sort is stable: elements are placed one after the other, each after the last placed element that
is not greater, so elements that compare equal keep their order. It is the sort of the program for
comparators that are total preorders on the elements, and results that depend on the order assume
this. For any other comparator the order that the program leaves is not specified, and sorting may
fail altogether; comparing JSON values is not transitive everywhere, so it can be such a one.
-/

set_option autoImplicit false
set_option relaxedAutoImplicit false

namespace Docket

inductive SortOrder where
  | asc
  | desc
  deriving DecidableEq

namespace SortOrder

def default : SortOrder := .asc

def name : SortOrder → String
  | .asc => "asc"
  | .desc => "desc"

def ofName? (s : String) : Option SortOrder :=
  if s = "asc" then some .asc else if s = "desc" then some .desc else none

def decode? {ν : Type} [Json.Node ν] (node : ν) : Option SortOrder :=
  Json.nameOf? ofName? node

/-- The order of two things in this direction, given their ascending order. -/
def apply : SortOrder → Ordering → Ordering
  | .asc, o => o
  | .desc, o => o.swap

end SortOrder

structure SortKey where
  field : String
  order : SortOrder
  deriving DecidableEq

def SortKey.toJson (k : SortKey) : Json :=
  .object [(k.field, .string k.order.name)]

section Sorting

variable {α : Type}

/-- Places an element among placed ones, which are held from the last to the first. -/
def placeFromEnd (order : α → α → Ordering) (x : α) : List α → List α
  | [] => [x]
  | last :: before =>
    if order x last = .lt then last :: placeFromEnd order x before else x :: last :: before

/-- Sorts by an order; ties keep their order. -/
def stableSort (order : α → α → Ordering) (xs : List α) : List α :=
  (xs.foldl (fun placed x => placeFromEnd order x placed) []).reverse

end Sorting

end Docket
