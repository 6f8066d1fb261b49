import Docket.Query.Constraint
import Docket.Query.Sort

/-!
Queries ready to be executed, and the three request bodies made from one: the first page, the
recount of the matches, and the stream of all of them. The three differ in size and sort alone.
-/

set_option autoImplicit false
set_option relaxedAutoImplicit false

namespace Docket

structure Query where
  fields : Option (List String)
  constraints : List Constraint
  size : UInt64
  sort : Option (List SortKey)
  /-- Whether every match is wanted when the first page falls short. -/
  fetchAll : Bool
  deriving DecidableEq

namespace Query

def defaultSize : UInt64 := 10000

def scrollSize : Nat := 50000

def clauses (q : Query) : List Json := q.constraints.filterMap Constraint.clause?

def selection (q : Query) : Json :=
  .object [("bool", .object [("must", .array q.clauses)])]

def fieldsMember (q : Query) : List (String × Json) :=
  (q.fields.map fun fs => ("fields", .array (fs.map .string))).toList

def sortMember (q : Query) : List (String × Json) :=
  (q.sort.map fun ks => ("sort", .array (ks.map SortKey.toJson))).toList

def sizedBody (q : Query) (size : UInt64) : Json :=
  .object (q.fieldsMember ++ [("query", q.selection), ("size", .ofUInt64 size)] ++ q.sortMember)

def body (q : Query) : Json := q.sizedBody q.size

/-- The request that counts the matches again: a page of one hit. -/
def countBody (q : Query) : Json := q.sizedBody 1

/-- The request for the stream of all matches: neither size nor sort. -/
def scanBody (q : Query) : Json :=
  .object (q.fieldsMember ++ [("query", q.selection)])

end Query

end Docket
