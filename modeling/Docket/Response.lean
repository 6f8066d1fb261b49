import Docket.Hit

/-!
Answers of a store to a search, and the results of queries made from them.
-/

set_option autoImplicit false
set_option relaxedAutoImplicit false

namespace Docket

/-- The number of matches, in the form in which the store gave it: bare, or under `value`. -/
inductive Total where
  | count (n : Nat)
  | object (n : Nat)
  deriving DecidableEq

namespace Total

def value : Total → Nat
  | .count n => n
  | .object n => n

def toJson : Total → Json
  | .count n => .ofNat n
  | .object n => .object [("value", .ofNat n)]

def default : Total := .count 0

/-- Reads a total. All that the object form holds must have a value, and only `value` counts. -/
def decode? {ν : Type} [Json.Node ν] (node : ν) : Option Total :=
  match Json.Node.value node, Json.Node.view node with
  | some _, some (.number _) => (Json.naturalOf? wordBound node).map .count
  | some _, some (.members members) =>
    ((Json.field? "value" members).bind (Json.required? (Json.naturalOf? wordBound))).map .object
  | _, _ => none

end Total

structure SearchResponse where
  scrollId : Option String
  total : Total
  hits : List Hit
  deriving DecidableEq

namespace SearchResponse

def empty : SearchResponse := ⟨none, .default, []⟩

def ofPage (total : Nat) (hits : List Hit) : SearchResponse := ⟨none, .count total, hits⟩

def toJson (r : SearchResponse) : Json :=
  .object (Hit.textMember "_scroll_id" r.scrollId ++
    [("hits", .object [("hits", .array (r.hits.map Hit.toJson)), ("total", r.total.toJson)])])

def decodeHits? {ν : Type} [Json.Node ν] (node : ν) : Option (Total × List Hit) :=
  match Json.fields? ["total", "hits"] node with
  | some [total, hits] => do
    let total ← Json.defaulted? Total.default Total.decode? total
    let hits ← Json.defaulted? [] (Json.listOf? Hit.decode?) hits
    pure (total, hits)
  | _ => none

def decode? {ν : Type} [Json.Node ν] (node : ν) : Option SearchResponse :=
  match Json.fields? ["_scroll_id", "hits"] node with
  | some [scrollId, hits] => do
    let scrollId ← Json.optional? Json.stringOf? scrollId
    let (total, hits) ← Json.defaulted? (Total.default, []) decodeHits? hits
    pure ⟨scrollId, total, hits⟩
  | _ => none

end SearchResponse

structure QueryResult where
  total : Nat
  hits : List Record
  deriving DecidableEq

namespace QueryResult

def empty : QueryResult := ⟨0, []⟩

def toJson (r : QueryResult) : Json :=
  .object [("hits", .array (r.hits.map .object)), ("total", .ofNat r.total)]

def decode? {ν : Type} [Json.Node ν] (node : ν) : Option QueryResult :=
  match Json.fields? ["total", "hits"] node with
  | some [total, hits] => do
    let total ← Json.required? (Json.naturalOf? wordBound) total
    let hits ← Json.required? (Json.listOf? Json.recordOf?) hits
    pure ⟨total, hits⟩
  | _ => none

end QueryResult

end Docket
