import Docket.Json.Decode
import Docket.Json.Order
import Docket.Query.Sort

/-!
Hits: matched documents as a store returns them. A hit carries the whole record, or a projection in
which every value is a list; `Hit.normalize` makes a plain record of either.
-/

set_option autoImplicit false
set_option relaxedAutoImplicit false

namespace Docket

structure Hit where
  index : Option String
  docType : Option String
  id : Option String
  source : Option Record
  fields : Option Record
  deriving DecidableEq

namespace Hit

def empty : Hit := ⟨none, none, none, none, none⟩

def ofSource (r : Record) : Hit := { empty with source := some r }

def ofFields (r : Record) : Hit := { empty with fields := some r }

/-- The scalar that stands for a projected value when sorting: the first item of a list. -/
def firstOf : Json → Json
  | .array (v :: _) => v
  | .array [] => .null
  | v => v

/-- The value a hit is sorted by, null when it has none. A whole record is read before a
projection. -/
def sortValue (h : Hit) (key : String) : Json :=
  match h.source with
  | some r => (r.get? key).getD .null
  | none => ((h.fields.bind fun r => r.get? key).map firstOf).getD .null

/-- A projected value as a record holds it: a list of one is its item. -/
def unwrap : Json → Json
  | .array [v] => v
  | v => v

def normalize (h : Hit) : Record :=
  match h.fields with
  | some r => r.map fun m => (m.1, unwrap m.2)
  | none => h.source.getD []

def compareBy (k : SortKey) (a b : Hit) : Ordering :=
  k.order.apply ((a.sortValue k.field).compare (b.sortValue k.field))

def sortBy (hits : List Hit) (k : SortKey) : List Hit :=
  stableSort (compareBy k) hits

def textMember (key : String) (s : Option String) : List (String × Json) :=
  (s.map fun s => (key, .string s)).toList

def recordMember (key : String) (r : Option Record) : List (String × Json) :=
  (r.map fun r => (key, .object r)).toList

def toJson (h : Hit) : Json :=
  .object (textMember "_id" h.id ++ textMember "_index" h.index ++
    recordMember "_source" h.source ++ textMember "_type" h.docType ++
    recordMember "fields" h.fields)

def decode? {ν : Type} [Json.Node ν] (node : ν) : Option Hit :=
  match Json.fields? ["_index", "_type", "_id", "_source", "fields"] node with
  | some [index, docType, id, source, fields] => do
    pure {
      index := ← Json.optional? Json.stringOf? index
      docType := ← Json.optional? Json.stringOf? docType
      id := ← Json.optional? Json.stringOf? id
      source := ← Json.optional? Json.recordOf? source
      fields := ← Json.optional? Json.recordOf? fields }
  | _ => none

end Hit

end Docket
