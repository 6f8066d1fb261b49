import Docket.Response
import Docket.Store.Clause

/-!
Answering search bodies from stored documents: selection, order and rendering.
-/

set_option autoImplicit false
set_option relaxedAutoImplicit false

namespace Docket

namespace SearchBody

def defaultSize : Nat := 10

def clauses (body : Json) : Except EngineError (List Json) :=
  match ((body.get? "query").bind (Json.get? "bool")).bind (Json.get? "must") with
  | none => .ok []
  | some (.array clauses) => .ok clauses
  | some other => .error (Clause.refused ("must is not a list: " ++ other.text))

/-- A sort key: a field name, which sorts ascending, or an object of a field and its direction. -/
def sortKey? : Json → Option SortKey
  | .string field => some ⟨field, .asc⟩
  | .object ((field, direction) :: _) =>
    some ⟨field, if direction.string? = some SortOrder.desc.name then .desc else .asc⟩
  | _ => none

def sortKeys (body : Json) : List SortKey :=
  (((body.get? "sort").bind Json.items?).getD []).filterMap sortKey?

def size (body : Json) : Nat :=
  ((body.get? "size").bind Json.unsigned?).getD defaultSize

def fields? (body : Json) : Option (List String) :=
  ((body.get? "fields").bind Json.items?).map fun names => names.filterMap Json.string?

end SearchBody

namespace StoredDocument

def sortValue (d : StoredDocument) (field : String) : Json := (d.field? field).getD .null

def compareBy (k : SortKey) (a b : StoredDocument) : Ordering :=
  k.order.apply ((a.sortValue k.field).compare (b.sortValue k.field))

/-- The order of two documents: the first key that tells them apart decides. -/
def compareByAll (a b : StoredDocument) : List SortKey → Ordering
  | [] => .eq
  | k :: rest => (compareBy k a b).then (compareByAll a b rest)

def sortByAll (keys : List SortKey) (docs : List StoredDocument) : List StoredDocument :=
  stableSort (fun a b => compareByAll a b keys) docs

/-- The fields of a projection that a document has, each value as a list. -/
def project (d : StoredDocument) (names : List String) : Record :=
  names.foldl (fun r name =>
    match d.field? name with
    | some v => r.insert name (.array v.asList)
    | none => r) []

def toHit (d : StoredDocument) (index : String) (fields : Option (List String)) : Hit :=
  let hit := match fields with
    | some names => Hit.ofFields (d.project names)
    | none => Hit.ofSource d.source
  { hit with index := some index, docType := some d.docType, id := some d.id }

end StoredDocument

namespace Store

def matching (s : Store) (index : String) (body : Json) :
    Except EngineError (List StoredDocument) :=
  match s.documents? index with
  | none => .error (.indexNotFound index)
  | some docs => do
    let clauses ← SearchBody.clauses body
    let found ← Clause.select clauses docs
    pure (StoredDocument.sortByAll (SearchBody.sortKeys body) found)

def hits (s : Store) (index : String) (body : Json) : Except EngineError (List Hit) :=
  (s.matching index body).map fun docs =>
    docs.map fun d => d.toHit index (SearchBody.fields? body)

def capped (size : Nat) : Option Nat → Nat
  | some cap => min size cap
  | none => size

def page (s : Store) (index : String) (body : Json) (cap : Option Nat) :
    Except EngineError SearchResponse :=
  (s.hits index body).map fun hits =>
    .ofPage hits.length (hits.take (capped (SearchBody.size body) cap))

end Store

end Docket
