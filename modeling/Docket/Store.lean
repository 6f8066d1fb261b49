import Docket.Record

/-!
Stored documents. Each index holds its documents in the order in which their ids were first written;
writing under an id that is there replaces the document in its place.
-/

set_option autoImplicit false
set_option relaxedAutoImplicit false

namespace Docket

structure StoredDocument where
  id : String
  docType : String
  source : Record
  deriving DecidableEq

namespace StoredDocument

/-- The value of a field; id and type can be read like fields. -/
def field? (d : StoredDocument) (name : String) : Option Json :=
  if name = Record.idField then some (.string d.id)
  else if name = Record.typeField then some (.string d.docType)
  else d.source.get? name

def putInto (d : StoredDocument) : List StoredDocument → List StoredDocument
  | [] => [d]
  | e :: rest => if e.id = d.id then d :: rest else e :: putInto d rest

end StoredDocument

structure Store where
  indices : List (String × List StoredDocument)
  deriving DecidableEq

namespace Store

def empty : Store := ⟨[]⟩

def documents? (s : Store) (index : String) : Option (List StoredDocument) :=
  s.indices.lookup index

def has (s : Store) (index : String) : Bool :=
  (s.documents? index).isSome

/-- Changes the documents of an index, which starts empty if it does not exist. -/
def changeIn (index : String) (f : List StoredDocument → List StoredDocument) :
    List (String × List StoredDocument) → List (String × List StoredDocument)
  | [] => [(index, f [])]
  | (i, docs) :: rest =>
    if i = index then (i, f docs) :: rest else (i, docs) :: changeIn index f rest

def create (s : Store) (index : String) : Store :=
  ⟨changeIn index id s.indices⟩

def put (s : Store) (index : String) (d : StoredDocument) : Store :=
  ⟨changeIn index d.putInto s.indices⟩

end Store

end Docket
