import Docket.Json

/-!
Records: field names with JSON values, sorted by name. Insertion puts a field at its place or
replaces the value of the field that is there, so at most one field has a given name.
-/

set_option autoImplicit false
set_option relaxedAutoImplicit false

namespace Docket

/-- A metadata record: the fields in the order of their names. -/
abbrev Record := List (String × Json)

namespace Record

def get? (r : Record) (field : String) : Option Json :=
  r.lookup field

def has (r : Record) (field : String) : Bool :=
  (r.get? field).isSome

def insert (field : String) (value : Json) : Record → Record
  | [] => [(field, value)]
  | (f, v) :: rest =>
    if field = f then (field, value) :: rest
    else if field < f then (field, value) :: (f, v) :: rest
    else (f, v) :: insert field value rest

def erase (r : Record) (field : String) : Record :=
  r.filter fun m => m.1 != field

/-- Sets the fields of a list one after the other, so that the last of a name wins. -/
def insertAll (r : Record) (fields : List (String × Json)) : Record :=
  fields.foldl (fun r m => insert m.1 m.2 r) r

def ofList (fields : List (String × Json)) : Record :=
  insertAll [] fields

def merge (r extra : Record) : Record :=
  r.insertAll extra

def Sorted (r : Record) : Prop :=
  r.Pairwise fun a b => a.1 < b.1

def typeField : String := "_type"

def indexField : String := "_index"

def idField : String := "_id"

def timeRecordedField : String := "time_recorded"

def defaultDocType : String := "metadata"

/-- Sets the time of report to `now`; with `keep`, a time already present stays. -/
def stamp (r : Record) (keep : Bool) (now : Binary64) : Record :=
  if keep && r.has timeRecordedField then r
  else r.insert timeRecordedField (.number (.double now))

/-- Takes a field out of a record, as text: a string is itself, any other value its compact text. -/
def takeText (r : Record) (field : String) : Option String × Record :=
  let text := (r.get? field).map fun
    | .string s => s
    | other => other.text
  (text, r.erase field)

end Record

namespace Json

def record? : Json → Option Record := members?

end Json

end Docket
