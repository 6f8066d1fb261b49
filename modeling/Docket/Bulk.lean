import Docket.Record

/-!
Bulk requests. A request is a text of two lines per action: the header, which names index, type and
perhaps id, and the document. The reply flags failures item by item.
-/

set_option autoImplicit false
set_option relaxedAutoImplicit false

namespace Docket

structure BulkAction where
  index : String
  docType : String
  /-- Without, the store makes an id. -/
  id : Option String
  source : Record
  deriving DecidableEq

namespace BulkAction

/-- Splits a record into the reserved fields, which become the header, and the document. -/
def ofRecord (r : Record) (defaultIndex : String) : BulkAction :=
  let (index, r) := r.takeText Record.indexField
  let (docType, r) := r.takeText Record.typeField
  let (id, r) := r.takeText Record.idField
  ⟨index.getD defaultIndex, docType.getD Record.defaultDocType, id, r⟩

def header (a : BulkAction) : Json :=
  .object [("index", .object ((a.id.map fun id => ("_id", .string id)).toList ++
    [("_index", .string a.index), ("_type", .string a.docType)]))]

def lines (a : BulkAction) : List Char :=
  a.header.render ++ '\n' :: (Json.render (.object a.source) ++ ['\n'])

end BulkAction

namespace Bulk

def bodyChars (actions : List BulkAction) : List Char :=
  actions.flatMap BulkAction.lines

def body (actions : List BulkAction) : String :=
  String.ofList (bodyChars actions)

/-- The failure of one item of a reply: the `error` member of its first entry. -/
def itemError? (item : Json) : Option Json :=
  match item with
  | .object ((_, outcome) :: _) => outcome.get? "error"
  | _ => none

/-- What an item failure says: its reason, or else its own text. -/
def reason (failure : Json) : String :=
  ((failure.get? "reason").bind Json.string?).getD failure.text

def failures? (reply : Json) : Option String :=
  if (reply.get? "errors").bind Json.bool? = some true then
    let items := ((reply.get? "items").bind Json.items?).getD []
    let failed := items.filterMap itemError?
    let first := (failed.head?.map reason).getD "unknown error"
    some (toString failed.length ++ " of " ++ toString items.length ++ " items failed: " ++ first)
  else none

end Bulk

end Docket
