import Docket.Bulk
import Docket.Http.Url
import Docket.Http.Wire
import Docket.Response
import Docket.Text.Diagnostic

/-!
Calls of a document store over HTTP: which request a call makes, and what it takes from the answer.
-/

set_option autoImplicit false
set_option relaxedAutoImplicit false

namespace Docket

structure HttpStore where
  base : String
  hosts : Hosts

open Wire (reading)

namespace HttpStore

def ofBase (base : String) (hosts : Hosts) : HttpStore := ⟨Cut.trailingSlashes base, hosts⟩

def url (h : HttpStore) (path : String) : String :=
  h.base ++ "/" ++ Cut.leadingSlashes path

def diagnostic (h : HttpStore) : String :=
  Diagnostic.fields "HttpEngine" [("base_url", Diagnostic.quoted h.base)]

def errorBodyBytes : Nat := 512

def statusError (status : Nat) (body : String) : EngineError :=
  .status status (Cut.toBytes errorBodyBytes body)

def isSuccess (status : Nat) : Bool := 200 ≤ status && status < 300

/-- Whether answers of a status come without a body: no content, and not modified. -/
def isBodiless (status : Nat) : Bool := status == 204 || status == 304

/-- Most bytes of an answer that are read. Pages of a scroll can be large. -/
def answerBytes : Nat := 1024 * 1024 * 1024

def successText (answer : Nat × Option String) : Except EngineError String :=
  match if isBodiless answer.1 then some "" else answer.2 with
  | none => .error (.network "failed to read response: not text")
  | some text =>
    if answerBytes < text.utf8ByteSize then .error (.network "failed to read response: too long")
    else if isSuccess answer.1 then .ok text
    else .error (statusError answer.1 text)

def post (h : HttpStore) (path contentType body : String) (w : Wire) :
    Except EngineError String × Wire :=
  reading (w.request h.hosts (h.url path) .post (some ⟨contentType, body⟩)) successText

def readValue (text : String) : Except EngineError Json :=
  match Json.ofText? text with
  | some v => .ok v
  | none => .error (.response "not a JSON text")

def readResponse (text : String) : Except EngineError SearchResponse :=
  (readValue text).bind fun v =>
    match SearchResponse.decode? v with
    | some r => .ok r
    | none => .error (.response "not an answer to a search")

def jsonType : String := "application/json"

def linesType : String := "application/x-ndjson"

def postSearch (h : HttpStore) (path : String) (body : Json) (w : Wire) :
    Except EngineError SearchResponse × Wire :=
  reading (h.post path jsonType body.text w) readResponse

def documentPath (index docType : String) : String :=
  Percent.encode index ++ "/" ++ Percent.encode docType

def searchPath (index : String) : String := Percent.encode index ++ "/_search"

def bulkPath : String := "_bulk"

def keepAlive : String := "1m"

def openScrollPath (index : String) : String :=
  searchPath index ++ "?scroll=" ++ keepAlive

def scrollPath : String := "_search/scroll"

def discardPath (cursor : String) : String :=
  "_search/scroll/" ++ Percent.encode cursor

def readExists : Nat × Option String → Except EngineError Bool
  | (status, _) =>
    if isSuccess status then .ok true
    else if status = 404 then .ok false
    else .error (statusError status "")

def askExists (h : HttpStore) (index : String) (w : Wire) : Except EngineError Bool × Wire :=
  reading (w.request h.hosts (h.url (Percent.encode index)) .head none) readExists

def postDocument (h : HttpStore) (index docType : String) (document : Record) (w : Wire) :
    Except EngineError Unit × Wire :=
  reading (h.post (documentPath index docType) jsonType (Json.text (.object document)) w)
    fun _ => .ok ()

def readBulk (text : String) : Except EngineError Unit :=
  (readValue text).bind fun reply =>
    match Bulk.failures? reply with
    | some summary => .error (.bulk summary)
    | none => .ok ()

/-- Posts many documents; none take no request. -/
def postBulk (h : HttpStore) (actions : List BulkAction) (w : Wire) :
    Except EngineError Unit × Wire :=
  if actions.isEmpty then (.ok (), w)
  else reading (h.post bulkPath linesType (Bulk.body actions) w) readBulk

/-- A search body made ready for a scroll: pages of `batch` hits, in storage order unless the body
asks for another. -/
def scrollBody (body : Json) (batch : Nat) : Json :=
  match body with
  | .object members =>
    let sized := Record.insert "size" (.ofNat batch) members
    .object (if Record.has sized "sort" then sized
      else Record.insert "sort" (.array [.string "_doc"]) sized)
  | other => other

def pageBody (cursor : String) : Json :=
  .object [("scroll", .string keepAlive), ("scroll_id", .string cursor)]

def openScroll (h : HttpStore) (index : String) (body : Json) (batch : Nat) (w : Wire) :
    Except EngineError SearchResponse × Wire :=
  h.postSearch (openScrollPath index) (scrollBody body batch) w

def nextPage (h : HttpStore) (cursor : String) (w : Wire) :
    Except EngineError SearchResponse × Wire :=
  h.postSearch scrollPath (pageBody cursor) w

/-- Discards a cursor. Any answer will do. -/
def discard (h : HttpStore) (cursor : String) (w : Wire) : Except EngineError Unit × Wire :=
  reading (w.request h.hosts (h.url (discardPath cursor)) .delete none) fun _ => .ok ()

end HttpStore

end Docket
