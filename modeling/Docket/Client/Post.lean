import Docket.Config
import Docket.Engine
import Docket.Net.Datagram

/-!
Posting records. Posting never fails loudly: what goes wrong is logged, and the answer is `false`,
so that reporting cannot break the work that is reported on. A datagram holds one record: the header
of a bulk action and the record, a line each.
-/

set_option autoImplicit false
set_option relaxedAutoImplicit false

namespace Docket

namespace Payload

def header (index docType : String) : Json :=
  .object [("index", .object [("_index", .string index), ("_type", .string docType)])]

def text (index docType : String) (r : Record) : String :=
  (header index docType).text ++ "\n" ++ Json.text (.object r) ++ "\n"

end Payload

structure PostOptions where
  stamp : Bool := true
  extra : Record := []
  deriving DecidableEq

def PostOptions.withField (o : PostOptions) (field : String) (value : Json) : PostOptions :=
  { o with extra := o.extra.insert field value }

structure Posted where
  accepted : Bool
  log : List Event
  attempts : List Attempt

namespace Post

def nothing : Posted := ⟨true, [], []⟩

/-- A record ready for posting at the time `now`: its type, if it names one, and its fields. A time
already present is overwritten. -/
def prepare (o : PostOptions) (r : Record) (now : Binary64) : Option String × Record :=
  let (docType, fields) := (r.merge o.extra).takeText Record.typeField
  (docType, if o.stamp then fields.stamp false now else fields)

/-- An action ready for a bulk request at the time `now`. A time already present stays. -/
def action (c : ClientConfig) (o : PostOptions) (r : Record) (now : Binary64) : BulkAction :=
  let merged := r.merge o.extra
  let stamped := if o.stamp then merged.stamp true now else merged
  .ofRecord (stamped.insert Record.indexField (.string c.index)) c.index

def notStored (c : ClientConfig) (docType : String) (e : EngineError) : Event :=
  ⟨.error, .post, "Failed to post metadata",
    [("index", .text c.index), ("doc_type", .text docType), ("error", .text e.message)]⟩

def notSent (c : ClientConfig) (e : SendError) : Event :=
  ⟨.warn, .post, "Failed to send metadata datagram",
    [("host", .text c.host), ("port", .number c.udpPort.toNat), ("error", .text e.message)]⟩

def notAllStored (c : ClientConfig) (count : Nat) (e : EngineError) : Event :=
  ⟨.error, .post, "Bulk post failed",
    [("index", .text c.index), ("count", .number count), ("error", .text e.message)]⟩

def ofSending (c : ClientConfig) : Except SendError Unit × List Attempt → Posted
  | (.ok (), attempts) => ⟨true, [], attempts⟩
  | (.error e, attempts) => ⟨false, [notSent c e], attempts⟩

variable {σ : Type}

/-- Posts a record of a type; a type that the record names goes before. -/
def single (c : ClientConfig) (engine : Engine σ) (net : DatagramNet) (docType : String)
    (r : Record) (o : PostOptions) (now : Binary64) (s : σ) : Posted × σ :=
  if r.isEmpty then (nothing, s)
  else
    let (ownType, fields) := prepare o r now
    let docType := ownType.getD docType
    match c.transport with
    | .udp =>
      (ofSending c (net.sendTo c.host c.udpPort (Payload.text c.index docType fields)), s)
    | .http =>
      match engine.index c.index docType fields s with
      | (.ok (), s) => (nothing, s)
      | (.error e, s) => (⟨false, [notStored c docType e], []⟩, s)

/-- The actions of some records, the first of which is stamped at the time `now 0`. -/
def actions (c : ClientConfig) (o : PostOptions) (now : Nat → Binary64) :
    List Record → List BulkAction
  | [] => []
  | r :: rest => action c o r (now 0) :: actions c o (fun i => now (i + 1)) rest

def many (c : ClientConfig) (engine : Engine σ) (rs : List Record) (o : PostOptions)
    (now : Nat → Binary64) (s : σ) : Posted × σ :=
  if rs.isEmpty then (nothing, s)
  else
    match engine.bulk (actions c o now rs) s with
    | (.ok (), s) => (nothing, s)
    | (.error e, s) => (⟨false, [notAllStored c rs.length e], []⟩, s)

end Post

end Docket
