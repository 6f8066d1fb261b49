import Docket.Json.Decode
import Docket.Text.Cut
import Docket.Text.Diagnostic

/-!
Settings of a client. Every part has a default of its own, taken when a document leaves it out.
-/

set_option autoImplicit false
set_option relaxedAutoImplicit false

namespace Docket

inductive Transport where
  | http
  | udp
  deriving DecidableEq

inductive EngineKind where
  | http
  /-- No store: posts succeed, and no index exists. -/
  | noop
  deriving DecidableEq

namespace Transport

def name : Transport → String
  | .http => "http"
  | .udp => "udp"

def ofName? (s : String) : Option Transport :=
  if s = "http" then some .http else if s = "udp" then some .udp else none

def diagnostic : Transport → String
  | .http => "Http"
  | .udp => "Udp"

end Transport

namespace EngineKind

def name : EngineKind → String
  | .http => "http"
  | .noop => "noop"

def ofName? (s : String) : Option EngineKind :=
  if s = "http" then some .http else if s = "noop" then some .noop else none

def diagnostic : EngineKind → String
  | .http => "Http"
  | .noop => "Noop"

end EngineKind

structure ClientConfig where
  /-- Name or address of the store; may carry a scheme. -/
  host : String
  port : UInt16
  index : String
  udpPort : UInt16
  timeoutMs : UInt64
  transport : Transport
  engine : EngineKind
  deriving DecidableEq

namespace ClientConfig

def default : ClientConfig := ⟨"localhost", 9200, "metadata", 9700, 30000, .http, .http⟩

def ofHost (host : String) (port : UInt16) (index : String) : ClientConfig :=
  { default with host := host, port := port, index := index }

inductive Change where
  | udpPort (n : UInt16)
  | timeoutMs (n : UInt64)
  | transport (t : Transport)
  | engine (k : EngineKind)

def change (c : ClientConfig) : Change → ClientConfig
  | .udpPort n => { c with udpPort := n }
  | .timeoutMs n => { c with timeoutMs := n }
  | .transport t => { c with transport := t }
  | .engine k => { c with engine := k }

def hasScheme (host : String) : Bool :=
  "http://".toList.isPrefixOf host.toList || "https://".toList.isPrefixOf host.toList

/-- The base URL for HTTP; a host that carries a scheme is used as it is. -/
def baseUrl (c : ClientConfig) : String :=
  if hasScheme c.host then
    Cut.trailingSlashes c.host ++ ":" ++ toString c.port.toNat
  else "http://" ++ c.host ++ ":" ++ toString c.port.toNat

def keys : List String :=
  ["host", "port", "index", "udp_port", "timeout_ms", "transport", "engine"]

def members (c : ClientConfig) : List (String × Json) :=
  [("host", .string c.host), ("port", .ofNat c.port.toNat), ("index", .string c.index),
    ("udp_port", .ofNat c.udpPort.toNat), ("timeout_ms", .ofUInt64 c.timeoutMs),
    ("transport", .string c.transport.name), ("engine", .string c.engine.name)]

def text (c : ClientConfig) : String := (Json.object c.members).text

def toJson (c : ClientConfig) : Json := .object (Record.ofList c.members)

def portOf? {ν : Type} [Json.Node ν] (node : ν) : Option UInt16 :=
  (Json.naturalOf? 65536 node).map UInt16.ofNat

def millisecondsOf? {ν : Type} [Json.Node ν] (node : ν) : Option UInt64 :=
  (Json.naturalOf? wordBound node).map UInt64.ofNat

def decode? {ν : Type} [Json.Node ν] (node : ν) : Option ClientConfig :=
  match Json.fields? keys node with
  | some [host, port, index, udpPort, timeoutMs, transport, engine] => do
    pure {
      host := ← Json.defaulted? default.host Json.stringOf? host
      port := ← Json.defaulted? default.port portOf? port
      index := ← Json.defaulted? default.index Json.stringOf? index
      udpPort := ← Json.defaulted? default.udpPort portOf? udpPort
      timeoutMs := ← Json.defaulted? default.timeoutMs millisecondsOf? timeoutMs
      transport :=
        ← Json.defaulted? default.transport (Json.nameOf? Transport.ofName?) transport
      engine := ← Json.defaulted? default.engine (Json.nameOf? EngineKind.ofName?) engine }
  | _ => none

def ofText? (text : String) : Option ClientConfig := Json.decodeText? decode? text

def diagnostic (c : ClientConfig) : String :=
  Diagnostic.fields "ClientConfig"
    [("host", Diagnostic.quoted c.host), ("port", toString c.port.toNat),
      ("index", Diagnostic.quoted c.index), ("udp_port", toString c.udpPort.toNat),
      ("timeout_ms", toString c.timeoutMs.toNat), ("transport", c.transport.diagnostic),
      ("engine", c.engine.diagnostic)]

def clientDiagnostic (c : ClientConfig) : String :=
  "MetadataClient \x7b config: " ++ c.diagnostic ++ ", .. \x7d"

end ClientConfig

end Docket
