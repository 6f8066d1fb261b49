import Docket.Net.Address

/-!
Sending datagrams. The addresses of a host are tried in order, each from a socket of its version,
until one takes the datagram. Nobody acknowledges a datagram, so nothing more is known.
-/

set_option autoImplicit false
set_option relaxedAutoImplicit false

namespace Docket

inductive SendError where
  | unresolved (host : String)
  | noAddress (host : String)
  | unreachable
  | tooLong
  | system (detail : String)
  deriving DecidableEq

def SendError.message : SendError → String
  | .unresolved host => "unknown host " ++ host
  | .noAddress host => host ++ " resolved to no addresses"
  | .unreachable => "the address cannot be reached"
  | .tooLong => "the datagram is too long"
  | .system detail => detail

structure Attempt where
  target : Endpoint
  text : String
  sent : Bool
  deriving DecidableEq

def Attempt.source (a : Attempt) : Address := a.target.address.unspecified

/-- What an attempt asks of the network: a socket at a local address, and that a datagram is taken
from it. -/
inductive SocketCall where
  | bind (source : Address)
  | send (target : Endpoint) (text : String)
  deriving DecidableEq

/-- What datagrams meet on their way: the resolution of hosts, and the fate of each call. The
attempts for a datagram are numbered from zero, and what is refused in one may be granted in
another. -/
structure DatagramNet where
  resolve (host : String) : Except SendError (List Address)
  call (attempt : Nat) (c : SocketCall) : Except SendError Unit

namespace DatagramNet

def send (net : DatagramNet) (target : Endpoint) (text : String) (attempt : Nat) :
    Except SendError Unit :=
  net.call attempt (.send target text)

def reach (net : DatagramNet) (attempt : Nat) (target : Endpoint) (text : String) :
    Except SendError Unit :=
  match net.call attempt (.bind target.address.unspecified) with
  | .error e => .error e
  | .ok () => net.send target text attempt

/-- Tries endpoints in order until one takes the datagram, counting the attempts; `last` is the
failure of the latest attempt before. -/
def sendToAny (net : DatagramNet) (text : String) (attempt : Nat) (last : SendError) :
    List Endpoint → Except SendError Unit × List Attempt
  | [] => (.error last, [])
  | target :: rest =>
    match net.reach attempt target text with
    | .ok () => (.ok (), [⟨target, text, true⟩])
    | .error e =>
      let (answer, attempts) := sendToAny net text (attempt + 1) e rest
      (answer, ⟨target, text, false⟩ :: attempts)

def sendTo (net : DatagramNet) (host : String) (port : UInt16) (text : String) :
    Except SendError Unit × List Attempt :=
  match net.resolve host with
  | .error e => (.error e, [])
  | .ok addresses =>
    net.sendToAny text 0 (.noAddress host) (addresses.map fun a => ⟨a, port⟩)

def maxBytes : Nat := 65507

/-- The network of a table of hosts in which some addresses cannot be reached. There is always a
socket to be had. -/
def ofHosts (hosts : Hosts) (unreachable : List Address) : DatagramNet where
  resolve host :=
    match hosts.addresses host with
    | [] => .error (.unresolved host)
    | addresses => .ok addresses
  call _
    | .bind _ => .ok ()
    | .send target text =>
      if unreachable.contains target.address then .error .unreachable
      else if maxBytes < text.utf8ByteSize then .error .tooLong
      else .ok ()

end DatagramNet

end Docket
