import Docket.Client.Fetch
import Docket.Client.Post
import Docket.Engine
import Docket.Http.Scroll

/-!
Clients: settings, a store, and a network for datagrams. A session runs steps on a client and on its
store, one after the other.
-/

set_option autoImplicit false
set_option relaxedAutoImplicit false

namespace Docket

structure Client (σ : Type) where
  config : ClientConfig
  engine : Engine σ
  net : DatagramNet

def ClientConfig.store (c : ClientConfig) (hosts : Hosts) : Engine Wire :=
  match c.engine with
  | .http => .http (.ofBase c.baseUrl hosts)
  | .noop => .idle

def Client.connect (c : ClientConfig) (hosts : Hosts) (net : DatagramNet) : Client Wire :=
  ⟨c, c.store hosts, net⟩

inductive Step where
  | post (docType : String) (r : Record) (o : PostOptions)
  | bulkPost (rs : List Record) (o : PostOptions)
  | query (calls : List QueryBuilder.Call)
  | execute (q : Query)
  | settings
  | indexExists (index : String)
  | index (index docType : String) (document : Record)
  | search (index : String) (body : Json)
  | bulk (actions : List BulkAction)
  | scan (index : String) (body : Json) (batch : Nat) (limit : Option Nat)

inductive Answer where
  | posted (accepted : Bool)
  | queried (result : Except QueryError (Option QueryResult))
  | settings (c : ClientConfig)
  | existence (result : Except EngineError Bool)
  | written (result : Except EngineError Unit)
  | found (result : Except EngineError SearchResponse)
  | scanned (result : Except EngineError (List (Except EngineError Hit)))

structure Outcome (α : Type) where
  answer : α
  log : List Event := []
  attempts : List Attempt := []

def Outcome.ofScan : Except EngineError Scan → Outcome Answer
  | .ok scan => { answer := .scanned (.ok scan.items), log := scan.closing }
  | .error e => { answer := .scanned (.error e) }

namespace Client

variable {σ : Type}

/-- Runs a step. The records of a step are stamped at the times `now` gives. -/
def run (c : Client σ) (now : Nat → Binary64) (step : Step) (s : σ) : Outcome Answer × σ :=
  match step with
  | .post docType r o =>
    let (p, s) := Post.single c.config c.engine c.net docType r o (now 0) s
    (⟨.posted p.accepted, p.log, p.attempts⟩, s)
  | .bulkPost rs o =>
    let (p, s) := Post.many c.config c.engine rs o now s
    (⟨.posted p.accepted, p.log, p.attempts⟩, s)
  | .query calls =>
    let (r, s) := Fetch.query c.config c.engine (.ofCalls calls) s
    ({ answer := .queried r.answer, log := r.log }, s)
  | .execute q =>
    let (r, s) := Fetch.execute c.config c.engine q s
    ({ answer := .queried r.answer, log := r.log }, s)
  | .settings => ({ answer := .settings c.config }, s)
  | .indexExists index =>
    let (r, s) := c.engine.indexExists index s
    ({ answer := .existence r }, s)
  | .index index docType document =>
    let (r, s) := c.engine.index index docType document s
    ({ answer := .written r }, s)
  | .search index body =>
    let (r, s) := c.engine.search index body s
    ({ answer := .found r }, s)
  | .bulk actions =>
    let (r, s) := c.engine.bulk actions s
    ({ answer := .written r }, s)
  | .scan index body batch limit =>
    let (r, s) := c.engine.scan index body batch limit s
    (.ofScan r, s)

end Client

end Docket
