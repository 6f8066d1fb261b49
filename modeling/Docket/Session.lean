import Docket.Client
import Docket.InMemory

/-!
Sessions: steps run one after the other. A store in memory has steps of its own, which look at it or
prepare it without being calls.
-/

set_option autoImplicit false
set_option relaxedAutoImplicit false

namespace Docket

namespace Session

variable {σ ι α : Type}

/-- Runs steps in order, each with its number, and pairs what came of each with the state after
it. -/
def run (step : Nat → ι → σ → Outcome α × σ) (number : Nat) : List ι → σ → List (Outcome α × σ)
  | [], _ => []
  | i :: rest, s =>
    let (outcome, s) := step number i s
    (outcome, s) :: run step (number + 1) rest s

/-- Runs the steps of a client; `clock` gives the time of a stamp by step and record. -/
def ofClient (c : Client σ) (clock : Nat → Nat → Binary64) (steps : List Step) (s : σ) :
    List (Outcome Answer × σ) :=
  run (fun n step s => c.run (clock n) step s) 0 steps s

end Session

inductive InMemoryStep where
  | client (step : Step)
  | createIndex (index : String)
  | documents (index : String)
  | docTypes (index : String)
  | calls
  | lastScanBatch
  | failWith (detail : Option String)

inductive InMemoryAnswer where
  | client (answer : Answer)
  | nothing
  | documents (rs : List Record)
  | docTypes (names : List String)
  | calls (counts : CallCounts)
  | lastScanBatch (batch : Option Nat)

namespace InMemory

def run (m : InMemory) (c : Client InMemory) (now : Nat → Binary64) (step : InMemoryStep) :
    Outcome InMemoryAnswer × InMemory :=
  match step with
  | .client step =>
    let (outcome, m) := c.run now step m
    (⟨.client outcome.answer, outcome.log, outcome.attempts⟩, m)
  | .createIndex index => ({ answer := .nothing }, m.createIndex index)
  | .documents index =>
    ({ answer := .documents ((m.documents index).map StoredDocument.source) }, m)
  | .docTypes index =>
    ({ answer := .docTypes ((m.documents index).map StoredDocument.docType) }, m)
  | .calls => ({ answer := .calls m.calls }, m)
  | .lastScanBatch => ({ answer := .lastScanBatch m.lastScanBatch }, m)
  | .failWith detail => ({ answer := .nothing }, m.failWith detail)

end InMemory

def Session.inMemory (c : Client InMemory) (clock : Nat → Nat → Binary64)
    (steps : List InMemoryStep) (m : InMemory) : List (Outcome InMemoryAnswer × InMemory) :=
  run (fun n step m => m.run c (clock n) step) 0 steps m

end Docket
