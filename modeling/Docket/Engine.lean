import Docket.Bulk
import Docket.Error
import Docket.Log
import Docket.Response

/-!
What a client needs of a document store. A store is a set of operations on a state; each operation
answers and leaves a new state, and any answer may be a failure.
-/

set_option autoImplicit false
set_option relaxedAutoImplicit false

namespace Docket

/-- The hits of a scan that were asked for, and what was logged when the scan was given up. -/
structure Scan where
  items : List (Except EngineError Hit)
  closing : List Event

def Scan.quiet (items : List (Except EngineError Hit)) : Scan := ⟨items, []⟩

def takeUpTo {α : Type} (limit : Option Nat) (xs : List α) : List α :=
  match limit with
  | some n => xs.take n
  | none => xs

/-- The operations of a document store whose state is a `σ`. -/
structure Engine (σ : Type) where
  indexExists (index : String) (s : σ) : Except EngineError Bool × σ
  index (index docType : String) (document : Record) (s : σ) : Except EngineError Unit × σ
  search (index : String) (body : Json) (s : σ) : Except EngineError SearchResponse × σ
  bulk (actions : List BulkAction) (s : σ) : Except EngineError Unit × σ
  /-- Streams the matches of a body, `batch` hits per round trip, up to `limit` hits. -/
  scan (index : String) (body : Json) (batch : Nat) (limit : Option Nat) (s : σ) :
    Except EngineError Scan × σ

inductive EngineCall where
  | indexExists (index : String)
  | index (index docType : String) (document : Record)
  | search (index : String) (body : Json)
  | bulk (actions : List BulkAction)
  | scan (index : String) (body : Json) (batch : Nat)
  deriving DecidableEq

namespace Engine

variable {σ : Type}

def record {α : Type} (call : EngineCall) (run : σ → α × σ) (s : σ × List EngineCall) :
    α × (σ × List EngineCall) :=
  let (answer, t) := run s.1
  (answer, (t, s.2 ++ [call]))

def recorded (e : Engine σ) : Engine (σ × List EngineCall) where
  indexExists i := record (.indexExists i) (e.indexExists i)
  index i t d := record (.index i t d) (e.index i t d)
  search i b := record (.search i b) (e.search i b)
  bulk as := record (.bulk as) (e.bulk as)
  scan i b n limit := record (.scan i b n) (e.scan i b n limit)

end Engine

/-- A store that holds nothing: writes succeed and are dropped, and no index exists. Its state can
be any, for no call changes it. -/
def Engine.idle {σ : Type} : Engine σ where
  indexExists _ s := (.ok false, s)
  index _ _ _ s := (.ok (), s)
  search _ _ s := (.ok .empty, s)
  bulk _ s := (.ok (), s)
  scan _ _ _ _ s := (.ok (.quiet []), s)

end Docket
