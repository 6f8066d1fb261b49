import Docket.Engine
import Docket.Store.Search

/-!
A document store in memory. It counts the calls made to it, and it can be told to fail: while it
fails, calls are counted but change and read nothing.
-/

set_option autoImplicit false
set_option relaxedAutoImplicit false

namespace Docket

structure CallCounts where
  indexExists : Nat := 0
  index : Nat := 0
  search : Nat := 0
  bulk : Nat := 0
  scan : Nat := 0
  deriving DecidableEq

structure InMemory where
  store : Store := .empty
  calls : CallCounts := {}
  lastScanBatch : Option Nat := none
  failure : Option String := none
  made : Nat := 0

namespace InMemory

/-- Writes a document; one without an id gets a new one. -/
def write (freshId : Nat → String) (m : InMemory) (index docType : String) (id : Option String)
    (source : Record) : InMemory :=
  match id with
  | some id => { m with store := m.store.put index ⟨id, docType, source⟩ }
  | none =>
    { m with
      store := m.store.put index ⟨freshId m.made, docType, source⟩
      made := m.made + 1 }

def writeAll (freshId : Nat → String) (m : InMemory) (actions : List BulkAction) : InMemory :=
  actions.foldl (fun m a => m.write freshId a.index a.docType a.id a.source) m

/-- Runs an operation, unless the store is told to fail. -/
def unlessFailing {α : Type} (m : InMemory) (run : InMemory → Except EngineError α × InMemory) :
    Except EngineError α × InMemory :=
  match m.failure with
  | some detail => (.error (.network detail), m)
  | none => run m

def createIndex (m : InMemory) (index : String) : InMemory :=
  { m with store := m.store.create index }

def documents (m : InMemory) (index : String) : List StoredDocument :=
  (m.store.documents? index).getD []

def failWith (m : InMemory) (detail : Option String) : InMemory :=
  { m with failure := detail }

end InMemory

def Engine.inMemory (pageCap : Option Nat) (freshId : Nat → String) : Engine InMemory where
  indexExists index m :=
    let m := { m with calls := { m.calls with indexExists := m.calls.indexExists + 1 } }
    m.unlessFailing fun m => (.ok (m.store.has index), m)
  index index docType document m :=
    let m := { m with calls := { m.calls with index := m.calls.index + 1 } }
    m.unlessFailing fun m => (.ok (), m.write freshId index docType none document)
  search index body m :=
    let m := { m with calls := { m.calls with search := m.calls.search + 1 } }
    m.unlessFailing fun m => (m.store.page index body pageCap, m)
  bulk actions m :=
    let m := { m with calls := { m.calls with bulk := m.calls.bulk + 1 } }
    m.unlessFailing fun m => (.ok (), m.writeAll freshId actions)
  scan index body batch limit m :=
    let m := { m with
      calls := { m.calls with scan := m.calls.scan + 1 }
      lastScanBatch := some batch }
    m.unlessFailing fun m =>
      ((m.store.hits index body).map fun hits => .quiet (takeUpTo limit (hits.map .ok)), m)

end Docket
