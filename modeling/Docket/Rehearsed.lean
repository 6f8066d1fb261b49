import Docket.Engine

/-!
A store that gives prepared answers, each operation from a queue of its own. When a queue is empty
the operation succeeds: the index exists, searches are empty, streams have no hits.
-/

set_option autoImplicit false
set_option relaxedAutoImplicit false

namespace Docket

structure Rehearsed where
  indexExists : List (Except EngineError Bool)
  index : List (Except EngineError Unit)
  search : List (Except EngineError SearchResponse)
  bulk : List (Except EngineError Unit)
  scan : List (Except EngineError (List (Except EngineError Hit)))

/-- The next prepared answer, or the answer of an empty queue, and the answers left. -/
def Rehearsed.next {α : Type} (otherwise : α) : List (Except EngineError α) →
    Except EngineError α × List (Except EngineError α)
  | [] => (.ok otherwise, [])
  | a :: rest => (a, rest)

def Engine.rehearsed : Engine Rehearsed where
  indexExists _ s :=
    let (a, rest) := Rehearsed.next true s.indexExists
    (a, { s with indexExists := rest })
  index _ _ _ s :=
    let (a, rest) := Rehearsed.next () s.index
    (a, { s with index := rest })
  search _ _ s :=
    let (a, rest) := Rehearsed.next .empty s.search
    (a, { s with search := rest })
  bulk _ s :=
    let (a, rest) := Rehearsed.next () s.bulk
    (a, { s with bulk := rest })
  scan _ _ _ limit s :=
    let (a, rest) := Rehearsed.next [] s.scan
    (a.map fun items => .quiet (takeUpTo limit items), { s with scan := rest })

end Docket
