import Docket.Client.Progress
import Docket.Config
import Docket.Engine
import Docket.Query.Builder
import Docket.Text.Diagnostic

/-!
Executing queries. A first page that holds all matches is the result. When it falls short and every
match is wanted, the matches are counted again, streamed from the store, and sorted here.
-/

set_option autoImplicit false
set_option relaxedAutoImplicit false

namespace Docket

structure Logged (α : Type) where
  answer : α
  log : List Event

namespace Fetch

def missingIndex (c : ClientConfig) : Event :=
  ⟨.error, .fetch, "Index does not exist",
    [("index", .text c.index), ("host", .text c.host), ("port", .number c.port.toNat)]⟩

def pageFallsShort (q : Query) (first : SearchResponse) : Event :=
  ⟨.warn, .fetch, "Matched records exceed the returned page, switching to scroll",
    [("total", .number first.total.value), ("returned", .number first.hits.length),
      ("size", .number q.size.toNat)]⟩

def hitsFound (count : Nat) : Event :=
  ⟨.debug, .fetch, "Number of hits found", [("count", .number count)]⟩

def sorting (k : SortKey) : Event :=
  ⟨.debug, .fetch, "Sorting hits", [("field", .text k.field), ("order", .text k.order.name)]⟩

def severalKeys (keys : List SortKey) : QueryError :=
  .unsupportedSort ("scroll retrieval sorts on one key at most, got " ++
    Diagnostic.list (keys.map SortKey.field))

def streamKey (q : Query) : Except QueryError (Option SortKey) :=
  match q.sort with
  | none => .ok none
  | some [] => .ok none
  | some [k] => .ok (some k)
  | some keys => .error (severalKeys keys)

/-- Collects hits up to the first failure; `count` hits have been collected before. -/
def collect (p : Progress) (count : Nat) :
    List (Except EngineError Hit) → Logged (Except EngineError (List Hit))
  | [] => ⟨.ok [], []⟩
  | .error e :: _ => ⟨.error e, []⟩
  | .ok hit :: rest =>
    let (p, events) := p.record (count + 1)
    let tail := collect p (count + 1) rest
    ⟨tail.answer.map (hit :: ·), events ++ tail.log⟩

def arrange (key : Option SortKey) (hits : List Hit) : Logged (List Hit) :=
  match key with
  | none => ⟨hits, [hitsFound hits.length]⟩
  | some k => ⟨Hit.sortBy hits k, [hitsFound hits.length, sorting k]⟩

def finish (key : Option SortKey) (total : Nat) (scan : Scan) :
    Logged (Except QueryError (List Hit)) :=
  let collected := collect (.start total) 0 scan.items
  match collected.answer with
  | .error e => ⟨.error (.engine e), collected.log ++ scan.closing⟩
  | .ok hits =>
    let arranged := arrange key hits
    ⟨.ok arranged.answer, collected.log ++ scan.closing ++ arranged.log⟩

variable {σ : Type}

def stream (c : ClientConfig) (engine : Engine σ) (q : Query) (s : σ) :
    Logged (Except QueryError (List Hit)) × σ :=
  match streamKey q with
  | .error e => (⟨.error e, []⟩, s)
  | .ok key =>
    match engine.search c.index q.countBody s with
    | (.error e, s) => (⟨.error (.engine e), []⟩, s)
    | (.ok counted, s) =>
      match engine.scan c.index q.scanBody Query.scrollSize none s with
      | (.error e, s) => (⟨.error (.engine e), []⟩, s)
      | (.ok scan, s) => (finish key counted.total.value scan, s)

def fallsShort (q : Query) (first : SearchResponse) : Bool :=
  q.fetchAll && first.hits.length < first.total.value

def complete (c : ClientConfig) (engine : Engine σ) (q : Query) (first : SearchResponse) (s : σ) :
    Logged (Except QueryError (Option QueryResult)) × σ :=
  let result (hits : List Hit) : Option QueryResult :=
    some ⟨first.total.value, hits.map Hit.normalize⟩
  if fallsShort q first then
    let (streamed, s) := stream c engine q s
    (⟨streamed.answer.map result, pageFallsShort q first :: streamed.log⟩, s)
  else (⟨.ok (result first.hits), []⟩, s)

/-- Executes a query. Without the index there is no result; the index may also vanish before the
first page is asked for. -/
def execute (c : ClientConfig) (engine : Engine σ) (q : Query) (s : σ) :
    Logged (Except QueryError (Option QueryResult)) × σ :=
  match engine.indexExists c.index s with
  | (.error e, s) => (⟨.error (.engine e), []⟩, s)
  | (.ok false, s) => (⟨.ok none, [missingIndex c]⟩, s)
  | (.ok true, s) =>
    match engine.search c.index q.body s with
    | (.error e, s) =>
      if e.isIndexNotFound then (⟨.ok none, [missingIndex c]⟩, s)
      else (⟨.error (.engine e), []⟩, s)
    | (.ok first, s) => complete c engine q first s

def query (c : ClientConfig) (engine : Engine σ) (b : QueryBuilder) (s : σ) :
    Logged (Except QueryError (Option QueryResult)) × σ :=
  match b.compose with
  | .error e => (⟨.error e, []⟩, s)
  | .ok q => execute c engine q s

end Fetch

end Docket
