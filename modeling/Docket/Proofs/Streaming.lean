import Docket.Http.Scroll
import Docket.Proofs.Execution
import Docket.Proofs.Scrolling

/-!
Queries whose first page over HTTP falls short. The matches are counted again, a scroll is opened,
and its pages are asked for to the end; the first failure on that way is the answer, and else all
hits of the scroll are. Either way the cursor that came last is discarded once.
-/

set_option autoImplicit false
set_option relaxedAutoImplicit false

namespace Docket

namespace Scroll

open HttpStore (Exchanged)

/-- The request that gives a scroll up, if a cursor came. -/
def closing (h : HttpStore) (pages : List PageResult) : List Outgoing :=
  (latest pages).toList.map h.discardRequest

end Scroll

namespace Fetch

open HttpStore (Exchanged Reads reads_iff)
open Scroll

variable {h : HttpStore} {c : ClientConfig} {q : Query}

def localStore : HttpStore := .ofBase "http://127.0.0.1:9200" ⟨[]⟩

def numbered : Query := ⟨none, [.range "n" (some (.ofNat 0)) none], 10000, none, true⟩

end Fetch

end Docket
