import Docket.Text.Cut

/-!
Failures. An `EngineError` is what a document store, or the way to it, reports; a `QueryError` is
what the caller of a query sees. Posting never raises either: it logs them.
-/

set_option autoImplicit false
set_option relaxedAutoImplicit false

namespace Docket

inductive EngineError where
  | network (detail : String)
  | timeout
  /-- The answer has a status other than success; the body may be cut. -/
  | status (code : Nat) (body : String)
  | indexNotFound (index : String)
  | bulk (summary : String)
  | response (detail : String)
  deriving DecidableEq

namespace EngineError

def message : EngineError → String
  | .network detail => "network error: " ++ detail
  | .timeout => "engine request timed out"
  | .status code body => "engine returned status " ++ toString code ++ ": " ++ body
  | .indexNotFound index => "index not found: " ++ index
  | .bulk summary => "bulk request failed: " ++ summary
  | .response detail => "malformed engine response: " ++ detail

/-- What the body of a 404 answer holds when the index is missing. -/
def missingIndexMark : String := "index_not_found"

def isIndexNotFound : EngineError → Bool
  | .indexNotFound _ => true
  | .status code body => code == 404 && Cut.occurs missingIndexMark.toList body.toList
  | _ => false

end EngineError

inductive QueryError where
  | invalidQuery (reason : String)
  /-- The hits would have to be streamed, and streamed hits cannot be sorted as asked. -/
  | unsupportedSort (reason : String)
  | engine (cause : EngineError)
  deriving DecidableEq

def QueryError.message : QueryError → String
  | .invalidQuery reason => "invalid query: " ++ reason
  | .unsupportedSort reason => "unsupported sort for scroll retrieval: " ++ reason
  | .engine cause => "engine error: " ++ cause.message

end Docket
