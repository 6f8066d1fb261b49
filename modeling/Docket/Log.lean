/-!
Events that a client logs.
-/

set_option autoImplicit false
set_option relaxedAutoImplicit false

namespace Docket

inductive Level where
  | error
  | warn
  | debug
  deriving DecidableEq

inductive Origin where
  | fetch
  | post
  | http
  deriving DecidableEq

inductive LogValue where
  | number (n : Nat)
  | text (s : String)
  deriving DecidableEq

structure Event where
  level : Level
  origin : Origin
  message : String
  fields : List (String × LogValue)
  deriving DecidableEq

end Docket
