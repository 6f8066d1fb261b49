import Docket.Pattern.Match
import Docket.Pattern.Reader
import Docket.Pattern.Size

/-!
Regular expressions over Unicode characters. Classes by letter, word boundaries and the ignoring of
case know ASCII alone; look-around, back-references and Unicode properties are not supported.
-/

set_option autoImplicit false
set_option relaxedAutoImplicit false

namespace Docket

structure Pattern where
  expression : Pattern.Node

namespace Pattern

def compile (text : String) : Except Cause Pattern :=
  match read text with
  | .error e => .error e
  | .ok (e, groups) =>
    if nestLimit < e.depth then .error .tooDeep
    else if sizeLimit < wholeBytes e groups then .error .tooLarge
    else .ok ⟨e⟩

def occursIn (p : Pattern) (text : String) : Bool := p.expression.occursIn text

/-- The pattern between anchors. The group keeps the alternatives of a well-formed pattern
together. -/
def anchored (text : String) : String := "^(?:" ++ text ++ ")$"

end Pattern

end Docket
