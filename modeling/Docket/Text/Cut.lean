/-!
Cutting text: slashes off the ends of URL parts, and whole characters off the end of a text that is
to fit a number of bytes.
-/

set_option autoImplicit false
set_option relaxedAutoImplicit false

namespace Docket.Cut

def leadingSlashes (s : String) : String :=
  String.ofList (s.toList.dropWhile (· = '/'))

def trailingSlashes (s : String) : String :=
  String.ofList (s.toList.reverse.dropWhile (· = '/')).reverse

/-- The last place between characters that is at most `bytes` from the start of a text. It is looked
for from there backwards; the start of the text is such a place. -/
def lastBoundary (s : String) : Nat → s.Pos
  | 0 => s.startPos
  | bytes + 1 =>
    if h : String.Pos.Raw.IsValid s ⟨bytes + 1⟩ then ⟨⟨bytes + 1⟩, h⟩ else lastBoundary s bytes

/-- The longest beginning of a text that is made of whole characters and takes at most `bytes`. -/
def toBytes (bytes : Nat) (s : String) : String :=
  if bytes < s.utf8ByteSize then (s.sliceTo (lastBoundary s bytes)).copy else s

def occurs (part : List Char) : List Char → Bool
  | [] => part.isEmpty
  | c :: rest => part.isPrefixOf (c :: rest) || occurs part rest

end Docket.Cut
