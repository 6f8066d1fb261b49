import Docket.Text.Unicode

/-!
Blanks of verbose patterns. Under the verbose flag white space says nothing, nor does a comment,
which runs from `#` to the end of the line. Without the flag every character counts.
-/

set_option autoImplicit false
set_option relaxedAutoImplicit false

namespace Docket.Pattern

/-- Takes up to `limit` characters while they satisfy `keep`, passing over blanks before each and
after the last; also returns what follows. `comment` says that the text starts inside a comment. -/
def takeVisible (verbose : Bool) (keep : Char → Bool) (limit : Nat) (comment : Bool) :
    List Char → List Char × List Char
  | [] => ([], [])
  | c :: rest =>
    if comment then takeVisible verbose keep limit (c != '\n') rest
    else if verbose && Unicode.isWhiteSpace c then takeVisible verbose keep limit false rest
    else if verbose && c == '#' then takeVisible verbose keep limit true rest
    else if 0 < limit && keep c then
      let (taken, rest) := takeVisible verbose keep (limit - 1) false rest
      (c :: taken, rest)
    else ([], c :: rest)

def skipBlanks (verbose : Bool) (cs : List Char) : List Char :=
  (takeVisible verbose (fun _ => false) 0 false cs).2

def takeWhileVisible (verbose : Bool) (keep : Char → Bool) (cs : List Char) :
    List Char × List Char :=
  takeVisible verbose keep cs.length false cs

/-- What a class shows next when it decides about a dash: blanks are passed over, and so is one `#`
with the blanks behind it. -/
def glance (verbose : Bool) (cs : List Char) : Option Char :=
  if verbose then
    match cs.dropWhile Unicode.isWhiteSpace with
    | '#' :: rest => (rest.dropWhile Unicode.isWhiteSpace).head?
    | cs => cs.head?
  else cs.head?

end Docket.Pattern
