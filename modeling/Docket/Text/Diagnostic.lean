import Docket.Text.Unprintable

/-!
Strings and lists as diagnostics show them: in quotes, with escapes for what cannot be seen.
-/

set_option autoImplicit false
set_option relaxedAutoImplicit false

namespace Docket.Diagnostic

/-- A code point by number: hexadecimal digits in braces, without leading zeros. -/
def byNumber (c : Char) : List Char :=
  '\\' :: 'u' :: '{' :: (Nat.toDigits 16 c.toNat ++ ['}'])

def escape (c : Char) : List Char :=
  if c = '"' then ['\\', '"']
  else if c = '\\' then ['\\', '\\']
  else if c = '\n' then ['\\', 'n']
  else if c = '\r' then ['\\', 'r']
  else if c = '\t' then ['\\', 't']
  else if c.toNat = 0 then ['\\', '0']
  else if isUnprintable c then byNumber c
  else [c]

def quoted (s : String) : String :=
  String.ofList ('"' :: (s.toList.flatMap escape ++ ['"']))

def list (ss : List String) : String :=
  "[" ++ ", ".intercalate (ss.map quoted) ++ "]"

def fields (name : String) (parts : List (String × String)) : String :=
  name ++ " \x7b " ++ ", ".intercalate (parts.map fun p => p.1 ++ ": " ++ p.2) ++ " \x7d"

end Docket.Diagnostic
