import Docket.Json.Quoted
import Docket.Number

/-!
JSON values and their compact text. An object is a list of members; the values of this library keep
the members sorted by key (`Docket.Record`), and the text shows them in the order of the list.
-/

set_option autoImplicit false
set_option relaxedAutoImplicit false

namespace Docket

inductive Json where
  | null
  | bool (b : Bool)
  | number (n : Number)
  | string (s : String)
  | array (items : List Json)
  | object (members : List (String × Json))

namespace Json

mutual

def decEq : (a b : Json) → Decidable (a = b)
  | .null, .null => isTrue rfl
  | .bool a, .bool b => decidable_of_iff (a = b) (by simp)
  | .number a, .number b => decidable_of_iff (a = b) (by simp)
  | .string a, .string b => decidable_of_iff (a = b) (by simp)
  | .array a, .array b =>
    match decEqItems a b with
    | isTrue h => isTrue (by rw [h])
    | isFalse h => isFalse (by simpa using h)
  | .object a, .object b =>
    match decEqMembers a b with
    | isTrue h => isTrue (by rw [h])
    | isFalse h => isFalse (by simpa using h)
  | .null, .bool _ | .null, .number _ | .null, .string _ | .null, .array _ | .null, .object _
  | .bool _, .null | .bool _, .number _ | .bool _, .string _ | .bool _, .array _
  | .bool _, .object _
  | .number _, .null | .number _, .bool _ | .number _, .string _ | .number _, .array _
  | .number _, .object _
  | .string _, .null | .string _, .bool _ | .string _, .number _ | .string _, .array _
  | .string _, .object _
  | .array _, .null | .array _, .bool _ | .array _, .number _ | .array _, .string _
  | .array _, .object _
  | .object _, .null | .object _, .bool _ | .object _, .number _ | .object _, .string _
  | .object _, .array _ => isFalse (by simp)

def decEqItems : (a b : List Json) → Decidable (a = b)
  | [], [] => isTrue rfl
  | [], _ :: _ => isFalse (by simp)
  | _ :: _, [] => isFalse (by simp)
  | x :: xs, y :: ys =>
    match decEq x y, decEqItems xs ys with
    | isTrue h, isTrue t => isTrue (by rw [h, t])
    | isFalse h, _ => isFalse (by simp [h])
    | _, isFalse t => isFalse (by simp [t])

def decEqMembers : (a b : List (String × Json)) → Decidable (a = b)
  | [], [] => isTrue rfl
  | [], _ :: _ => isFalse (by simp)
  | _ :: _, [] => isFalse (by simp)
  | (k, x) :: xs, (l, y) :: ys =>
    match decEq x y, decEqMembers xs ys with
    | isTrue h, isTrue t => decidable_of_iff (k = l) (by simp [h, t])
    | isFalse h, _ => isFalse (by simp [h])
    | _, isFalse t => isFalse (by simp [t])

end

instance : DecidableEq Json := decEq

def commaSeparated : List (List Char) → List Char
  | [] => []
  | t :: rest => t ++ rest.flatMap (',' :: ·)

mutual

/-- Compact text: no blanks, members in the order of the list. -/
def render : Json → List Char
  | .null => ['n', 'u', 'l', 'l']
  | .bool true => ['t', 'r', 'u', 'e']
  | .bool false => ['f', 'a', 'l', 's', 'e']
  | .number n => n.render
  | .string s => Quoted.render s
  | .array items => '[' :: (commaSeparated (renderItems items) ++ [']'])
  | .object members => '{' :: (commaSeparated (renderMembers members) ++ ['}'])

def renderItems : List Json → List (List Char)
  | [] => []
  | v :: rest => render v :: renderItems rest

def renderMembers : List (String × Json) → List (List Char)
  | [] => []
  | (k, v) :: rest => (Quoted.render k ++ ':' :: render v) :: renderMembers rest

end

def text (v : Json) : String := String.ofList v.render

def ofUInt64 (n : UInt64) : Json := .number (.ofUInt64 n)

def ofNat (n : Nat) : Json := .number (.ofNat n)

def string? : Json → Option String
  | .string s => some s
  | _ => none

def items? : Json → Option (List Json)
  | .array items => some items
  | _ => none

def members? : Json → Option (List (String × Json))
  | .object members => some members
  | _ => none

def bool? : Json → Option Bool
  | .bool b => some b
  | _ => none

def unsigned? : Json → Option Nat
  | .number n => n.unsigned?
  | _ => none

def get? (key : String) : Json → Option Json
  | .object members => members.lookup key
  | _ => none

/-- The value itself as a list of one, unless it is a list already. -/
def asList : Json → List Json
  | .array items => items
  | v => [v]

end Json

end Docket
