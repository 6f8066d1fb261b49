import Docket.Json.Tree

/-!
Decoding structured data from documents. A decoder sees a document node by node through `Node`, so
the same decoder reads a value and reads a text directly. From a text it looks only at the members
it knows: the others are bound by the grammar alone, not by the limits on nesting and numbers.
-/

set_option autoImplicit false
set_option relaxedAutoImplicit false

namespace Docket.Json

inductive View (ν : Type) where
  | null
  | bool (b : Bool)
  | number (n : Number)
  | string (s : String)
  | items (nodes : List ν)
  | members (nodes : List (String × ν))

/-- Documents that can be looked at node by node. -/
class Node (ν : Type) where
  view : ν → Option (View ν)
  value : ν → Option Json

instance : Node Json where
  view
    | .null => some .null
    | .bool b => some (.bool b)
    | .number n => some (.number n)
    | .string s => some (.string s)
    | .array items => some (.items items)
    | .object members => some (.members members)
  value := some

/-- A tree at a place where lists and objects may nest `depth` further levels. -/
structure Placed where
  depth : Nat
  tree : Tree

def Placed.members? (depth : Nat) :
    List (List Quoted.Piece × Tree) → Option (List (String × Placed))
  | [] => some []
  | (key, t) :: rest =>
    match Quoted.string? key, members? depth rest with
    | some k, some ms => some ((k, ⟨depth, t⟩) :: ms)
    | _, _ => none

instance : Node Placed where
  view
    | ⟨_, .null⟩ => some .null
    | ⟨_, .bool b⟩ => some (.bool b)
    | ⟨_, .number l⟩ => l.number?.map .number
    | ⟨_, .string ps⟩ => (Quoted.string? ps).map .string
    | ⟨0, .array _⟩ => none
    | ⟨depth + 1, .array items⟩ => some (.items (items.map fun t => ⟨depth, t⟩))
    | ⟨0, .object _⟩ => none
    | ⟨depth + 1, .object members⟩ => (Placed.members? depth members).map .members
  value p := ofTree? p.depth p.tree

section

variable {ν : Type} [Node ν]

/-- The node of a known key among the members: `some none` when absent, `none` when repeated. -/
def field? (key : String) (members : List (String × ν)) : Option (Option ν) :=
  match members.filter fun m => m.1 == key with
  | [] => some none
  | [m] => some (some m.2)
  | _ => none

/-- The nodes of known fields, in order. A list gives the fields by position and may end early; an
object gives them by key, and its other members are not looked at. -/
def fields? (keys : List String) (node : ν) : Option (List (Option ν)) :=
  match Node.view node with
  | some (.items nodes) =>
    if nodes.length ≤ keys.length then
      some (nodes.map some ++ List.replicate (keys.length - nodes.length) none)
    else none
  | some (.members members) => keys.mapM fun key => field? key members
  | _ => none

def stringOf? (node : ν) : Option String :=
  match Node.view node with
  | some (.string s) => some s
  | _ => none

def naturalOf? (bound : Nat) (node : ν) : Option Nat :=
  match Node.view node with
  | some (.number n) => n.unsigned?.filter (· < bound)
  | _ => none

def listOf? {α : Type} (item : ν → Option α) (node : ν) : Option (List α) :=
  match Node.view node with
  | some (.items nodes) => nodes.mapM item
  | _ => none

def recordOf? (node : ν) : Option Record :=
  (Node.value node).bind record?

/-- One of a list of names: a string, or an object whose only key is the name, with value null. -/
def nameOf? {α : Type} (named : String → Option α) (node : ν) : Option α :=
  match Node.view node with
  | some (.string s) => named s
  | some (.members [(key, inner)]) =>
    match Node.view inner with
    | some .null => named key
    | _ => none
  | _ => none

/-- An optional field: absent and null are the same. -/
def optional? {α : Type} (decode : ν → Option α) : Option ν → Option (Option α)
  | none => some none
  | some node =>
    match Node.view node with
    | some .null => some none
    | _ => (decode node).map some

/-- A field with a default: only an absent one takes it. -/
def defaulted? {α : Type} (otherwise : α) (decode : ν → Option α) : Option ν → Option α
  | none => some otherwise
  | some node => decode node

def required? {α : Type} (decode : ν → Option α) : Option ν → Option α
  | none => none
  | some node => decode node

end

def decodeText? {α : Type} (decode : Placed → Option α) (text : String) : Option α :=
  (Tree.ofText? text).bind fun t => decode ⟨depthLimit, t⟩

end Docket.Json
