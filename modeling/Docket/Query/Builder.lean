import Docket.Error
import Docket.Query.Document

/-!
Building queries call by call. A query needs an equality or a range constraint; patterns and
batches only narrow one that has it.
-/

set_option autoImplicit false
set_option relaxedAutoImplicit false

namespace Docket

structure QueryBuilder where
  equality : List Constraint := []
  batch : List Constraint := []
  range : List Constraint := []
  regex : List Constraint := []
  fields : Option (List String) := none
  size : Option UInt64 := none
  sort : List SortKey := []
  fetchAll : Option Bool := none

namespace QueryBuilder

inductive Call where
  | constraint (c : Constraint)
  /-- Restricts the fields returned; an empty list lifts the restriction. -/
  | fields (names : List String)
  | size (n : UInt64)
  | sort (key : SortKey)
  | fetchAll (wanted : Bool)

namespace Call

variable (field : String)

def equal (value : Json) : Call := .constraint (.equality field value)

def range (low high : Option Json) : Call := .constraint (.range field low high)

def between (low high : Json) : Call := range field (some low) (some high)

def atLeast (low : Json) : Call := range field (some low) none

def atMost (high : Json) : Call := range field none (some high)

def regex (pattern : String) : Call := .constraint (.regex field pattern)

def batch (values : List Json) : Call := .constraint (.batch field values)

end Call

def addConstraint (b : QueryBuilder) (c : Constraint) : QueryBuilder :=
  match c with
  | .equality .. => { b with equality := b.equality ++ [c] }
  | .batch .. => { b with batch := b.batch ++ [c] }
  | .range .. => { b with range := b.range ++ [c] }
  | .regex .. => { b with regex := b.regex ++ [c] }

def call (b : QueryBuilder) : Call → QueryBuilder
  | .constraint c => b.addConstraint c
  | .fields names => { b with fields := if names.isEmpty then none else some names }
  | .size n => { b with size := some n }
  | .sort key => { b with sort := b.sort ++ [key] }
  | .fetchAll wanted => { b with fetchAll := some wanted }

def ofCalls (calls : List Call) : QueryBuilder :=
  calls.foldl call {}

/-- The query built: constraints by kind, trivial ones left out. Without a size, every match is
wanted unless the caller says otherwise. -/
def compose (b : QueryBuilder) : Except QueryError Query :=
  if b.equality.isEmpty && b.range.isEmpty then
    .error (.invalidQuery "no range or equality constraints specified")
  else
    .ok {
      fields := b.fields
      constraints :=
        (b.equality ++ b.batch ++ b.range ++ b.regex).filter fun c => !c.isTrivial
      size := b.size.getD Query.defaultSize
      sort := if b.sort.isEmpty then none else some b.sort
      fetchAll := b.fetchAll.getD b.size.isNone }

end QueryBuilder

end Docket
