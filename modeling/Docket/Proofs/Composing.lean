import Docket.Query.Builder
import Mathlib.Data.List.Basic
import Mathlib.Data.List.Induction

/-!
What a list of builder calls composes to. Constraints and sort keys are gathered by kind, each in
the order of the calls, and of the calls that set something the last one counts. So how calls of
different kinds are mixed does not matter, and a further constraint changes the constraints alone.
-/

set_option autoImplicit false
set_option relaxedAutoImplicit false

namespace Docket.QueryBuilder

inductive Kind where
  | equality
  | batch
  | range
  | regex
  | fields
  | size
  | sort
  | fetchAll
  deriving DecidableEq

def constraintKind : Constraint → Kind
  | .equality .. => .equality
  | .batch .. => .batch
  | .range .. => .range
  | .regex .. => .regex

namespace Call

def kind : Call → Kind
  | .constraint c => constraintKind c
  | .fields _ => .fields
  | .size _ => .size
  | .sort _ => .sort
  | .fetchAll _ => .fetchAll

def constraintOf? (k : Kind) : Call → Option Constraint
  | .constraint c => if constraintKind c = k then some c else none
  | _ => none

@[simp] def names? : Call → Option (List String)
  | .fields names => some names
  | _ => none

@[simp] def size? : Call → Option UInt64
  | .size n => some n
  | _ => none

@[simp] def sortKey? : Call → Option SortKey
  | .sort key => some key
  | _ => none

@[simp] def wanted? : Call → Option Bool
  | .fetchAll wanted => some wanted
  | _ => none

end Call

variable (calls : List Call)

def constraintsOf (k : Kind) : List Constraint := calls.filterMap (Call.constraintOf? k)

/-- The fields of the last call that restricts them, unless it names none. -/
def lastFields : Option (List String) :=
  (calls.filterMap Call.names?).getLast?.filter fun names => !names.isEmpty

def lastSize : Option UInt64 := (calls.filterMap Call.size?).getLast?

def sortKeys : List SortKey := calls.filterMap Call.sortKey?

def lastWanted : Option Bool := (calls.filterMap Call.wanted?).getLast?

def askedFor : Query where
  fields := lastFields calls
  constraints :=
    (constraintsOf calls .equality ++ constraintsOf calls .batch ++ constraintsOf calls .range ++
      constraintsOf calls .regex).filter fun c => !c.isTrivial
  size := (lastSize calls).getD Query.defaultSize
  sort := if sortKeys calls = [] then none else some (sortKeys calls)
  fetchAll := (lastWanted calls).getD (calls.all fun call => call.kind ≠ .size)

section Gathering

private theorem ofCalls_eq : ofCalls calls = {
    equality := constraintsOf calls .equality
    batch := constraintsOf calls .batch
    range := constraintsOf calls .range
    regex := constraintsOf calls .regex
    fields := lastFields calls
    size := lastSize calls
    sort := sortKeys calls
    fetchAll := lastWanted calls } := by
  -- From the end: the builder is a fold, and the latest call is the one that counts.
  induction calls using List.reverseRecOn with
  | nil => rfl
  | append_singleton calls c ih =>
    have hconcat : ofCalls (calls ++ [c]) = (ofCalls calls).call c := by simp [ofCalls]
    rw [hconcat, ih]
    simp only [constraintsOf, lastFields, lastSize, sortKeys, lastWanted]
    cases c with
    | constraint c =>
      cases c <;> simp [call, addConstraint, Call.constraintOf?, constraintKind]
    | fields names => cases names <;> simp [call, Call.constraintOf?, Option.filter]
    | size n => simp [call, Call.constraintOf?]
    | sort key => simp [call, Call.constraintOf?]
    | fetchAll wanted => simp [call, Call.constraintOf?]

private theorem constraintsOf_eq_nil_iff {k : Kind} (hk : k = .equality ∨ k = .range) :
    constraintsOf calls k = [] ↔ ∀ call ∈ calls, call.kind ≠ k := by
  rw [constraintsOf, List.filterMap_eq_nil_iff]
  refine forall₂_congr fun call _ => ?_
  cases call with
  | constraint c => simp [Call.constraintOf?, Call.kind]
  | _ => rcases hk with rfl | rfl <;> simp [Call.constraintOf?, Call.kind]

private theorem isNone_lastSize :
    (lastSize calls).isNone = calls.all fun call => call.kind ≠ .size := by
  rw [Bool.eq_iff_iff, lastSize, Option.isNone_iff_eq_none, List.getLast?_eq_none_iff,
    List.filterMap_eq_nil_iff, List.all_eq_true]
  refine forall₂_congr fun call _ => ?_
  cases call with
  | constraint c => cases c <;> simp [Call.kind, constraintKind]
  | _ => simp [Call.kind]

end Gathering

section Adding

private theorem compose_ofCalls_eq : (ofCalls calls).compose =
    if constraintsOf calls .equality = [] ∧ constraintsOf calls .range = [] then
      .error (.invalidQuery "no range or equality constraints specified")
    else .ok (askedFor calls) := by
  simp only [ofCalls_eq, compose, askedFor, isNone_lastSize, Bool.and_eq_true, List.isEmpty_iff]

theorem constraintsOf_append (c : Constraint) (k : Kind) :
    constraintsOf (calls ++ [.constraint c]) k =
      constraintsOf calls k ++ if constraintKind c = k then [c] else [] := by
  rw [constraintsOf, List.filterMap_append]
  by_cases hk : constraintKind c = k <;> simp [constraintsOf, Call.constraintOf?, hk]

variable {calls}

theorem kind_of_constraintOf? {k : Kind} {call : Call} {c : Constraint}
    (h : call.constraintOf? k = some c) : constraintKind c = k := by
  cases call with
  | constraint e =>
    rw [Call.constraintOf?] at h
    split at h
    · obtain rfl := Option.some.inj h
      assumption
    · simp at h
  | _ => simp [Call.constraintOf?] at h

theorem eq_askedFor {q : Query} (h : (ofCalls calls).compose = .ok q) : q = askedFor calls := by
  rw [compose_ofCalls_eq] at h
  split at h
  · simp at h
  · exact (Except.ok.inj h).symm

theorem compose_append {q : Query} (h : (ofCalls calls).compose = .ok q) (c : Constraint) :
    (ofCalls (calls ++ [.constraint c])).compose =
      .ok (askedFor (calls ++ [.constraint c])) := by
  rw [compose_ofCalls_eq] at h ⊢
  split at h
  · simp at h
  · rename_i hkinds
    rw [if_neg]
    simp only [constraintsOf_append, List.append_eq_nil_iff]
    intro hnone
    exact hkinds ⟨hnone.1.1, hnone.2.1⟩

theorem askedFor_append (calls : List Call) (c : Constraint) :
    askedFor (calls ++ [.constraint c]) =
      { askedFor calls with constraints := (askedFor (calls ++ [.constraint c])).constraints } := by
  have hkept : ∀ {α : Type} (read : Call → Option α), read (.constraint c) = none →
      (calls ++ [Call.constraint c]).filterMap read = calls.filterMap read := by
    intro α read hread
    simp [hread]
  have hsize : (calls ++ [Call.constraint c]).all (fun call => call.kind ≠ .size) =
      calls.all fun call => call.kind ≠ .size := by
    cases c <;> simp [Call.kind, constraintKind]
  simp only [askedFor, lastFields, lastSize, sortKeys, lastWanted, hsize,
    hkept Call.names? rfl, hkept Call.size? rfl, hkept Call.sortKey? rfl, hkept Call.wanted? rfl]
  rfl

end Adding

section Mixing

variable {calls} {others : List Call}

/-- Two lists of calls that have the same calls of each kind in the same order. -/
def SameByKind (calls others : List Call) : Prop :=
  ∀ k : Kind, calls.filter (fun call => call.kind = k) = others.filter fun call => call.kind = k

private theorem SameByKind.filterMap_eq {α : Type} (h : SameByKind calls others)
    {read : Call → Option α} {k : Kind} (hread : ∀ call, call.kind ≠ k → read call = none) :
    calls.filterMap read = others.filterMap read := by
  have honly : ∀ list : List Call,
      list.filterMap read = (list.filter fun call => call.kind = k).filterMap read := by
    intro list
    rw [List.filterMap_filter]
    refine List.filterMap_congr fun call _ => ?_
    by_cases hk : call.kind = k
    · simp [hk]
    · simp [hk, hread call hk]
  rw [honly calls, honly others, h k]

theorem SameByKind.ofCalls_eq (h : SameByKind calls others) : ofCalls calls = ofCalls others := by
  have hconstraints : ∀ k, constraintsOf calls k = constraintsOf others k := by
    intro k
    refine h.filterMap_eq (k := k) fun call hk => ?_
    cases call with
    | constraint c => exact if_neg hk
    | _ => rfl
  have hnames : calls.filterMap Call.names? = others.filterMap Call.names? := by
    refine h.filterMap_eq (k := .fields) fun call hk => ?_
    cases call <;> simp_all [Call.kind]
  have hsizes : calls.filterMap Call.size? = others.filterMap Call.size? := by
    refine h.filterMap_eq (k := .size) fun call hk => ?_
    cases call <;> simp_all [Call.kind]
  have hkeys : calls.filterMap Call.sortKey? = others.filterMap Call.sortKey? := by
    refine h.filterMap_eq (k := .sort) fun call hk => ?_
    cases call <;> simp_all [Call.kind]
  have hwanted : calls.filterMap Call.wanted? = others.filterMap Call.wanted? := by
    refine h.filterMap_eq (k := .fetchAll) fun call hk => ?_
    cases call <;> simp_all [Call.kind]
  simp only [QueryBuilder.ofCalls_eq, hconstraints, lastFields, lastSize, sortKeys, lastWanted,
    hnames, hsizes, hkeys, hwanted]

end Mixing

/-- Composing fails exactly when no call adds an equality or a range, trivial ones included, and
otherwise gives the query that the calls ask for. Mixing the kinds of calls differently composes to
the same. -/
theorem compose_ofCalls (calls : List Call) :
    ((∃ reason, (ofCalls calls).compose = .error (.invalidQuery reason)) ↔
      ∀ call ∈ calls, call.kind ≠ .equality ∧ call.kind ≠ .range) ∧
    ((∃ call ∈ calls, call.kind = .equality ∨ call.kind = .range) →
      (ofCalls calls).compose = .ok (askedFor calls)) ∧
    ∀ others, SameByKind calls others → (ofCalls calls).compose = (ofCalls others).compose := by
  have hcompose : (ofCalls calls).compose =
      if ∀ call ∈ calls, call.kind ≠ .equality ∧ call.kind ≠ .range then
        .error (.invalidQuery "no range or equality constraints specified")
      else .ok (askedFor calls) := by
    have hequality := constraintsOf_eq_nil_iff calls (.inl rfl)
    have hrange := constraintsOf_eq_nil_iff calls (.inr rfl)
    simp only [ofCalls_eq, compose, askedFor, isNone_lastSize, Bool.and_eq_true,
      List.isEmpty_iff, hequality, hrange, forall_and]
  refine ⟨?_, ?_, fun others h => by rw [h.ofCalls_eq]⟩
  · rw [hcompose]
    split <;> simp_all
  · rintro ⟨call, hmem, hkind⟩
    rw [hcompose, if_neg]
    intro hnone
    exact hkind.elim (hnone call hmem).1 (hnone call hmem).2

def mixedCalls : List Call :=
  [.size 20, .regex "host" "h[1-4]", .atLeast "n" (.ofNat 1), .fields ["n"], .equal "" .null,
    .sort ⟨"n", .desc⟩, .batch "site" [.string "a"], .fields [], .equal "up" (.bool true),
    .range "m" none none, .size 5]

def groupedCalls : List Call :=
  [.equal "" .null, .equal "up" (.bool true), .batch "site" [.string "a"], .atLeast "n" (.ofNat 1),
    .range "m" none none, .regex "host" "h[1-4]", .fields ["n"], .fields [], .size 20, .size 5,
    .sort ⟨"n", .desc⟩]

theorem compose_ofCalls_mixed :
    SameByKind mixedCalls groupedCalls ∧
    (ofCalls mixedCalls).compose = .ok {
      fields := none
      constraints := [.equality "up" (.bool true), .batch "site" [.string "a"],
        .range "n" (some (.ofNat 1)) none, .regex "host" "h[1-4]"]
      size := 5
      sort := some [⟨"n", .desc⟩]
      fetchAll := false } ∧
    (ofCalls mixedCalls).compose = (ofCalls groupedCalls).compose := by
  obtain ⟨-, hcomposes, hmixing⟩ := compose_ofCalls mixedCalls
  have hsame : SameByKind mixedCalls groupedCalls := by
    intro k
    cases k <;> rfl
  exact ⟨hsame, hcomposes ⟨.atLeast "n" (.ofNat 1), by simp [mixedCalls], .inr rfl⟩,
    hmixing groupedCalls hsame⟩

end Docket.QueryBuilder
