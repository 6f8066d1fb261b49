import Docket.Query.Document
import Docket.Store.Clause

/-!
What the constraints of a query mean for stored documents. Rendered as clauses and read back, the
constraints select exactly the documents that satisfy them; only a malformed pattern can make the
selection fail.
-/

set_option autoImplicit false
set_option relaxedAutoImplicit false

namespace Docket

namespace Constraint

def Admits : Constraint → Json → Prop
  | .equality _ expected, v => v.compare expected = .eq
  | .batch _ allowed, v => ∃ a ∈ allowed, v.compare a = .eq
  | .range _ low high, v =>
    (∀ l ∈ low, v.compare l ≠ .lt) ∧ ∀ h ∈ high, v.compare h ≠ .gt
  | .regex _ pattern, v =>
    ∃ p ∈ (Pattern.compile (Pattern.anchored pattern)).toOption,
      ∃ s ∈ v.string?, p.occursIn s = true

instance (c : Constraint) : DecidablePred c.Admits := fun v =>
  match c with
  | .equality _ expected => inferInstanceAs (Decidable (v.compare expected = .eq))
  | .batch _ allowed => inferInstanceAs (Decidable (∃ a ∈ allowed, v.compare a = .eq))
  | .range _ low high => inferInstanceAs (Decidable (
      (∀ l ∈ low, v.compare l ≠ .lt) ∧ ∀ h ∈ high, v.compare h ≠ .gt))
  | .regex _ pattern => inferInstanceAs (Decidable (
      ∃ p ∈ (Pattern.compile (Pattern.anchored pattern)).toOption,
        ∃ s ∈ v.string?, p.occursIn s = true))

/-- Whether a document satisfies a constraint: it has the field, and the value of the field, or an
item of it if it is a list, is admitted. -/
def Accepts (c : Constraint) (d : StoredDocument) : Prop :=
  ∃ v ∈ d.field? c.field, ∃ item ∈ v.asList, c.Admits item

instance (c : Constraint) : DecidablePred c.Accepts := fun d =>
  inferInstanceAs (Decidable (∃ v ∈ d.field? c.field, ∃ item ∈ v.asList, c.Admits item))

/-- What a store answers to a constraint whose pattern does not compile. -/
def malformed? : Constraint → Option EngineError
  | .regex _ pattern =>
    match Pattern.compile (Pattern.anchored pattern) with
    | .ok _ => none
    | .error cause =>
      some (Clause.refused ("invalid regexp '" ++ pattern ++ "': " ++ cause.message))
  | _ => none

def toClause : Constraint → Clause
  | .equality f v => .term f v
  | .batch f vs => .terms f vs
  | .range f low high => .range f low high
  | .regex f pattern => .regexp f pattern

theorem ofJson?_clause {c : Constraint} {clause : Json} (h : c.clause? = some clause) :
    Clause.ofJson? clause = some c.toClause := by
  simp only [clause?] at h
  split at h
  · simp at h
  · obtain rfl := Option.some.inj h
    cases c with
    | equality f v => rfl
    | batch f vs => rfl
    | regex f pattern => rfl
    | range f low high => cases low <;> cases high <;> rfl

private theorem ok_decide {P : Json → Prop} [DecidablePred P] {test : Json → Bool}
    (h : ∀ v, test v = true ↔ P v) :
    (.ok test : Except EngineError (Json → Bool)) = .ok fun v => decide (P v) := by
  have htest : test = fun v => decide (P v) := by
    funext v
    rw [Bool.eq_iff_iff, decide_eq_true_iff]
    exact h v
  rw [htest]

theorem test_toClause (c : Constraint) :
    c.toClause.test = match c.malformed? with
      | some e => .error e
      | none => .ok fun v => decide (c.Admits v) := by
  cases c with
  | equality f expected =>
    refine ok_decide fun v => ?_
    simp [Admits, Clause.same]
  | batch f allowed =>
    refine ok_decide fun v => ?_
    simp [Admits, Clause.same]
  | range f low high =>
    refine ok_decide fun v => ?_
    cases low <;> cases high <;> simp [Admits, Clause.between]
  | regex f pattern =>
    simp only [toClause, Clause.test, malformed?]
    cases hp : Pattern.compile (Pattern.anchored pattern) with
    | error cause => rfl
    | ok p =>
      refine ok_decide fun v => ?_
      cases hv : v.string? <;> simp [Admits, hp, hv, Except.toOption]

theorem holds_clause {c : Constraint} {clause : Json} (h : c.clause? = some clause)
    (d : StoredDocument) :
    Clause.holds clause d = match c.malformed? with
      | some e => .error e
      | none => .ok (decide (c.Accepts d)) := by
  have hfield : c.toClause.field = c.field := by cases c <;> rfl
  simp only [Clause.holds, ofJson?_clause h, Clause.accepts, test_toClause, hfield]
  cases c.malformed? with
  | some e => rfl
  | none =>
    simp only [Except.map, Except.ok.injEq]
    rw [Bool.eq_iff_iff, decide_eq_true_iff]
    simp [Accepts, Option.any_eq_true, List.any_eq_true]

theorem clause?_eq_none_iff (c : Constraint) : c.clause? = none ↔ c.isTrivial = true := by
  simp only [clause?]
  split <;> simp_all

theorem allHold_ok {cs : List Constraint} {d : StoredDocument} {b : Bool}
    (h : Clause.allHold (cs.filterMap clause?) d = .ok b) :
    b = decide (∀ c ∈ cs, c.isTrivial = false → c.Accepts d) := by
  induction cs with
  | nil =>
    cases h
    simp
  | cons c cs ih =>
    cases hc : c.clause? with
    | none =>
      rw [List.filterMap_cons_none hc] at h
      simp [ih h, (clause?_eq_none_iff c).mp hc]
    | some clause =>
      have hnontrivial : c.isTrivial = false := by
        rw [← Bool.not_eq_true, ← clause?_eq_none_iff, hc]
        simp
      rw [List.filterMap_cons_some hc, Clause.allHold, holds_clause hc] at h
      cases hm : c.malformed? with
      | some e => simp [hm] at h
      | none =>
        by_cases ha : c.Accepts d
        · simp only [hm, ha, decide_true] at h
          simp [ih h, hnontrivial, ha]
        · simp only [hm, ha, decide_false] at h
          cases h
          simp [hnontrivial, ha]

theorem allHold_succeeds {cs : List Constraint} (hcs : ∀ c ∈ cs, c.malformed? = none)
    (d : StoredDocument) : ∃ b, Clause.allHold (cs.filterMap clause?) d = .ok b := by
  induction cs with
  | nil => exact ⟨true, rfl⟩
  | cons c cs ih =>
    have ih' := ih fun c' hc' => hcs c' (List.mem_cons_of_mem c hc')
    cases hc : c.clause? with
    | none => rwa [List.filterMap_cons_none hc]
    | some clause =>
      rw [List.filterMap_cons_some hc, Clause.allHold, holds_clause hc, hcs c List.mem_cons_self]
      by_cases ha : c.Accepts d
      · simpa [ha] using ih'
      · exact ⟨false, by simp [ha]⟩

end Constraint

namespace Query

def Selects (q : Query) (d : StoredDocument) : Prop :=
  ∀ c ∈ q.constraints, c.isTrivial = false → c.Accepts d

instance (q : Query) : DecidablePred q.Selects := fun d =>
  inferInstanceAs (Decidable (∀ c ∈ q.constraints, c.isTrivial = false → c.Accepts d))

/-- Whether every pattern compiles, in the form in which a store compiles it. -/
def PatternsCompile (q : Query) : Prop :=
  ∀ field pattern, .regex field pattern ∈ q.constraints →
    ∃ p, Pattern.compile (Pattern.anchored pattern) = .ok p

theorem malformed?_of_patternsCompile {q : Query} (h : q.PatternsCompile) :
    ∀ c ∈ q.constraints, c.malformed? = none := by
  intro c hc
  cases c with
  | equality f v => rfl
  | batch f vs => rfl
  | range f low high => rfl
  | regex f pattern =>
    obtain ⟨p, hp⟩ := h f pattern hc
    simp [Constraint.malformed?, hp]

theorem select_ok {q : Query} {docs found : List StoredDocument}
    (h : Clause.select q.clauses docs = .ok found) : found = docs.filter q.Selects := by
  induction docs generalizing found with
  | nil => simpa [Clause.select, eq_comm] using h
  | cons d docs ih =>
    simp only [Clause.select] at h
    cases hd : Clause.allHold q.clauses d with
    | error e => simp [hd] at h
    | ok keep =>
      cases hrest : Clause.select q.clauses docs with
      | error e => simp [hd, hrest, Except.map] at h
      | ok rest =>
        simp only [hd, hrest, Except.map, Except.ok.injEq] at h
        have hkeep : keep = decide (q.Selects d) := Constraint.allHold_ok hd
        rw [← h, hkeep, List.filter_cons, ← ih hrest]

theorem select_succeeds {q : Query} (h : q.PatternsCompile) (docs : List StoredDocument) :
    ∃ found, Clause.select q.clauses docs = .ok found := by
  induction docs with
  | nil => exact ⟨[], rfl⟩
  | cons d docs ih =>
    obtain ⟨rest, hrest⟩ := ih
    obtain ⟨keep, hkeep⟩ := Constraint.allHold_succeeds (malformed?_of_patternsCompile h) d
    have hkeep' : Clause.allHold q.clauses d = .ok keep := hkeep
    exact ⟨_, by simp only [Clause.select, hkeep', hrest, Except.map]; rfl⟩

theorem select_eq_filter {q : Query} (h : q.PatternsCompile) (docs : List StoredDocument) :
    Clause.select q.clauses docs = .ok (docs.filter q.Selects) := by
  obtain ⟨found, hfound⟩ := select_succeeds h docs
  rw [hfound, select_ok hfound]

end Query

end Docket
