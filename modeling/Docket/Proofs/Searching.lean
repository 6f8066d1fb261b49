import Docket.Proofs.Results

/-!
What a store in memory finds for a query, patterns that do not compile included. Constraints are
tried in the order of the query until one of them is not satisfied, so a malformed pattern is
noticed only by a document that satisfies every constraint before it.
-/

set_option autoImplicit false
set_option relaxedAutoImplicit false

namespace Docket

namespace Constraint

def rendered (cs : List Constraint) : List Constraint := cs.filter fun c => !c.isTrivial

def firstMalformed? (cs : List Constraint) : Option EngineError :=
  (rendered cs).findSome? malformed?

def beforeMalformed (cs : List Constraint) : List Constraint :=
  (rendered cs).takeWhile fun c => c.malformed?.isNone

variable {c : Constraint} {cs : List Constraint} {d : StoredDocument} {e : EngineError}

theorem rendered_cons_of_trivial (hc : c.isTrivial = true) : rendered (c :: cs) = rendered cs := by
  simp [rendered, hc]

theorem rendered_cons_of_not_trivial (hc : c.isTrivial = false) :
    rendered (c :: cs) = c :: rendered cs := by
  simp [rendered, hc]

private theorem not_accepts_of_malformed (hc : c.malformed? = some e) : ¬ c.Accepts d := by
  rintro ⟨v, -, item, -, hadmits⟩
  cases c with
  | equality f expected => simp [malformed?] at hc
  | batch f allowed => simp [malformed?] at hc
  | range f low high => simp [malformed?] at hc
  | regex f pattern =>
    obtain ⟨p, hp, -⟩ := hadmits
    cases hcompile : Pattern.compile (Pattern.anchored pattern) with
    | ok p => simp [malformed?, hcompile] at hc
    | error cause => simp [hcompile, Except.toOption] at hp

private theorem malformed?_status (hc : c.malformed? = some e) :
    ∃ reason, e = .status 400 reason := by
  cases c with
  | equality f expected => simp [malformed?] at hc
  | batch f allowed => simp [malformed?] at hc
  | range f low high => simp [malformed?] at hc
  | regex f pattern =>
    simp only [malformed?] at hc
    split at hc
    · simp at hc
    · exact ⟨_, (Option.some.inj hc).symm⟩

/-- The test of all clauses comes to the first malformed pattern if the constraints before it are
satisfied, and otherwise tells whether all constraints are. -/
theorem allHold_eq (cs : List Constraint) (d : StoredDocument) :
    Clause.allHold (cs.filterMap clause?) d =
      match firstMalformed? cs with
      | some e => if (beforeMalformed cs).all (·.Accepts d) then .error e else .ok false
      | none => .ok ((rendered cs).all (·.Accepts d)) := by
  induction cs with
  | nil => rfl
  | cons c cs ih =>
    cases hc : c.clause? with
    | none =>
      have htrivial := (clause?_eq_none_iff c).mp hc
      have hrendered : rendered (c :: cs) = rendered cs := rendered_cons_of_trivial htrivial
      have hfirst : firstMalformed? (c :: cs) = firstMalformed? cs := by
        rw [firstMalformed?, hrendered, firstMalformed?]
      have hbefore : beforeMalformed (c :: cs) = beforeMalformed cs := by
        rw [beforeMalformed, hrendered, beforeMalformed]
      rw [List.filterMap_cons_none hc, ih, hfirst, hbefore, hrendered]
    | some clause =>
      have hsays : c.isTrivial = false := by
        rw [← Bool.not_eq_true, ← clause?_eq_none_iff, hc]
        simp
      rw [List.filterMap_cons_some hc, Clause.allHold, holds_clause hc, firstMalformed?,
        beforeMalformed, rendered_cons_of_not_trivial hsays]
      cases hm : c.malformed? with
      | some e => simp [hm]
      | none =>
        -- the constraint is well formed, so the rest decides unless the document fails here
        by_cases ha : c.Accepts d
        · simp [hm, ha, ih, firstMalformed?, beforeMalformed]
        · cases hfirst : (rendered cs).findSome? malformed? <;> simp [hm, ha, hfirst]

end Constraint

namespace Query

/-- Some document satisfies every constraint before the first malformed pattern. -/
def MeetsMalformed (q : Query) (docs : List StoredDocument) : Prop :=
  Constraint.firstMalformed? q.constraints ≠ none ∧
    ∃ d ∈ docs, ∀ c ∈ Constraint.beforeMalformed q.constraints, c.Accepts d

instance (q : Query) (docs : List StoredDocument) : Decidable (q.MeetsMalformed docs) :=
  inferInstanceAs (Decidable (_ ∧ _))

private theorem selects_iff (q : Query) (d : StoredDocument) :
    q.Selects d ↔ ∀ c ∈ Constraint.rendered q.constraints, c.Accepts d := by
  simp [Selects, Constraint.rendered]

private theorem not_selects_of_malformed {q : Query} {e : EngineError}
    (he : Constraint.firstMalformed? q.constraints = some e) (d : StoredDocument) :
    ¬ q.Selects d := by
  intro hselects
  obtain ⟨c, hc, hmalformed⟩ := List.exists_of_findSome?_eq_some he
  exact Constraint.not_accepts_of_malformed hmalformed ((q.selects_iff d).mp hselects c hc)

private theorem allHold_clauses {q : Query} {d : StoredDocument} (h : ¬ q.MeetsMalformed [d]) :
    Clause.allHold q.clauses d = .ok (decide (q.Selects d)) := by
  rw [clauses, Constraint.allHold_eq]
  cases he : Constraint.firstMalformed? q.constraints with
  | none =>
    have hall : ((Constraint.rendered q.constraints).all (·.Accepts d) = true) ↔ q.Selects d := by
      rw [selects_iff, List.all_eq_true]
      simp only [decide_eq_true_eq]
    simp only [← hall, Bool.decide_eq_true]
  | some e =>
    have hstops : ¬ (Constraint.beforeMalformed q.constraints).all (·.Accepts d) = true := by
      intro hall
      simp only [List.all_eq_true, decide_eq_true_eq] at hall
      exact h ⟨by simp [he], d, List.mem_singleton_self d, hall⟩
    have hnot := not_selects_of_malformed he d
    simp only [hstops, hnot, if_false, decide_false, Bool.false_eq_true]

private theorem allHold_clauses_of_meets {q : Query} {d : StoredDocument}
    (h : q.MeetsMalformed [d]) :
    ∃ reason, Clause.allHold q.clauses d = .error (.status 400 reason) := by
  obtain ⟨hsome, d', hd', hall⟩ := h
  rw [List.mem_singleton.mp hd'] at hall
  obtain ⟨e, he⟩ := Option.ne_none_iff_exists'.mp hsome
  obtain ⟨c, -, hmalformed⟩ := List.exists_of_findSome?_eq_some he
  obtain ⟨reason, rfl⟩ := Constraint.malformed?_status hmalformed
  refine ⟨reason, ?_⟩
  rw [clauses, Constraint.allHold_eq, he]
  exact if_pos (by simpa using hall)

private theorem meetsMalformed_cons_iff (q : Query) (d : StoredDocument)
    (docs : List StoredDocument) :
    q.MeetsMalformed (d :: docs) ↔ q.MeetsMalformed [d] ∨ q.MeetsMalformed docs := by
  simp only [MeetsMalformed, List.exists_mem_cons_iff, List.not_mem_nil, false_and, exists_false,
    or_false]
  tauto

private theorem select_of_meets {q : Query} {docs : List StoredDocument}
    (h : q.MeetsMalformed docs) :
    ∃ reason, Clause.select q.clauses docs = .error (.status 400 reason) := by
  induction docs with
  | nil =>
    obtain ⟨-, d, hd, -⟩ := h
    simp at hd
  | cons d docs ih =>
    by_cases hd : q.MeetsMalformed [d]
    · obtain ⟨reason, hreason⟩ := allHold_clauses_of_meets hd
      exact ⟨reason, by simp [Clause.select, hreason]⟩
    · have hrest := ((q.meetsMalformed_cons_iff d docs).mp h).resolve_left hd
      obtain ⟨reason, hreason⟩ := ih hrest
      exact ⟨reason, by simp [Clause.select, allHold_clauses hd, hreason, Except.map]⟩

private theorem select_of_not_meets {q : Query} {docs : List StoredDocument}
    (h : ¬ q.MeetsMalformed docs) :
    Clause.select q.clauses docs = .ok (docs.filter q.Selects) := by
  induction docs with
  | nil => rfl
  | cons d docs ih =>
    rw [meetsMalformed_cons_iff, not_or] at h
    rw [Clause.select, allHold_clauses h.1, ih h.2, List.filter_cons]
    rfl

end Query

/-- A search and a scan of the documents of an index fail with status 400 exactly when a document
comes to a malformed pattern. Otherwise they find the documents that satisfy every constraint that
says something, which the search sorts and puts on a page, and the scan gives in the order of the
index. -/
theorem Engine.search_selects (cap : Option Nat) (freshId : Nat → String) (m : InMemory)
    (index : String) (q : Query) (batch : Nat) (docs : List StoredDocument)
    (hfailure : m.failure = none) (hdocs : m.store.documents? index = some docs) :
    ((∃ reason, ((Engine.inMemory cap freshId).search index q.body m).1 =
        .error (.status 400 reason)) ↔ q.MeetsMalformed docs) ∧
    ((∃ reason, (((Engine.inMemory cap freshId).scan index q.scanBody batch none m).1 =
        .error (.status 400 reason))) ↔ q.MeetsMalformed docs) ∧
    (¬ q.MeetsMalformed docs →
      ((Engine.inMemory cap freshId).search index q.body m).1 =
        .ok (.ofPage (docs.filter q.Selects).length
          (((StoredDocument.sortByAll q.keys (docs.filter q.Selects)).map fun d =>
            d.toHit index q.fields).take (Store.capped q.size.toNat cap))) ∧
      ((Engine.inMemory cap freshId).scan index q.scanBody batch none m).1 =
        .ok (.quiet ((docs.filter q.Selects).map fun d => .ok (d.toHit index q.fields)))) := by
  have hsearch : ((Engine.inMemory cap freshId).search index q.body m).1 =
      m.store.page index q.body cap := by
    simp [Engine.inMemory, InMemory.unlessFailing, hfailure]
  have hscan : ((Engine.inMemory cap freshId).scan index q.scanBody batch none m).1 =
      (m.store.hits index q.scanBody).map fun hits => .quiet (hits.map .ok) := by
    simp [Engine.inMemory, InMemory.unlessFailing, hfailure, takeUpTo]
  rw [hsearch, hscan, Query.body, Store.page_sizedBody hdocs, Store.hits_scanBody hdocs]
  by_cases hmeets : q.MeetsMalformed docs
  · obtain ⟨reason, hreason⟩ := Query.select_of_meets hmeets
    simp [hreason, Except.map, hmeets]
  · rw [Query.select_of_not_meets hmeets]
    simp [Except.map, hmeets, Function.comp_def]

def malformedQuery (state : String) : Query :=
  ⟨none, [.equality "state" (.string state), .regex "name" "("], 10, none, true⟩

theorem Engine.search_selects_hosts :
    Fetch.hostStore.failure = none ∧
      Fetch.hostStore.store.documents? "metadata" = some Fetch.hosts ∧
      (∃ reason, ((Engine.inMemory none fun _ => "new").search "metadata"
        (malformedQuery "up").body Fetch.hostStore).1 = .error (.status 400 reason)) ∧
      ((Engine.inMemory none fun _ => "new").search "metadata" (malformedQuery "away").body
        Fetch.hostStore).1 = .ok (.ofPage 0 []) := by
  have hup : (malformedQuery "up").MeetsMalformed Fetch.hosts := by decide +kernel
  have haway : ¬ (malformedQuery "away").MeetsMalformed Fetch.hosts := by decide +kernel
  have hnone : Fetch.hosts.filter (malformedQuery "away").Selects = [] := by decide +kernel
  obtain ⟨hfails, -, -⟩ := Engine.search_selects none (fun _ => "new") Fetch.hostStore "metadata"
    (malformedQuery "up") 10 Fetch.hosts rfl rfl
  obtain ⟨-, -, hfinds⟩ := Engine.search_selects none (fun _ => "new") Fetch.hostStore "metadata"
    (malformedQuery "away") 10 Fetch.hosts rfl rfl
  obtain ⟨hpage, -⟩ := hfinds haway
  rw [hnone] at hpage
  exact ⟨rfl, rfl, hfails.mpr hup, hpage⟩

end Docket
