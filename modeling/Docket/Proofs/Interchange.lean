import Docket.Proofs.Composing
import Docket.Proofs.Results

/-!
Constraints that can stand for one another. A constraint other than a pattern narrows a query to the
documents that it accepts, and it is tested before all patterns, so for what remains a malformed
pattern is met as before. Three ways to ask for one value therefore answer alike, and a batch finds
what its values find one by one.
-/

set_option autoImplicit false
set_option relaxedAutoImplicit false

namespace Docket

namespace Clause

variable {xs ys : List Json}

private theorem allHold_append {d : StoredDocument} {b : Bool} (h : allHold xs d = .ok b)
    (ys : List Json) :
    allHold (xs ++ ys) d = if b then allHold ys d else .ok false := by
  induction xs with
  | nil =>
    obtain rfl := Except.ok.inj h
    rfl
  | cons clause xs ih =>
    rw [allHold] at h
    rw [List.cons_append, allHold]
    cases hclause : holds clause d with
    | error e => simp [hclause] at h
    | ok satisfied =>
      rw [hclause] at h
      cases satisfied with
      | true => exact ih h
      | false =>
        obtain rfl := Except.ok.inj h
        rfl

private theorem select_congr (h : ∀ d, allHold xs d = allHold ys d) (docs : List StoredDocument) :
    select xs docs = select ys docs := by
  induction docs with
  | nil => rfl
  | cons d docs ih => rw [select, select, h d, ih]

end Clause

namespace Constraint

private theorem accepts_congr {c e : Constraint} (hfield : c.field = e.field)
    (hadmits : ∀ v, c.Admits v ↔ e.Admits v) (d : StoredDocument) : c.Accepts d ↔ e.Accepts d := by
  simp only [Accepts, hfield, hadmits]

/-- The only value from a value to itself, in the order of values, is one that is equal to it. -/
theorem admits_range_self (field : String) (v item : Json) :
    (range field (some v) (some v)).Admits item ↔ (equality field v).Admits item := by
  simp only [Admits, Option.mem_some_iff, forall_eq']
  cases item.compare v <;> simp

private theorem accepts_batch_iff (field : String) (vs : List Json) (d : StoredDocument) :
    (batch field vs).Accepts d ↔ ∃ v ∈ vs, (equality field v).Accepts d := by
  constructor
  · rintro ⟨value, hvalue, item, hitem, v, hv, hequal⟩
    exact ⟨v, hv, value, hvalue, item, hitem, hequal⟩
  · rintro ⟨v, hv, value, hvalue, item, hitem, hequal⟩
    exact ⟨value, hvalue, item, hitem, v, hv, hequal⟩

private theorem allHold_guard {cs : List Constraint} (hcs : ∀ c ∈ cs, c.malformed? = none)
    (rest : List Json) (d : StoredDocument) :
    Clause.allHold (cs.filterMap clause? ++ rest) d =
      if ∀ c ∈ cs, c.isTrivial = false → c.Accepts d then Clause.allHold rest d
      else .ok false := by
  obtain ⟨b, hb⟩ := allHold_succeeds hcs d
  rw [Clause.allHold_append hb, allHold_ok hb]
  simp only [decide_eq_true_eq]

end Constraint

namespace QueryBuilder

variable (calls : List Call)

def beforePatterns : List Constraint :=
  constraintsOf calls .equality ++ constraintsOf calls .batch ++ constraintsOf calls .range

section Adding

variable {calls} {c : Constraint}

private theorem clauses_askedFor (calls : List Call) :
    (askedFor calls).clauses = (beforePatterns calls).filterMap Constraint.clause? ++
      (constraintsOf calls .regex).filterMap Constraint.clause? := by
  have hclause : ∀ c : Constraint,
      (if !c.isTrivial then c.clause? else none) = c.clause? := by
    intro c
    cases hc : c.isTrivial <;> simp [Constraint.clause?, hc]
  simp only [Query.clauses, askedFor, beforePatterns, List.filterMap_filter, hclause,
    List.filterMap_append]

private theorem malformed?_beforePatterns (calls : List Call) :
    ∀ c ∈ beforePatterns calls, c.malformed? = none := by
  intro c hc
  cases c with
  | regex f pattern =>
    have hkind : ∀ k, .regex f pattern ∈ constraintsOf calls k → .regex = k := by
      intro k hmem
      obtain ⟨call, -, hcall⟩ := List.mem_filterMap.mp hmem
      exact kind_of_constraintOf? hcall
    simp only [beforePatterns, List.mem_append] at hc
    rcases hc with (hc | hc) | hc <;> exact absurd (hkind _ hc) (by decide)
  | _ => rfl

private theorem mem_beforePatterns_append (hc : constraintKind c ≠ .regex) (x : Constraint) :
    x ∈ beforePatterns (calls ++ [.constraint c]) ↔ x = c ∨ x ∈ beforePatterns calls := by
  simp only [beforePatterns, constraintsOf_append, List.mem_append]
  cases c <;> simp_all [constraintKind] <;> tauto

/-- An added constraint other than a pattern leaves the clauses to the documents that it accepts. -/
theorem allHold_added (hc : constraintKind c ≠ .regex) (d : StoredDocument) :
    Clause.allHold (askedFor (calls ++ [.constraint c])).clauses d =
      if c.isTrivial = false → c.Accepts d then Clause.allHold (askedFor calls).clauses d
      else .ok false := by
  have hpatterns : constraintsOf (calls ++ [.constraint c]) .regex =
      constraintsOf calls .regex := by
    rw [constraintsOf_append, if_neg hc, List.append_nil]
  -- the patterns stay as they are, and what guards them grows by the added constraint
  rw [clauses_askedFor, clauses_askedFor, hpatterns,
    Constraint.allHold_guard (malformed?_beforePatterns _),
    Constraint.allHold_guard (malformed?_beforePatterns _)]
  simp only [mem_beforePatterns_append hc, forall_eq_or_imp]
  by_cases haccepts : c.isTrivial = false → c.Accepts d
  · rw [if_pos haccepts]
    exact if_congr (and_iff_right haccepts) rfl rfl
  · rw [if_neg haccepts, if_neg fun h => haccepts h.1]

end Adding

end QueryBuilder

section Answers

structure Query.Alike (q r : Query) : Prop where
  fields : q.fields = r.fields
  size : q.size = r.size
  sort : q.sort = r.sort
  fetchAll : q.fetchAll = r.fetchAll
  select : ∀ docs, Clause.select q.clauses docs = Clause.select r.clauses docs

namespace Query.Alike

variable {q r : Query}

private theorem keys (h : q.Alike r) : q.keys = r.keys := by rw [Query.keys, Query.keys, h.sort]

variable (s : Store) (index : String)

private theorem matching (h : q.Alike r) (size : UInt64) :
    s.matching index (q.sizedBody size) = s.matching index (r.sizedBody size) := by
  cases hdocs : s.documents? index with
  | none => rw [Store.matching, Store.matching, hdocs]
  | some docs =>
    rw [Store.matching_of_documents hdocs (q.clauses_sizedBody size),
      Store.matching_of_documents hdocs (r.clauses_sizedBody size), h.select,
      q.sortKeys_sizedBody, r.sortKeys_sizedBody, h.keys]

private theorem page (h : q.Alike r) (size : UInt64) (cap : Option Nat) :
    s.page index (q.sizedBody size) cap = s.page index (r.sizedBody size) cap := by
  rw [Store.page, Store.page, Store.hits, Store.hits, h.matching, q.fields?_sizedBody,
    r.fields?_sizedBody, q.size_sizedBody, r.size_sizedBody, h.fields]

private theorem hits (h : q.Alike r) : s.hits index q.scanBody = s.hits index r.scanBody := by
  cases hdocs : s.documents? index with
  | none => simp only [Store.hits, Store.matching, hdocs, Except.map]
  | some docs => rw [Store.hits_scanBody hdocs, Store.hits_scanBody hdocs, h.select, h.fields]

private theorem execute (h : q.Alike r) (c : ClientConfig) (cap : Option Nat)
    (freshId : Nat → String) (m : InMemory) :
    Fetch.execute c (.inMemory cap freshId) q m = Fetch.execute c (.inMemory cap freshId) r m := by
  have hsearch : ∀ size, (Engine.inMemory cap freshId).search c.index (q.sizedBody size) =
      (Engine.inMemory cap freshId).search c.index (r.sizedBody size) := by
    intro size
    funext m
    simp only [Engine.inMemory, h.page]
  have hscan : (Engine.inMemory cap freshId).scan c.index q.scanBody =
      (Engine.inMemory cap freshId).scan c.index r.scanBody := by
    funext batch limit m
    simp only [Engine.inMemory, h.hits]
  have hstream : Fetch.stream c (.inMemory cap freshId) q =
      Fetch.stream c (.inMemory cap freshId) r := by
    funext m
    simp only [Fetch.stream, Fetch.streamKey, Query.countBody, h.sort, hsearch, hscan]
  have hcomplete : Fetch.complete c (.inMemory cap freshId) q =
      Fetch.complete c (.inMemory cap freshId) r := by
    funext first m
    have hshort : Fetch.fallsShort q first = Fetch.fallsShort r first := by
      rw [Fetch.fallsShort, Fetch.fallsShort, h.fetchAll]
    have hevent : Fetch.pageFallsShort q first = Fetch.pageFallsShort r first := by
      rw [Fetch.pageFallsShort, Fetch.pageFallsShort, h.size]
    rw [Fetch.complete, Fetch.complete, hshort, hevent, hstream]
  simp only [Fetch.execute, Query.body, h.size, hsearch, hcomplete]

end Query.Alike

end Answers

namespace QueryBuilder

def selected (b : QueryBuilder) (s : Store) (index : String) :
    Except QueryError (List StoredDocument) :=
  b.compose.bind fun q => (s.matching index q.body).mapError .engine

def Selects (b : QueryBuilder) (s : Store) (index : String) (d : StoredDocument) : Prop :=
  ∃ found, b.selected s index = .ok found ∧ d ∈ found

variable {calls : List Call} {c e : Constraint} {q : Query}

private theorem alike_added (hc : constraintKind c ≠ .regex) (he : constraintKind e ≠ .regex)
    (htrivial : c.isTrivial = e.isTrivial) (haccepts : ∀ d, c.Accepts d ↔ e.Accepts d) :
    (askedFor (calls ++ [.constraint c])).Alike (askedFor (calls ++ [.constraint e])) where
  fields := by rw [askedFor_append calls c, askedFor_append calls e]
  size := by rw [askedFor_append calls c, askedFor_append calls e]
  sort := by rw [askedFor_append calls c, askedFor_append calls e]
  fetchAll := by rw [askedFor_append calls c, askedFor_append calls e]
  select := by
    refine Clause.select_congr fun d => ?_
    rw [allHold_added hc, allHold_added he]
    exact if_congr (by rw [htrivial, haccepts d]) rfl rfl

private theorem added_agree (hq : (ofCalls calls).compose = .ok q) (hc : constraintKind c ≠ .regex)
    (he : constraintKind e ≠ .regex) (htrivial : c.isTrivial = e.isTrivial)
    (haccepts : ∀ d, c.Accepts d ↔ e.Accepts d) (cfg : ClientConfig) (cap : Option Nat)
    (freshId : Nat → String) (m : InMemory) :
    (ofCalls (calls ++ [.constraint c])).selected m.store cfg.index =
        (ofCalls (calls ++ [.constraint e])).selected m.store cfg.index ∧
      Fetch.query cfg (.inMemory cap freshId) (ofCalls (calls ++ [.constraint c])) m =
        Fetch.query cfg (.inMemory cap freshId) (ofCalls (calls ++ [.constraint e])) m := by
  have halike : (askedFor (calls ++ [.constraint c])).Alike (askedFor (calls ++ [.constraint e])) :=
    alike_added hc he htrivial haccepts
  constructor
  · simp only [selected, compose_append hq, Except.bind, Query.body, halike.size, halike.matching]
  · simp only [Fetch.query, compose_append hq, halike.execute]

private theorem mem_constraints_askedFor (calls : List Call) (x : Constraint) :
    x ∈ (askedFor calls).constraints ↔
      (x ∈ beforePatterns calls ∨ x ∈ constraintsOf calls .regex) ∧ x.isTrivial = false := by
  simp only [askedFor, beforePatterns, List.mem_filter, List.mem_append, Bool.not_eq_true']

private theorem mem_constraints_added (hc : constraintKind c ≠ .regex) (x : Constraint) :
    x ∈ (askedFor (calls ++ [.constraint c])).constraints ↔
      x = c ∧ c.isTrivial = false ∨ x ∈ (askedFor calls).constraints := by
  rw [mem_constraints_askedFor, mem_constraints_askedFor, mem_beforePatterns_append hc,
    constraintsOf_append, if_neg hc, List.append_nil]
  constructor
  · rintro ⟨(rfl | hx) | hx, htrivial⟩
    · exact .inl ⟨rfl, htrivial⟩
    · exact .inr ⟨.inl hx, htrivial⟩
    · exact .inr ⟨.inr hx, htrivial⟩
  · rintro (⟨rfl, htrivial⟩ | ⟨hx, htrivial⟩)
    · exact ⟨.inl (.inl rfl), htrivial⟩
    · exact ⟨hx.imp_left .inr, htrivial⟩

private theorem patternsCompile_added (hc : constraintKind c ≠ .regex)
    (h : (askedFor calls).PatternsCompile) :
    (askedFor (calls ++ [.constraint c])).PatternsCompile := by
  intro field pattern hmem
  rcases (mem_constraints_added hc _).mp hmem with ⟨rfl, -⟩ | hmem
  · exact absurd rfl hc
  · exact h field pattern hmem

private theorem selects_added (hc : constraintKind c ≠ .regex) (hbinds : c.isTrivial = false)
    (d : StoredDocument) :
    (askedFor (calls ++ [.constraint c])).Selects d ↔ (askedFor calls).Selects d ∧ c.Accepts d := by
  constructor
  · intro h
    refine ⟨fun x hx => h x ((mem_constraints_added hc x).mpr (.inr hx)), ?_⟩
    exact h c ((mem_constraints_added hc c).mpr (.inl ⟨rfl, hbinds⟩)) hbinds
  · rintro ⟨hbefore, haccepts⟩ x hx
    rcases (mem_constraints_added hc x).mp hx with ⟨rfl, -⟩ | hx
    · exact fun _ => haccepts
    · exact hbefore x hx

section Selecting

variable {s : Store} {index : String}

private theorem selected_added (hq : (ofCalls calls).compose = .ok q)
    (hpatterns : q.PatternsCompile)
    (hc : constraintKind c ≠ .regex) (hbinds : c.isTrivial = false) {docs : List StoredDocument}
    (hdocs : s.documents? index = some docs) :
    ∃ found, (ofCalls (calls ++ [.constraint c])).selected s index = .ok found ∧
      ∀ d, d ∈ found ↔ (d ∈ docs ∧ q.Selects d) ∧ c.Accepts d := by
  obtain rfl := eq_askedFor hq
  have hmatching := Store.matching_of_documents hdocs
    ((askedFor (calls ++ [.constraint c])).clauses_sizedBody
      (askedFor (calls ++ [.constraint c])).size)
  rw [Query.select_eq_filter (patternsCompile_added hc hpatterns) docs] at hmatching
  refine ⟨_, by rw [selected, compose_append hq, Except.bind, Query.body, hmatching]; rfl, ?_⟩
  intro d
  rw [StoredDocument.sortByAll, (stableSort_perm _ _).mem_iff, List.mem_filter, decide_eq_true_iff,
    selects_added hc hbinds, and_assoc]

private theorem selects_added_iff (hq : (ofCalls calls).compose = .ok q)
    (hpatterns : q.PatternsCompile)
    (hc : constraintKind c ≠ .regex) (hbinds : c.isTrivial = false) (d : StoredDocument) :
    (ofCalls (calls ++ [.constraint c])).Selects s index d ↔
      (d ∈ (s.documents? index).getD [] ∧ q.Selects d) ∧ c.Accepts d := by
  cases hdocs : s.documents? index with
  | none =>
    simp [Selects, selected, compose_append hq, Except.bind, Store.matching, hdocs, Except.mapError]
  | some docs =>
    obtain ⟨found, hfound, hmem⟩ := selected_added hq hpatterns hc hbinds hdocs
    rw [Selects, hfound, Option.getD_some, ← hmem d]
    constructor
    · rintro ⟨_, heq, hd⟩
      obtain rfl := Except.ok.inj heq
      exact hd
    · exact fun hd => ⟨found, rfl, hd⟩

end Selecting

/-- For a query that composes it is the same to ask for one value by an equality, by a batch of it
and by a range from it to it. A batch under a field with a name selects the documents that the
equalities with its values select, as long as every pattern compiles. -/
theorem equal_batch_range_agree (calls : List Call) {q : Query}
    (hq : (ofCalls calls).compose = .ok q) (field : String) (cfg : ClientConfig)
    (cap : Option Nat) (freshId : Nat → String) (m : InMemory) :
    let selected (call : Call) := (ofCalls (calls ++ [call])).selected m.store cfg.index
    let answered (call : Call) :=
      Fetch.query cfg (.inMemory cap freshId) (ofCalls (calls ++ [call])) m
    (∀ v, selected (.batch field [v]) = selected (.equal field v) ∧
      answered (.batch field [v]) = answered (.equal field v) ∧
      selected (.between field v v) = selected (.equal field v) ∧
      answered (.between field v v) = answered (.equal field v)) ∧
    (field ≠ "" → q.PatternsCompile → ∀ vs,
      (m.store.has cfg.index → ∃ found, selected (.batch field vs) = .ok found) ∧
      ∀ d, (ofCalls (calls ++ [.batch field vs])).Selects m.store cfg.index d ↔
        ∃ v ∈ vs, (ofCalls (calls ++ [.equal field v])).Selects m.store cfg.index d) := by
  intro selected answered
  have hequality : ∀ v, constraintKind (.equality field v) ≠ .regex := by simp [constraintKind]
  have hbatch : ∀ vs, constraintKind (.batch field vs) ≠ .regex := by simp [constraintKind]
  constructor
  · intro v
    have hone := added_agree hq (hbatch [v]) (hequality v) rfl
      (Constraint.accepts_congr rfl fun item => by simp [Constraint.Admits]) cfg cap freshId m
    have hrange := added_agree (c := .range field (some v) (some v)) hq (by simp [constraintKind])
      (hequality v) rfl (Constraint.accepts_congr rfl (Constraint.admits_range_self field v)) cfg
      cap freshId m
    exact ⟨hone.1, hone.2, hrange.1, hrange.2⟩
  · intro hfield hpatterns vs
    have hbinds : (Constraint.batch field vs).isTrivial = false := by
      simp [Constraint.isTrivial, Constraint.field, hfield]
    constructor
    · intro hhas
      obtain ⟨docs, hdocs⟩ := Option.isSome_iff_exists.mp hhas
      obtain ⟨found, hfound, -⟩ := selected_added hq hpatterns (hbatch vs) hbinds hdocs
      exact ⟨found, hfound⟩
    · intro d
      have hfew : (ofCalls (calls ++ [.batch field vs])).Selects m.store cfg.index d ↔
          (d ∈ m.documents cfg.index ∧ q.Selects d) ∧ (Constraint.batch field vs).Accepts d :=
        selects_added_iff hq hpatterns (hbatch vs) hbinds d
      have hone : ∀ v, (ofCalls (calls ++ [.equal field v])).Selects m.store cfg.index d ↔
          (d ∈ m.documents cfg.index ∧ q.Selects d) ∧ (Constraint.equality field v).Accepts d := by
        intro v
        have hbinds : (Constraint.equality field v).isTrivial = false := by
          simp [Constraint.isTrivial, Constraint.field, hfield]
        exact selects_added_iff hq hpatterns (hequality v) hbinds d
      simp only [hfew, hone, Constraint.accepts_batch_iff]
      constructor
      · rintro ⟨hbefore, v, hv, haccepts⟩
        exact ⟨v, hv, hbefore, haccepts⟩
      · rintro ⟨v, hv, hbefore, haccepts⟩
        exact ⟨hbefore, v, hv, haccepts⟩

def hostCalls : List Call :=
  [.regex "name" "h[1-4]", .fields ["name"], .equal "state" (.string "up"), .size 1,
    .sort ⟨"name", .desc⟩, .fetchAll true]

theorem equal_batch_range_agree_hosts :
    let names : List Json := [.string "alias", .string "h3", .string "h4"]
    let answered (call : Call) :=
      Fetch.query .default (.inMemory (some 2) fun _ => "new") (ofCalls (hostCalls ++ [call]))
        Fetch.hostStore
    (ofCalls hostCalls).compose = .ok Fetch.hostQuery ∧ Fetch.hostQuery.PatternsCompile ∧
      answered (.between "name" (.string "h3") (.string "h3")) =
        answered (.equal "name" (.string "h3")) ∧
      (∀ d, (ofCalls (hostCalls ++ [.batch "name" names])).Selects Fetch.hostStore.store
          "metadata" d ↔
        ∃ v ∈ names, (ofCalls (hostCalls ++ [.equal "name" v])).Selects Fetch.hostStore.store
          "metadata" d) ∧
      ((ofCalls (hostCalls ++ [.batch "name" names])).selected Fetch.hostStore.store
        "metadata").map (List.map StoredDocument.id) = .ok ["b", "c"] := by
  intro names answered
  have hcompose : (ofCalls hostCalls).compose = .ok Fetch.hostQuery := rfl
  obtain ⟨hone, hfew⟩ := equal_batch_range_agree hostCalls hcompose "name" .default (some 2)
    (fun _ => "new") Fetch.hostStore
  obtain ⟨-, -, -, hrange⟩ := hone (.string "h3")
  obtain ⟨-, hselects⟩ := hfew (by decide) Fetch.hostQuery_patternsCompile names
  exact ⟨hcompose, Fetch.hostQuery_patternsCompile, hrange, hselects, by decide +kernel⟩

end QueryBuilder

end Docket
