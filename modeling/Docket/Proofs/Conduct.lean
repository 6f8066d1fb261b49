import Docket.Client.Fetch
import Docket.Proofs.Execution

/-!
What executing a query asks of a store. `Course` lists the ways a query can go, whatever the store
answers: the calls made, the answer, and the log. Calls are made in one order, up to the first
failure; the log tells a missing index and a page that falls short, and nothing else that is
serious.
-/

set_option autoImplicit false
set_option relaxedAutoImplicit false

namespace Docket

variable {σ : Type}

def failureOf? {α : Type} : Except EngineError α → Option EngineError
  | .ok _ => none
  | .error e => some e

namespace Engine

structure Observation where
  call : EngineCall
  failure : Option EngineError
  logged : List Event

abbrev Observation.passed (call : EngineCall) : Observation := ⟨call, none, []⟩

abbrev Observation.failed (call : EngineCall) (e : EngineError) : Observation := ⟨call, some e, []⟩

def observe {α : Type} (call : EngineCall) (logged : α → List Event)
    (run : σ → Except EngineError α × σ) (s : σ × List Observation) :
    Except EngineError α × (σ × List Observation) :=
  let (answer, t) := run s.1
  (answer, (t, s.2 ++ [⟨call, failureOf? answer, (answer.toOption.map logged).getD []⟩]))

def observed (e : Engine σ) : Engine (σ × List Observation) where
  indexExists i := observe (.indexExists i) (fun _ => []) (e.indexExists i)
  index i t d := observe (.index i t d) (fun _ => []) (e.index i t d)
  search i b := observe (.search i b) (fun _ => []) (e.search i b)
  bulk as := observe (.bulk as) (fun _ => []) (e.bulk as)
  scan i b n limit := observe (.scan i b n) Scan.closing (e.scan i b n limit)

variable {e : Engine σ} {s t : σ}

private theorem indexExists_observed {index : String} {answer : Except EngineError Bool}
    (h : e.indexExists index s = (answer, t)) (made : List Observation) :
    e.observed.indexExists index (s, made) =
      (answer, (t, made ++ [⟨.indexExists index, failureOf? answer, []⟩])) := by
  cases answer <;> simp [observed, observe, h, Except.toOption]

private theorem search_observed {index : String} {body : Json}
    {answer : Except EngineError SearchResponse}
    (h : e.search index body s = (answer, t)) (made : List Observation) :
    e.observed.search index body (s, made) =
      (answer, (t, made ++ [⟨.search index body, failureOf? answer, []⟩])) := by
  cases answer <;> simp [observed, observe, h, Except.toOption]

private theorem scan_observed {index : String} {body : Json} {batch : Nat} {limit : Option Nat}
    {answer : Except EngineError Scan} (h : e.scan index body batch limit s = (answer, t))
    (made : List Observation) :
    e.observed.scan index body batch limit (s, made) =
      (answer, (t, made ++ [⟨.scan index body batch, failureOf? answer,
        (answer.toOption.map Scan.closing).getD []⟩])) := by
  simp [observed, observe, h]

end Engine

namespace Fetch

open Engine (Observation)

theorem streamKey_of_several {q : Query} (hkeys : 1 < q.keys.length) :
    streamKey q = .error (severalKeys q.keys) := by
  rw [Query.keys] at hkeys ⊢
  rw [streamKey]
  cases hsort : q.sort with
  | none => simp [hsort] at hkeys
  | some sort =>
    rw [hsort] at hkeys
    rcases sort with _ | ⟨k, _ | ⟨l, rest⟩⟩
    · simp at hkeys
    · simp at hkeys
    · rfl

section Course

def firstPage (c : ClientConfig) (e : Engine σ) (q : Query) (s : σ) : Option (SearchResponse × σ) :=
  match e.indexExists c.index s with
  | (.ok true, s₁) =>
    match e.search c.index q.body s₁ with
    | (.ok first, s₂) => some (first, s₂)
    | (.error _, _) => none
  | _ => none

/-- The ways a query can go. -/
inductive Course (c : ClientConfig) (e : Engine σ) (q : Query) (s : σ) :
    Logged (Except QueryError (Option QueryResult)) → σ → List Observation → Prop
  | unasked (x : EngineError) (s₁ : σ) (hexists : e.indexExists c.index s = (.error x, s₁)) :
    Course c e q s ⟨.error (.engine x), []⟩ s₁ [.failed (.indexExists c.index) x]
  | absent (s₁ : σ) (hexists : e.indexExists c.index s = (.ok false, s₁)) :
    Course c e q s ⟨.ok none, [missingIndex c]⟩ s₁ [.passed (.indexExists c.index)]
  | lost (x : EngineError) (s₁ s₂ : σ) (hexists : e.indexExists c.index s = (.ok true, s₁))
      (hfirst : e.search c.index q.body s₁ = (.error x, s₂)) (hlost : x.isIndexNotFound = true) :
    Course c e q s ⟨.ok none, [missingIndex c]⟩ s₂
      [.passed (.indexExists c.index), .failed (.search c.index q.body) x]
  | refused (x : EngineError) (s₁ s₂ : σ) (hexists : e.indexExists c.index s = (.ok true, s₁))
      (hfirst : e.search c.index q.body s₁ = (.error x, s₂)) (hlost : x.isIndexNotFound = false) :
    Course c e q s ⟨.error (.engine x), []⟩ s₂
      [.passed (.indexExists c.index), .failed (.search c.index q.body) x]
  | paged (first : SearchResponse) (s₂ : σ) (hfirst : firstPage c e q s = some (first, s₂))
      (hshort : fallsShort q first = false) :
    Course c e q s ⟨.ok (some ⟨first.total.value, first.hits.map Hit.normalize⟩), []⟩ s₂
      [.passed (.indexExists c.index), .passed (.search c.index q.body)]
  | unsorted (first : SearchResponse) (s₂ : σ) (hfirst : firstPage c e q s = some (first, s₂))
      (hshort : fallsShort q first = true) (hkeys : 1 < q.keys.length) :
    Course c e q s ⟨.error (severalKeys q.keys), [pageFallsShort q first]⟩ s₂
      [.passed (.indexExists c.index), .passed (.search c.index q.body)]
  | uncounted (first : SearchResponse) (x : EngineError) (s₂ s₃ : σ)
      (hfirst : firstPage c e q s = some (first, s₂)) (hshort : fallsShort q first = true)
      (hkeys : q.keys.length ≤ 1) (hcount : e.search c.index q.countBody s₂ = (.error x, s₃)) :
    Course c e q s ⟨.error (.engine x), [pageFallsShort q first]⟩ s₃
      [.passed (.indexExists c.index), .passed (.search c.index q.body),
        .failed (.search c.index q.countBody) x]
  | unopened (first counted : SearchResponse) (x : EngineError) (s₂ s₃ s₄ : σ)
      (hfirst : firstPage c e q s = some (first, s₂)) (hshort : fallsShort q first = true)
      (hkeys : q.keys.length ≤ 1) (hcount : e.search c.index q.countBody s₂ = (.ok counted, s₃))
      (hscan : e.scan c.index q.scanBody Query.scrollSize none s₃ = (.error x, s₄)) :
    Course c e q s ⟨.error (.engine x), [pageFallsShort q first]⟩ s₄
      [.passed (.indexExists c.index), .passed (.search c.index q.body),
        .passed (.search c.index q.countBody),
        .failed (.scan c.index q.scanBody Query.scrollSize) x]
  | streamed (first counted : SearchResponse) (scan : Scan) (s₂ s₃ s₄ : σ)
      (hfirst : firstPage c e q s = some (first, s₂)) (hshort : fallsShort q first = true)
      (hkeys : q.keys.length ≤ 1) (hcount : e.search c.index q.countBody s₂ = (.ok counted, s₃))
      (hscan : e.scan c.index q.scanBody Query.scrollSize none s₃ = (.ok scan, s₄)) :
    Course c e q s
      ⟨(finish q.keys.head? counted.total.value scan).answer.map fun hits =>
          some ⟨first.total.value, hits.map Hit.normalize⟩,
        pageFallsShort q first :: (finish q.keys.head? counted.total.value scan).log⟩ s₄
      [.passed (.indexExists c.index), .passed (.search c.index q.body),
        .passed (.search c.index q.countBody),
        ⟨.scan c.index q.scanBody Query.scrollSize, none, scan.closing⟩]

variable {c : ClientConfig} {e : Engine σ} {q : Query} {s s₁ s₂ : σ} {first : SearchResponse}

private theorem indexExists_of_firstPage (hfirst : firstPage c e q s = some (first, s₂)) :
    (e.indexExists c.index s).1 = .ok true := by
  unfold firstPage at hfirst
  split at hfirst
  · rename_i hexists
    rw [hexists]
  · simp at hfirst

private theorem execute_of_firstPage (hfirst : firstPage c e q s = some (first, s₂)) :
    execute c e q s = complete c e q first s₂ := by
  unfold firstPage at hfirst
  split at hfirst
  · rename_i s₁ hexists
    split at hfirst
    · rename_i page s₂ hsearch
      obtain ⟨rfl, rfl⟩ := Prod.mk.inj (Option.some.inj hfirst)
      simp only [execute, hexists, hsearch]
    · simp at hfirst
  · simp at hfirst

private theorem firstPage_observed (hexists : e.indexExists c.index s = (.ok true, s₁))
    (hsearch : e.search c.index q.body s₁ = (.ok first, s₂)) :
    firstPage c e.observed q (s, []) = some (first, (s₂,
      [.passed (.indexExists c.index), .passed (.search c.index q.body)])) := by
  have hexists' := Engine.indexExists_observed hexists []
  have hsearch' := Engine.search_observed hsearch [.passed (.indexExists c.index)]
  simp only [firstPage, hexists', failureOf?, List.nil_append, hsearch', List.cons_append]

private theorem exists_course_of_first (hexists : e.indexExists c.index s = (.ok true, s₁))
    (hsearch : e.search c.index q.body s₁ = (.ok first, s₂)) :
    ∃ r t made, Course c e q s r t made ∧ execute c e q s = (r, t) ∧
      execute c e.observed q (s, []) = (r, (t, made)) := by
  have hfirst : firstPage c e q s = some (first, s₂) := by simp only [firstPage, hexists, hsearch]
  -- from here on the plain and the observed query both complete the same first page
  rw [execute_of_firstPage hfirst, execute_of_firstPage (firstPage_observed hexists hsearch)]
  cases hshort : fallsShort q first with
  | false =>
    refine ⟨_, _, _, .paged first s₂ hfirst hshort, ?_, ?_⟩
    · simp [complete, hshort]
    · simp [complete, hshort]
  | true =>
    rcases Nat.lt_or_ge 1 q.keys.length with hkeys | hkeys
    · have hkey := streamKey_of_several hkeys
      refine ⟨_, _, _, .unsorted first s₂ hfirst hshort hkeys, ?_, ?_⟩
      · simp [complete, hshort, stream, hkey, Except.map]
      · simp [complete, hshort, stream, hkey, Except.map]
    · have hkey := Query.streamKey_of_keys hkeys
      rcases hcount : e.search c.index q.countBody s₂ with ⟨answer, s₃⟩
      have hcount' := Engine.search_observed hcount
        [.passed (.indexExists c.index), .passed (.search c.index q.body)]
      cases answer with
      | error x =>
        refine ⟨_, _, _, .uncounted first x s₂ s₃ hfirst hshort hkeys hcount, ?_, ?_⟩
        · simp [complete, hshort, stream, hkey, hcount, Except.map]
        · simp [complete, hshort, stream, hkey, hcount', Except.map, failureOf?]
      | ok counted =>
        rcases hscan : e.scan c.index q.scanBody Query.scrollSize none s₃ with ⟨answer, s₄⟩
        have hscan' := Engine.scan_observed hscan [.passed (.indexExists c.index),
          .passed (.search c.index q.body), .passed (.search c.index q.countBody)]
        cases answer with
        | error x =>
          refine ⟨_, _, _, .unopened first counted x s₂ s₃ s₄ hfirst hshort hkeys hcount hscan,
            ?_, ?_⟩
          · simp [complete, hshort, stream, hkey, hcount, hscan, Except.map]
          · simp [complete, hshort, stream, hkey, hcount', hscan', Except.map, failureOf?,
              Except.toOption]
        | ok scan =>
          refine ⟨_, _, _, .streamed first counted scan s₂ s₃ s₄ hfirst hshort hkeys hcount hscan,
            ?_, ?_⟩
          · simp [complete, hshort, stream, hkey, hcount, hscan]
          · simp [complete, hshort, stream, hkey, hcount', hscan', failureOf?, Except.toOption]

/-- Every query goes one of these ways, and observing the store changes neither answer nor state. -/
theorem exists_course (c : ClientConfig) (e : Engine σ) (q : Query) (s : σ) :
    ∃ r t made, Course c e q s r t made ∧ execute c e q s = (r, t) ∧
      execute c e.observed q (s, []) = (r, (t, made)) := by
  rcases hexists : e.indexExists c.index s with ⟨answer, s₁⟩
  have hexists' := Engine.indexExists_observed hexists []
  match answer with
  | .error x =>
    refine ⟨_, _, _, .unasked x s₁ hexists, ?_, ?_⟩
    · simp [execute, hexists]
    · simp [execute, hexists', failureOf?]
  | .ok false =>
    refine ⟨_, _, _, .absent s₁ hexists, ?_, ?_⟩
    · simp [execute, hexists]
    · simp [execute, hexists', failureOf?]
  | .ok true =>
    rcases hsearch : e.search c.index q.body s₁ with ⟨answer, s₂⟩
    have hsearch' := Engine.search_observed hsearch [.passed (.indexExists c.index)]
    cases answer with
    | ok first => exact exists_course_of_first hexists hsearch
    | error x =>
      cases hlost : x.isIndexNotFound with
      | true =>
        refine ⟨_, _, _, .lost x s₁ s₂ hexists hsearch hlost, ?_, ?_⟩
        · simp [execute, hexists, hsearch, hlost]
        · simp [execute, hexists', failureOf?, hsearch', hlost]
      | false =>
        refine ⟨_, _, _, .refused x s₁ s₂ hexists hsearch hlost, ?_, ?_⟩
        · simp [execute, hexists, hsearch, hlost]
        · simp [execute, hexists', failureOf?, hsearch', hlost]

end Course

section Log

private theorem level_record (p : Progress) (downloaded : Nat) :
    ∀ event ∈ (p.record downloaded).2, event.level = .debug := by
  intro event hevent
  rw [Progress.record] at hevent
  split at hevent
  · rw [List.mem_singleton.mp hevent]
    rfl
  · simp at hevent

private theorem level_collect (p : Progress) (count : Nat) (items : List (Except EngineError Hit)) :
    ∀ event ∈ (collect p count items).log, event.level = .debug := by
  induction items generalizing p count with
  | nil => simp [collect]
  | cons item items ih =>
    cases item with
    | error e => simp [collect]
    | ok hit =>
      intro event hevent
      rcases List.mem_append.mp hevent with hrecorded | hlater
      · exact level_record p (count + 1) event hrecorded
      · exact ih _ _ event hlater

private theorem level_arrange (key : Option SortKey) (hits : List Hit) :
    ∀ event ∈ (arrange key hits).log, event.level = .debug := by
  cases key <;> simp [arrange, hitsFound, sorting]

private theorem filter_level_of_debug {events : List Event}
    (h : ∀ event ∈ events, event.level = .debug)
    {l : Level} (hl : l ≠ .debug) : events.filter (·.level = l) = [] := by
  rw [List.filter_eq_nil_iff]
  intro event hevent hlevel
  exact hl ((of_decide_eq_true hlevel).symm.trans (h event hevent))

private theorem filter_level_finish (key : Option SortKey) (total : Nat) (scan : Scan) {l : Level}
    (hl : l ≠ .debug) :
    (finish key total scan).log.filter (·.level = l) = scan.closing.filter (·.level = l) := by
  have hcollect := filter_level_of_debug (level_collect (.start total) 0 scan.items) hl
  cases hanswer : (collect (.start total) 0 scan.items).answer with
  | error e => simp [finish, hanswer, hcollect]
  | ok hits =>
    have harrange := filter_level_of_debug (level_arrange key hits) hl
    simp [finish, hanswer, hcollect, harrange]

end Log

section Conduct

variable {c : ClientConfig} {e : Engine σ} {q : Query} {s t : σ} {made : List Observation}
  {r : Logged (Except QueryError (Option QueryResult))}

def plan (c : ClientConfig) (q : Query) : List EngineCall :=
  [.indexExists c.index, .search c.index q.body, .search c.index q.countBody,
    .scan c.index q.scanBody Query.scrollSize]

private theorem Course.calls_prefix (h : Course c e q s r t made) :
    made.map Observation.call <+: plan c q := by
  cases h <;> simp [plan]

private theorem Course.failure_eq_none (h : Course c e q s r t made) :
    ∀ o ∈ made.dropLast, o.failure = none := by
  cases h <;> simp

private theorem Course.searches_iff (h : Course c e q s r t made) :
    1 < made.length ↔ (e.indexExists c.index s).1 = .ok true := by
  cases h with
  | unasked x s₁ hexists => simp [hexists]
  | absent s₁ hexists => simp [hexists]
  | lost x s₁ s₂ hexists => simp [hexists]
  | refused x s₁ s₂ hexists => simp [hexists]
  | paged first s₂ hfirst => simp [indexExists_of_firstPage hfirst]
  | unsorted first s₂ hfirst => simp [indexExists_of_firstPage hfirst]
  | uncounted first x s₂ s₃ hfirst => simp [indexExists_of_firstPage hfirst]
  | unopened first counted x s₂ s₃ s₄ hfirst => simp [indexExists_of_firstPage hfirst]
  | streamed first counted scan s₂ s₃ s₄ hfirst => simp [indexExists_of_firstPage hfirst]

theorem Course.recounts_iff (h : Course c e q s r t made) :
    2 < made.length ↔ ∃ first s₂, firstPage c e q s = some (first, s₂) ∧
      fallsShort q first = true ∧ q.keys.length ≤ 1 := by
  cases h <;> simp_all [firstPage]

private theorem Course.of_several (h : Course c e q s r t made) {first : SearchResponse} {s₂ : σ}
    (hfirst : firstPage c e q s = some (first, s₂)) (hshort : fallsShort q first = true)
    (hkeys : 1 < q.keys.length) : r.answer = .error (severalKeys q.keys) ∧ made.length = 2 := by
  cases h <;> simp_all [firstPage] <;> omega

private theorem Course.total_eq (h : Course c e q s r t made) {result : QueryResult}
    (hr : r.answer = .ok (some result)) :
    ∃ first s₂, firstPage c e q s = some (first, s₂) ∧ result.total = first.total.value := by
  cases h with
  | paged first s₂ hfirst hshort =>
    obtain rfl := Option.some.inj (Except.ok.inj hr)
    exact ⟨first, _, hfirst, rfl⟩
  | streamed first counted scan s₂ s₃ s₄ hfirst hshort hkeys hcount hscan =>
    cases hfinish : (finish q.keys.head? counted.total.value scan).answer with
    | error x => simp [hfinish, Except.map] at hr
    | ok hits =>
      simp only [hfinish, Except.map, Except.ok.injEq, Option.some.injEq] at hr
      exact ⟨first, s₂, hfirst, hr ▸ rfl⟩
  | _ => simp at hr

/-- The only error is a missing index, which is told exactly when there is no result. -/
theorem Course.errors (h : Course c e q s r t made) :
    r.log.filter (·.level = .error) = (if r.answer = .ok none then [missingIndex c] else []) ++
      (made.flatMap Observation.logged).filter (·.level = .error) := by
  cases h with
  | streamed first counted scan s₂ s₃ s₄ hfirst hshort hkeys hcount hscan =>
    -- a stream has a result or fails, so it tells no missing index
    have hanswer : ∀ x : Except QueryError (List Hit), (x.map fun hits =>
        some (QueryResult.mk first.total.value (hits.map Hit.normalize))) ≠ .ok none := by
      intro x
      cases x <;> simp [Except.map]
    rw [if_neg (hanswer _), List.filter_cons_of_neg (by simp [pageFallsShort]),
      filter_level_finish _ _ _ (by simp)]
    simp
  | _ => simp [missingIndex, pageFallsShort]

private theorem Course.warnings (h : Course c e q s r t made) :
    r.log.filter (·.level = .warn) =
      (match firstPage c e q s with
        | some (first, _) => if fallsShort q first then [pageFallsShort q first] else []
        | none => []) ++ (made.flatMap Observation.logged).filter (·.level = .warn) := by
  cases h with
  | streamed first counted scan s₂ s₃ s₄ hfirst hshort hkeys hcount hscan =>
    rw [List.filter_cons_of_pos (by simp [pageFallsShort]), filter_level_finish _ _ _ (by simp)]
    simp [hfirst, hshort]
  | unasked x s₁ hexists => simp [firstPage, hexists]
  | absent s₁ hexists => simp [firstPage, hexists, missingIndex]
  | lost x s₁ s₂ hexists hfirst hlost => simp [firstPage, hexists, hfirst, missingIndex]
  | refused x s₁ s₂ hexists hfirst hlost => simp [firstPage, hexists, hfirst]
  | paged first s₂ hfirst hshort => simp [hfirst, hshort]
  | unsorted first s₂ hfirst hshort => simp [hfirst, hshort, pageFallsShort]
  | uncounted first x s₂ s₃ hfirst hshort => simp [hfirst, hshort, pageFallsShort]
  | unopened first counted x s₂ s₃ s₄ hfirst hshort => simp [hfirst, hshort, pageFallsShort]

/-- Whatever a store answers, a query calls it in one order and goes no further than the first
failure. It searches an index that exists. The matches are counted again, to be streamed, exactly
when the first page falls short and there is one sort key at most; with more keys that is the
failure, and no call follows. A result has the total of the first page. What the store itself logs
aside, a missing index is the one error logged, exactly when there is no result, and a page that
falls short is the one warning. -/
theorem execute_in_order (c : ClientConfig) (e : Engine σ) (q : Query) (s : σ) :
    ∃ made, execute c e.observed q (s, []) =
        ((execute c e q s).1, ((execute c e q s).2, made)) ∧
      made.map Observation.call <+: plan c q ∧
      (∀ o ∈ made.dropLast, o.failure = none) ∧
      (1 < made.length ↔ (e.indexExists c.index s).1 = .ok true) ∧
      (2 < made.length ↔ ∃ first s₂, firstPage c e q s = some (first, s₂) ∧
        fallsShort q first = true ∧ q.keys.length ≤ 1) ∧
      (∀ first s₂, firstPage c e q s = some (first, s₂) → fallsShort q first = true →
        1 < q.keys.length →
        (execute c e q s).1.answer = .error (severalKeys q.keys) ∧ made.length = 2) ∧
      (∀ result, (execute c e q s).1.answer = .ok (some result) →
        ∃ first s₂, firstPage c e q s = some (first, s₂) ∧ result.total = first.total.value) ∧
      (execute c e q s).1.log.filter (·.level = .error) =
        (if (execute c e q s).1.answer = .ok none then [missingIndex c] else []) ++
          (made.flatMap Observation.logged).filter (·.level = .error) ∧
      (execute c e q s).1.log.filter (·.level = .warn) =
        (match firstPage c e q s with
          | some (first, _) => if fallsShort q first then [pageFallsShort q first] else []
          | none => []) ++ (made.flatMap Observation.logged).filter (·.level = .warn) := by
  obtain ⟨r, t, made, hcourse, hexecute, hobserved⟩ := exists_course c e q s
  rw [hexecute]
  exact ⟨made, hobserved, hcourse.calls_prefix, hcourse.failure_eq_none, hcourse.searches_iff,
    hcourse.recounts_iff, fun _ _ => hcourse.of_several, fun _ => hcourse.total_eq, hcourse.errors,
    hcourse.warnings⟩

end Conduct

end Fetch

end Docket
