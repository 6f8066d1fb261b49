import Docket.Proofs.Exchanges
import Mathlib.Logic.Function.Iterate

/-!
Scrolls in use: any number of calls of `Scroll.next`, after which the scroll is given up. A trace of
the calls shows the pages that were asked for, the results that came, and the items that were
yielded. What one call does is a relation on scrolls and wires; what it keeps is `Lawful`, which
therefore holds after every run.
-/

set_option autoImplicit false
set_option relaxedAutoImplicit false

namespace Docket

namespace Scroll

open HttpStore (Exchanged)

section Pages

def cursorsIn (pages : List PageResult) : List String :=
  pages.flatMap fun
    | .ok page => page.scrollId.toList
    | .error _ => []

def latest (pages : List PageResult) : Option String := (cursorsIn pages).getLast?

/-- The hits of pages; a failure stands in place of the page that did not come. -/
def itemsIn (pages : List PageResult) : List (Except EngineError Hit) :=
  pages.flatMap fun
    | .ok page => page.hits.map .ok
    | .error e => [.error e]

/-- Whether nothing is asked for any more: the page is empty, or did not come. -/
def isLast : PageResult → Bool
  | .ok page => page.hits.isEmpty
  | .error _ => true

private theorem latest_concat_ok (pages : List PageResult) (page : SearchResponse) :
    latest (pages ++ [.ok page]) = page.scrollId.or (latest pages) := by
  cases hid : page.scrollId <;> simp [latest, cursorsIn, hid]

private theorem latest_concat_error (pages : List PageResult) (e : EngineError) :
    latest (pages ++ [.error e]) = latest pages := by
  simp [latest, cursorsIn]

end Pages

section Calls

structure Call where
  request : Option (String × PageResult)
  answer : Option (Except EngineError Hit)

def Call.idle : Call := ⟨none, none⟩

def Call.isFinal (c : Call) : Bool :=
  match c.answer with
  | some (.ok _) => false
  | _ => true

def sent (calls : List Call) : List String := calls.filterMap fun c => c.request.map Prod.fst

def arrived (calls : List Call) : List PageResult := calls.filterMap fun c => c.request.map Prod.snd

def received (first : SearchResponse) (calls : List Call) : List PageResult :=
  .ok first :: arrived calls

def yielded (calls : List Call) : List (Except EngineError Hit) := calls.filterMap Call.answer

variable (first : SearchResponse) (calls : List Call) (answer : Option (Except EngineError Hit))
  (cursor : String) (page : PageResult)

private theorem sent_concat_none : sent (calls ++ [⟨none, answer⟩]) = sent calls := by simp [sent]

private theorem sent_concat_some :
    sent (calls ++ [⟨some (cursor, page), answer⟩]) = sent calls ++ [cursor] := by simp [sent]

private theorem arrived_concat_none : arrived (calls ++ [⟨none, answer⟩]) = arrived calls := by
  simp [arrived]

private theorem arrived_concat_some :
    arrived (calls ++ [⟨some (cursor, page), answer⟩]) = arrived calls ++ [page] := by
  simp [arrived]

theorem received_concat_none :
    received first (calls ++ [⟨none, answer⟩]) = received first calls := by
  rw [received, received, arrived_concat_none]

theorem received_concat_some :
    received first (calls ++ [⟨some (cursor, page), answer⟩]) = received first calls ++ [page] := by
  rw [received, received, arrived_concat_some, List.cons_append]

private theorem yielded_concat (request : Option (String × PageResult)) :
    yielded (calls ++ [⟨request, answer⟩]) = yielded calls ++ answer.toList := by
  cases answer <;> simp [yielded]

private theorem length_arrived : (arrived calls).length = (sent calls).length := by
  induction calls with
  | nil => rfl
  | cons call calls ih =>
    obtain ⟨request, _⟩ := call
    cases request with
    | none => simpa [arrived, sent] using ih
    | some request => simpa [arrived, sent] using ih

end Calls

section Moves

/-- What one call of `next` does to a scroll and to the wire. -/
inductive Moves (h : HttpStore) : Scroll → Wire → Call → Scroll → Wire → Prop
  | hit (cursor : Option String) (hit : Hit) (rest : List Hit) (done : Bool) (w : Wire) :
    Moves h ⟨cursor, hit :: rest, done⟩ w ⟨none, some (.ok hit)⟩ ⟨cursor, rest, done⟩ w
  | spent (cursor : Option String) (w : Wire) :
    Moves h ⟨cursor, [], true⟩ w .idle ⟨cursor, [], true⟩ w
  | bare (w : Wire) : Moves h ⟨none, [], false⟩ w .idle ⟨none, [], true⟩ w
  | failed (cursor : String) (e : EngineError) (w w' : Wire)
      (hpage : h.nextPage cursor w = (.error e, w')) :
    Moves h ⟨some cursor, [], false⟩ w ⟨some (cursor, .error e), some (.error e)⟩
      ⟨some cursor, [], true⟩ w'
  | ended (cursor : String) (page : SearchResponse) (w w' : Wire)
      (hpage : h.nextPage cursor w = (.ok page, w')) (hhits : page.hits = []) :
    Moves h ⟨some cursor, [], false⟩ w ⟨some (cursor, .ok page), none⟩
      ⟨some (page.scrollId.getD cursor), [], true⟩ w'
  | turned (cursor : String) (page : SearchResponse) (hit : Hit) (rest : List Hit) (w w' : Wire)
      (hpage : h.nextPage cursor w = (.ok page, w')) (hhits : page.hits = hit :: rest) :
    Moves h ⟨some cursor, [], false⟩ w ⟨some (cursor, .ok page), some (.ok hit)⟩
      ⟨some (page.scrollId.getD cursor), rest, false⟩ w'

def wanted (s : Scroll) : Option String :=
  match s.page with
  | _ :: _ => none
  | [] => if s.done then none else s.cursor

def callOf (h : HttpStore) (s : Scroll) (w : Wire) : Call :=
  ⟨s.wanted.map fun cursor => (cursor, (h.nextPage cursor w).1), (next h s w).1⟩

private theorem moves_next (h : HttpStore) (s : Scroll) (w : Wire) :
    Moves h s w (callOf h s w) (next h s w).2.1 (next h s w).2.2 := by
  obtain ⟨cursor, page, done⟩ := s
  match page, done, cursor with
  | hit :: rest, done, cursor => exact .hit cursor hit rest done w
  | [], true, cursor => exact .spent cursor w
  | [], false, none => exact .bare w
  | [], false, some cursor =>
    match hpage : h.nextPage cursor w with
    | (.error e, w') => simpa [callOf, wanted, next, hpage] using .failed cursor e w w' hpage
    | (.ok p, w') =>
      match hhits : p.hits with
      | [] =>
        simpa [callOf, wanted, next, hpage, hhits, turnTo] using
          .ended cursor p w w' hpage hhits
      | hit :: rest =>
        simpa [callOf, wanted, next, hpage, hhits, turnTo] using
          .turned cursor p hit rest w w' hpage hhits

end Moves

section Use

structure Use where
  calls : List Call
  scroll : Scroll
  wire : Wire

def Use.start (first : SearchResponse) (w : Wire) : Use := ⟨[], ofFirst first, w⟩

def Use.call (h : HttpStore) (u : Use) : Use :=
  ⟨u.calls ++ [callOf h u.scroll u.wire], (next h u.scroll u.wire).2.1,
    (next h u.scroll u.wire).2.2⟩

def Use.after (h : HttpStore) (first : SearchResponse) (w : Wire) (n : Nat) : Use :=
  (Use.call h)^[n] (.start first w)

/-- What holds of a scroll in use that began with the page `first` on the wire `w`. -/
structure Lawful (h : HttpStore) (first : SearchResponse) (w : Wire) (u : Use) : Prop where
  asked : Exchanged h.hosts w ((sent u.calls).map h.pageRequest) (arrived u.calls) u.wire
  /-- The cursor that came last asks for the next page. -/
  carried : ∀ k (hk : k < (sent u.calls).length),
    latest ((received first u.calls).take (k + 1)) = some (sent u.calls)[k]
  /-- A page is asked for when all before are used up. -/
  lazy : ∀ k (hk : k < u.calls.length), u.calls[k].request ≠ none →
    yielded (u.calls.take k) = itemsIn (received first (u.calls.take k))
  /-- Items of the pages are yielded in order, and those that are left are on the current page. -/
  left : yielded u.calls ++ u.scroll.page.map .ok = itemsIn (received first u.calls)
  cursor : u.scroll.cursor = latest (received first u.calls)
  going : ∀ page ∈ (received first u.calls).dropLast, isLast page = false
  running : u.scroll.done = false → ∀ page ∈ received first u.calls, isLast page = false
  ends : u.scroll.done = true → u.scroll.page = [] ∧
    ((∃ page ∈ received first u.calls, isLast page) ∨ latest (received first u.calls) = none)
  quiet : u.calls.Pairwise fun before after => before.isFinal → after = .idle
  final : ∀ call ∈ u.calls, call.isFinal → u.scroll.done = true

variable {h : HttpStore} {first : SearchResponse} {w : Wire} {u : Use}

private theorem lawful_start (h : HttpStore) (first : SearchResponse) (w : Wire) :
    Lawful h first w (.start first w) where
  asked := .refl h.hosts w
  carried := by intro k hk; simp [Use.start, sent] at hk
  lazy := by intro k hk; simp [Use.start] at hk
  left := by simp [Use.start, ofFirst, yielded, received, arrived, itemsIn]
  cursor := by
    cases hid : first.scrollId <;>
      simp [Use.start, ofFirst, received, arrived, latest, cursorsIn, hid]
  going := by simp [Use.start, received, arrived]
  running := by
    intro hdone page hpage
    simp only [Use.start, received, arrived, List.filterMap_nil, List.mem_singleton] at hpage
    rw [hpage]
    exact hdone
  ends := by
    intro hdone
    refine ⟨List.isEmpty_iff.mp hdone, .inl ⟨.ok first, ?_, hdone⟩⟩
    simp [received]
  quiet := .nil
  final := by simp [Use.start]

private theorem Lawful.isFinal_eq_false (hu : Lawful h first w u)
    (hgoing : u.scroll.page = [] → u.scroll.done = false) :
    ∀ call ∈ u.calls, call.isFinal = false := by
  intro call hcall
  by_contra hfinal
  have hdone := hu.final call hcall (by simpa using hfinal)
  rw [hgoing (hu.ends hdone).1] at hdone
  exact Bool.noConfusion hdone

private theorem Lawful.concat_none (hu : Lawful h first w u)
    {answer : Option (Except EngineError Hit)}
    {s : Scroll} (hleft : answer.toList ++ s.page.map .ok = u.scroll.page.map .ok)
    (hcursor : s.cursor = u.scroll.cursor) (hrunning : s.done = false → u.scroll.done = false)
    (hover : s.done = true → s.page = [] ∧ (u.scroll.done = true ∨ u.scroll.cursor = none))
    (hquiet : answer = none ∨ ∀ call ∈ u.calls, call.isFinal = false)
    (hfinal : answer = none ∨ u.scroll.done = true → s.done = true)
    (hhits : ∀ e, answer ≠ some (.error e)) :
    Lawful h first w ⟨u.calls ++ [⟨none, answer⟩], s, u.wire⟩ where
  asked := by
    rw [sent_concat_none, arrived_concat_none]
    exact hu.asked
  carried := by
    simp only [sent_concat_none, received_concat_none]
    exact hu.carried
  lazy := by
    intro k hk hrequest
    simp only [List.length_append, List.length_singleton] at hk
    rcases Nat.lt_or_eq_of_le (Nat.le_of_lt_succ hk) with hlt | rfl
    · simp only [List.getElem_append_left hlt] at hrequest
      simp only [List.take_append_of_le_length (Nat.le_of_lt hlt)]
      exact hu.lazy k hlt hrequest
    · simp at hrequest
  left := by
    rw [yielded_concat, received_concat_none, List.append_assoc, hleft]
    exact hu.left
  cursor := by
    rw [received_concat_none, ← hu.cursor]
    exact hcursor
  going := by
    rw [received_concat_none]
    exact hu.going
  running := by
    rw [received_concat_none]
    exact fun hdone => hu.running (hrunning hdone)
  ends := by
    intro hdone
    rw [received_concat_none, ← hu.cursor]
    refine ⟨(hover hdone).1, ?_⟩
    rcases (hover hdone).2 with hbefore | hnone
    · rw [hu.cursor]
      exact (hu.ends hbefore).2
    · exact .inr hnone
  quiet := by
    refine List.pairwise_append.mpr ⟨hu.quiet, List.pairwise_singleton _ _, ?_⟩
    intro before hbefore after hafter hisFinal
    rw [List.mem_singleton.mp hafter]
    -- such a call does nothing, or no call before it was the last to yield
    rcases hquiet with rfl | hnone
    · rfl
    · rw [hnone before hbefore] at hisFinal
      exact absurd hisFinal (by decide)
  final := by
    intro call hcall hisFinal
    rcases List.mem_append.mp hcall with hbefore | hlast
    · exact hfinal (.inr (hu.final call hbefore hisFinal))
    · rw [List.mem_singleton.mp hlast] at hisFinal
      apply hfinal
      match answer with
      | none => exact .inl rfl
      | some (.ok _) => simp [Call.isFinal] at hisFinal
      | some (.error e) => exact absurd rfl (hhits e)

private theorem Lawful.concat_some (hu : Lawful h first w u) {cursor : String} {page : PageResult}
    {answer : Option (Except EngineError Hit)} {s : Scroll} {w' : Wire}
    (hpage : u.scroll.page = []) (hdone : u.scroll.done = false)
    (hcursor : u.scroll.cursor = some cursor) (hnext : h.nextPage cursor u.wire = (page, w'))
    (hleft : answer.toList ++ s.page.map .ok = itemsIn [page])
    (hlatest : s.cursor = latest (received first u.calls ++ [page]))
    (hlast : s.done = isLast page) (hempty : s.done = true → s.page = [])
    (hfinal : (Call.mk (some (cursor, page)) answer).isFinal = s.done) :
    Lawful h first w ⟨u.calls ++ [⟨some (cursor, page), answer⟩], s, w'⟩ where
  asked := by
    have hexchanged := h.exchanged_nextPage cursor u.wire
    rw [hnext] at hexchanged
    rw [sent_concat_some, arrived_concat_some, List.map_append]
    exact hu.asked.append hexchanged
  carried := by
    have hlength : (received first u.calls).length = (sent u.calls).length + 1 := by
      rw [received, List.length_cons, length_arrived]
    simp only [sent_concat_some, received_concat_some]
    intro k hk
    simp only [List.length_append, List.length_singleton] at hk
    rw [List.take_append_of_le_length (by omega)]
    rcases Nat.lt_or_eq_of_le (Nat.le_of_lt_succ hk) with hlt | rfl
    · rw [List.getElem_append_left hlt]
      exact hu.carried k hlt
    · -- the new request is by the cursor of the scroll, which came last so far
      rw [List.take_of_length_le (by omega), ← hu.cursor, hcursor]
      simp
  lazy := by
    intro k hk hrequest
    simp only [List.length_append, List.length_singleton] at hk
    rcases Nat.lt_or_eq_of_le (Nat.le_of_lt_succ hk) with hlt | rfl
    · simp only [List.getElem_append_left hlt] at hrequest
      simp only [List.take_append_of_le_length (Nat.le_of_lt hlt)]
      exact hu.lazy k hlt hrequest
    · -- nothing is left on the page, so all that came has been yielded
      have hused := hu.left
      rw [hpage] at hused
      simpa using hused
  left := by
    have hused := hu.left
    rw [hpage, List.map_nil, List.append_nil] at hused
    rw [yielded_concat, received_concat_some, List.append_assoc, hleft, hused]
    simp [itemsIn]
  cursor := by
    rw [received_concat_some]
    exact hlatest
  going := by
    rw [received_concat_some, List.dropLast_concat]
    exact hu.running hdone
  running := by
    intro hgoes p hp
    rw [received_concat_some, List.mem_append, List.mem_singleton] at hp
    rcases hp with hbefore | rfl
    · exact hu.running hdone p hbefore
    · exact hlast.symm.trans hgoes
  ends := by
    intro hends
    refine ⟨hempty hends, .inl ⟨page, ?_, hlast.symm.trans hends⟩⟩
    rw [received_concat_some]
    simp
  quiet := by
    refine List.pairwise_append.mpr ⟨hu.quiet, List.pairwise_singleton _ _, ?_⟩
    intro before hbefore after _ hisFinal
    rw [hu.isFinal_eq_false (fun _ => hdone) before hbefore] at hisFinal
    exact absurd hisFinal (by decide)
  final := by
    intro call hcall hisFinal
    rcases List.mem_append.mp hcall with hbefore | hnew
    · rw [hu.isFinal_eq_false (fun _ => hdone) call hbefore] at hisFinal
      exact absurd hisFinal (by decide)
    · rw [List.mem_singleton.mp hnew, hfinal] at hisFinal
      exact hisFinal

private theorem Lawful.call (hu : Lawful h first w u) : Lawful h first w (u.call h) := by
  obtain ⟨calls, scroll, wire⟩ := u
  have hmoves := moves_next h scroll wire
  rw [Use.call]
  -- how the move is computed no longer matters, only what moves there are
  generalize callOf h scroll wire = call, (next h scroll wire).2.1 = s,
    (next h scroll wire).2.2 = w' at hmoves ⊢
  cases hmoves with
  | hit cursor hit rest done =>
    have hnone := hu.isFinal_eq_false (by simp)
    exact hu.concat_none rfl rfl id (fun hdone => absurd (hu.ends hdone).1 (by simp)) (.inr hnone)
      (by simp) (by simp)
  | spent cursor =>
    exact hu.concat_none rfl rfl (by simp) (by simp) (.inl rfl) (by simp) (by simp)
  | bare =>
    exact hu.concat_none rfl rfl (by simp) (by simp) (.inl rfl) (by simp) (by simp)
  | failed cursor e w w' hpage =>
    refine hu.concat_some rfl rfl rfl hpage rfl ?_ rfl (by simp) rfl
    rw [latest_concat_error]
    exact hu.cursor
  | ended cursor page w w' hpage hhits =>
    refine hu.concat_some rfl rfl rfl hpage ?_ ?_ ?_ (by simp) rfl
    · simp [itemsIn, hhits]
    · rw [latest_concat_ok, ← hu.cursor]
      simp
    · simp [isLast, hhits]
  | turned cursor page hit rest w w' hpage hhits =>
    refine hu.concat_some rfl rfl rfl hpage ?_ ?_ ?_ (by simp) rfl
    · simp [itemsIn, hhits]
    · rw [latest_concat_ok, ← hu.cursor]
      simp
    · simp [isLast, hhits]

theorem lawful_after (h : HttpStore) (first : SearchResponse) (w : Wire) (n : Nat) :
    Lawful h first w (.after h first w n) := by
  induction n with
  | zero => exact lawful_start h first w
  | succ n ih =>
    rw [Use.after, Function.iterate_succ_apply']
    exact ih.call

private theorem length_after (h : HttpStore) (first : SearchResponse) (w : Wire) (n : Nat) :
    (Use.after h first w n).calls.length = n := by
  induction n with
  | zero => rfl
  | succ n ih =>
    rw [Use.after] at ih ⊢
    rw [Function.iterate_succ_apply', Use.call, List.length_append, ih, List.length_singleton]

theorem wire_close (s : Scroll) (h : HttpStore) (w : Wire) :
    (s.close h w).2 = (w.exchange h.hosts (s.cursor.toList.map h.discardRequest)).2 := by
  unfold close
  cases s.cursor with
  | none => rfl
  | some cursor =>
    rw [Option.toList_some, List.map_singleton, ← h.wire_discard]
    match hdiscard : h.discard cursor w with
    | (.ok (), w') => simp [hdiscard]
    | (.error e, w') => simp [hdiscard]

theorem Lawful.yielded_of_none (hu : Lawful h first w u)
    (hnone : ∃ call ∈ u.calls, call.answer = none) :
    yielded u.calls = itemsIn (received first u.calls) ∧
      ((∃ page ∈ received first u.calls, isLast page) ∨
        latest (received first u.calls) = none) := by
  obtain ⟨call, hcall, hanswer⟩ := hnone
  have hdone := hu.final call hcall (by simp [Call.isFinal, hanswer])
  obtain ⟨hpage, hover⟩ := hu.ends hdone
  have hleft := hu.left
  rw [hpage, List.map_nil, List.append_nil] at hleft
  exact ⟨hleft, hover⟩

/-- After any number of calls the scroll is given up. The requests are those of the trace, at most
one a call, each by the cursor that came last and none before all pages so far are used up. The
items are the first ones of the pages, which go on up to an empty page, a failure, or the lack of a
cursor; an end comes after all of them, and nothing comes after an end. Giving up discards the
cursor that came last. A server that refuses no connection has taken these requests and no others.
-/
theorem run_then_close (h : HttpStore) (first : SearchResponse) (w : Wire) (n : Nat) :
    let u := Use.after h first w n
    let pages := received first u.calls
    let requests := (sent u.calls).map h.pageRequest
    let closing := (latest pages).toList.map h.discardRequest
    u.calls.length = n ∧
    Exchanged h.hosts w requests (arrived u.calls) u.wire ∧
    (∀ k (hk : k < (sent u.calls).length),
      latest (pages.take (k + 1)) = some (sent u.calls)[k]) ∧
    (∀ k (hk : k < u.calls.length), u.calls[k].request ≠ none →
      yielded (u.calls.take k) = itemsIn (received first (u.calls.take k))) ∧
    yielded u.calls <+: itemsIn pages ∧
    (∀ page ∈ pages.dropLast, isLast page = false) ∧
    ((∃ call ∈ u.calls, call.answer = none) → yielded u.calls = itemsIn pages ∧
      ((∃ page ∈ pages, isLast page) ∨ latest pages = none)) ∧
    (u.calls.Pairwise fun before after => before.isFinal → after = .idle) ∧
    (u.scroll.close h u.wire).2 = (u.wire.exchange h.hosts closing).2 ∧
    (.refuse ∉ w.script → (u.scroll.close h u.wire).2.taken =
      w.taken ++ (requests ++ closing).filterMap (Outgoing.arriving? h.hosts)) := by
  intro u pages requests closing
  have hu : Lawful h first w u := lawful_after h first w n
  have hclose : (u.scroll.close h u.wire).2 = (u.wire.exchange h.hosts closing).2 := by
    rw [wire_close, hu.cursor]
  refine ⟨length_after h first w n, hu.asked, hu.carried, hu.lazy, ⟨_, hu.left⟩, hu.going,
    hu.yielded_of_none, hu.quiet, hclose, ?_⟩
  intro hrefuse
  rw [hclose, ← hu.asked.wire_append closing]
  exact w.taken_exchange h.hosts hrefuse (requests ++ closing)

end Use

end Scroll

end Docket
