import Docket.Engine
import Docket.Http.Calls

/-!
Scrolls: the hits of a search page by page. A page is asked for when the hits of the one before are
used up; the latest cursor asks for it. A scroll ends with an empty page, with a failure, or when
there is no cursor. Giving a scroll up discards its cursor. The scans of a store over HTTP are
scrolls, which are given up as soon as the items asked for are there.
-/

set_option autoImplicit false
set_option relaxedAutoImplicit false

namespace Docket

structure Scroll where
  /-- The cursor received last. -/
  cursor : Option String
  page : List Hit
  done : Bool

namespace Scroll

def ofFirst (first : SearchResponse) : Scroll :=
  ⟨first.scrollId, first.hits, first.hits.isEmpty⟩

/-- A scroll that has its next page. An answer without a cursor leaves the one before. -/
def turnTo (cursor : String) (next : SearchResponse) : Scroll :=
  ⟨some (next.scrollId.getD cursor), next.hits, next.hits.isEmpty⟩

def next (h : HttpStore) (s : Scroll) (w : Wire) :
    Option (Except EngineError Hit) × Scroll × Wire :=
  match s.page with
  | hit :: rest => (some (.ok hit), { s with page := rest }, w)
  | [] =>
    if s.done then (none, s, w)
    else
      match s.cursor with
      | none => (none, { s with done := true }, w)
      | some cursor =>
        match h.nextPage cursor w with
        | (.error e, w) => (some (.error e), { s with done := true }, w)
        | (.ok response, w) =>
          match response.hits with
          | [] => (none, turnTo cursor response, w)
          | hit :: rest => (some (.ok hit), { turnTo cursor response with page := rest }, w)

def live (s : Scroll) : Nat := if s.done then 0 else 1

/-- What an item of a scroll uses up: an entry of the script, or the right to ask for pages, or a
hit of the page. -/
def Uses (before after : Scroll × Wire) : Prop :=
  after.2.script.length < before.2.script.length ∨
    after.2.script.length = before.2.script.length ∧
      (after.1.live < before.1.live ∨
        after.1.live = before.1.live ∧ after.1.page.length < before.1.page.length)

theorem script_length_postSearch (h : HttpStore) (path : String) (body : Json) (w : Wire) :
    (h.postSearch path body w).2.script.length < w.script.length ∨
      (h.postSearch path body w).2.script.length = w.script.length ∧
        ∃ e, (h.postSearch path body w).1 = .error e := by
  rcases w.script_length_request h.hosts (h.url path) .post
    (some ⟨HttpStore.jsonType, body.text⟩) with hlt | ⟨heq, ⟨e, he⟩ | hused⟩
  · exact .inl hlt
  · refine .inr ⟨congrArg List.length heq, e, ?_⟩
    simp [HttpStore.postSearch, HttpStore.post, Wire.reading, he, Except.bind]
  · refine .inr ⟨congrArg List.length heq, HttpStore.statusError 500 "script exhausted", ?_⟩
    have hfails : HttpStore.successText (500, some "script exhausted") =
        .error (HttpStore.statusError 500 "script exhausted") := rfl
    simp [HttpStore.postSearch, HttpStore.post, Wire.reading, hused, Except.bind, hfails]

theorem uses_next (h : HttpStore) (s s' : Scroll) (w w' : Wire) (item : Except EngineError Hit)
    (hn : next h s w = (some item, s', w')) : Uses (s, w) (s', w') := by
  unfold next at hn
  split at hn
  · rename_i hit rest hp
    simp only [Prod.mk.injEq] at hn
    obtain ⟨-, rfl, rfl⟩ := hn
    exact .inr ⟨rfl, .inr ⟨rfl, by simp [hp]⟩⟩
  · split at hn
    · simp at hn
    · rename_i hd
      split at hn
      · simp at hn
      · rename_i cursor _
        have hq := script_length_postSearch h HttpStore.scrollPath (HttpStore.pageBody cursor) w
        split at hn
        · rename_i e w₁ hpage
          simp only [Prod.mk.injEq] at hn
          obtain ⟨-, rfl, rfl⟩ := hn
          rw [HttpStore.nextPage] at hpage
          rw [hpage] at hq
          rcases hq with hlt | ⟨heq, -⟩
          · exact .inl hlt
          · exact .inr ⟨heq, .inl (by simp [live, hd])⟩
        · rename_i response w₁ hpage
          rw [HttpStore.nextPage] at hpage
          rw [hpage] at hq
          split at hn
          · simp at hn
          · simp only [Prod.mk.injEq] at hn
            obtain ⟨-, rfl, rfl⟩ := hn
            rcases hq with hlt | ⟨-, e, he⟩
            · exact .inl hlt
            · simp at he

/-- The items of a scroll, at most `limit` of them if there is a limit, and how it then stands. -/
def pull (s : Scroll) (h : HttpStore) (limit : Option Nat) (w : Wire) :
    List (Except EngineError Hit) × Scroll × Wire :=
  if limit = some 0 then ([], s, w)
  else
    match _hn : next h s w with
    | (none, s', w') => ([], s', w')
    | (some item, s', w') =>
      let (items, last) := pull s' h (limit.map (· - 1)) w'
      (item :: items, last)
  termination_by (w.script.length, s.live, s.page.length)
  decreasing_by
    rcases uses_next h s s' w w' item _hn with hlt | ⟨heq, hlt | ⟨heq', hlt⟩⟩
    · exact .left _ _ hlt
    · rw [← heq]
      exact .right _ (.left _ _ hlt)
    · rw [← heq, ← heq']
      exact .right _ (.right _ hlt)

def discardFailed (e : EngineError) : Event :=
  ⟨.debug, .http, "Failed to clear scroll", [("error", .text e.message)]⟩

/-- Gives a scroll up. Whether its cursor could be discarded is only logged. -/
def close (s : Scroll) (h : HttpStore) (w : Wire) : List Event × Wire :=
  match s.cursor with
  | none => ([], w)
  | some cursor =>
    match h.discard cursor w with
    | (.ok (), w) => ([], w)
    | (.error e, w) => ([discardFailed e], w)

end Scroll

def HttpStore.scan (h : HttpStore) (index : String) (body : Json) (batch : Nat)
    (limit : Option Nat) (w : Wire) : Except EngineError Scan × Wire :=
  match h.openScroll index body batch w with
  | (.error e, w) => (.error e, w)
  | (.ok first, w) =>
    let (items, scroll, w) := (Scroll.ofFirst first).pull h limit w
    let (closing, w) := scroll.close h w
    (.ok ⟨items, closing⟩, w)

def Engine.http (h : HttpStore) : Engine Wire where
  indexExists index w := h.askExists index w
  index index docType document w := h.postDocument index docType document w
  search index body w := h.postSearch (HttpStore.searchPath index) body w
  bulk actions w := h.postBulk actions w
  scan index body batch limit w := h.scan index body batch limit w

end Docket
