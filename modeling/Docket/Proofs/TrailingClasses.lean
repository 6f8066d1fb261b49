import Docket.Proofs.Trailing

/-!
Classes in brackets with text behind the pattern. No class ends in what the anchors put there.
-/

set_option autoImplicit false
set_option relaxedAutoImplicit false

namespace Docket.Pattern

section Classes

variable (f : Flags) {cs cs' : List Char}

private theorem classItem_extended (h : Trails cs cs') :
    Extended (Kept cs.tail) (EscapeAstray f.verbose) (classItem f cs) (classItem f cs') := by
  obtain ⟨rfl, rfl | rfl⟩ | ⟨c, r, rfl, rfl⟩ := h.view
  · exact .failed _ _
  · exact .astray _ (.sign (.char ')'))
  · by_cases hc : c = '\\'
    · subst hc
      exact escape_extended f (.shown r)
    · simpa [classItem, hc] using Extended.read ⟨rfl, .shown r, List.suffix_rfl⟩

/-- Inside a class, what remains once a range ran into `closing`. -/
def InClosing : Ranges × List Char → Prop := fun x => x.2 = closing ∨ x.2 = ['$']

theorem skipBlanks_shown (verbose : Bool) {c : Char} (hspace : Unicode.isWhiteSpace c = false)
    (hsign : c ≠ '#') (rest : List Char) : skipBlanks verbose (c :: rest) = c :: rest := by
  simp [skipBlanks, takeVisible, hspace, hsign]

def rangeFrom (first : Node) (cs : List Char) : Except Cause (Ranges × List Char) := do
  let (second, rest) ← classItem f (skipBlanks f.verbose cs)
  let low ← itemBound first
  let high ← itemBound second
  if low ≤ high then pure ([(low.toNat, high.toNat)], rest) else .error .badClassRange

private theorem rangeFrom_extended (first : Node) (h : Trails cs cs') :
    Extended (Kept cs) InClosing (rangeFrom f first cs) (rangeFrom f first cs') := by
  refine (classItem_extended f (h.skipBlanks f.verbose)).bind ?_ ?_
  · rintro ⟨_, rest⟩ ⟨second, rest'⟩ ⟨rfl, hleft, hin⟩
    dsimp only
    cases itemBound first with
    | error e => exact .failed _ _
    | ok low =>
      cases itemBound second with
      | error e => exact .failed _ _
      | ok high =>
        simp only [bind, Except.bind]
        split
        · exact .read ⟨rfl, hleft, (hin.trans (List.tail_suffix _)).trans
            (skipBlanks_suffix f.verbose cs)⟩
        · exact .failed _ _
  · rintro e _ (⟨item⟩ | ⟨e', h⟩) <;> dsimp only
    · cases itemBound first with
      | error e => exact .failed _ _
      | ok low =>
        cases itemBound item with
        | error e => exact .failed _ _
        | ok high =>
          simp only [bind, Except.bind]
          split
          · exact .astray _ (.inr rfl)
          · exact .failed _ _
    · cases itemBound first <;> exact .failed _ _

private theorem classRange_extended (h : Trails cs cs') :
    Extended (Kept cs.tail) InClosing (classRange f cs) (classRange f cs') := by
  refine (classItem_extended f h).bind ?_ ?_
  · rintro ⟨_, rest⟩ ⟨first, rest'⟩ ⟨rfl, hleft, hin⟩
    have hwithin := (skipBlanks_suffix f.verbose rest).trans hin
    simp only at hleft ⊢
    have hrest : ∀ {r r' : List Char}, Trails r r' → r <:+ cs.tail →
        Extended (Kept cs.tail) InClosing (itemRanges first >>= fun ranges => pure (ranges, r))
          (itemRanges first >>= fun ranges => pure (ranges, r')) := fun hr hrcs =>
      Extended.of_map (itemRanges first) fun _ => ⟨rfl, hr, hrcs⟩
    obtain ⟨hr, hr' | hr'⟩ | ⟨c, r, hr, hr'⟩ := (hleft.skipBlanks f.verbose).view
    · rw [hr, hr']
      exact .failed _ _
    · rw [hr, hr']
      cases hranges : itemRanges first with
      | error e => exact .failed _ _
      | ok ranges => exact .astray _ (.inl rfl)
    · rw [hr] at hwithin
      rw [hr, hr']
      by_cases hc : c = '-'
      · subst hc
        have hahead : (glance f.verbose (r ++ closing) = some ']' ∨
            glance f.verbose (r ++ closing) = some '-') ↔
            (glance f.verbose r = some ']' ∨ glance f.verbose r = some '-') := by
          rcases glance_trails f.verbose (.shown r) with heq | ⟨hnone, hclosing⟩
          · rw [heq]
          · simp [hnone, hclosing]
        simp only [Bool.or_eq_true, decide_eq_true_eq, hahead]
        split
        · exact hrest (.shown ('-' :: r)) hwithin
        · exact (rangeFrom_extended f first (.shown r)).mono
            ((List.suffix_cons _ r).trans hwithin)
      · simpa [hc] using hrest (.shown (c :: r)) hwithin
  · rintro e _ (⟨item⟩ | ⟨e', h⟩)
    · simp only [skipBlanks_shown f.verbose (c := '$') (by decide) (by decide)]
      cases hranges : itemRanges item with
      | error e' => simpa [hranges] using Extended.failed _ _
      | ok ranges => simpa [hranges] using Extended.astray _ (.inr rfl)
    · simp only [skipBlanks_shown f.verbose (c := '{') (by decide) (by decide)]
      exact .failed _ _

theorem takeWhile_append_of_left {p : Char → Bool} {r : List Char} (h : r.dropWhile p ≠ [])
    (behind : List Char) : (r ++ behind).takeWhile p = r.takeWhile p := by
  have hshort : (r.takeWhile p).length ≠ r.length := by
    intro heq
    have hlength := congrArg List.length (List.takeWhile_append_dropWhile (p := p) (l := r))
    rw [List.length_append, heq] at hlength
    exact h (List.eq_nil_of_length_eq_zero (by omega))
  rw [List.takeWhile_append, if_neg hshort]

/-- The name of a class ends in the text itself, or nowhere. -/
theorem className_view {r r' : List Char} (h : Trails r r') :
    (∃ after, r.dropWhile (· != ':') = ':' :: ']' :: after ∧
        r'.dropWhile (· != ':') = ':' :: ']' :: (after ++ closing) ∧
        r'.takeWhile (· != ':') = r.takeWhile (· != ':') ∧ after <:+ r) ∨
      (∀ after, r.dropWhile (· != ':') ≠ ':' :: ']' :: after) ∧
        ∀ after, r'.dropWhile (· != ':') ≠ ':' :: ']' :: after := by
  cases h with
  | hidden => exact .inr ⟨by simp, by simp⟩
  | shown r =>
    have hsplit := List.takeWhile_append_dropWhile (p := (· != ':')) (l := r)
    cases hdrop : r.dropWhile (· != ':') with
    | nil => exact .inr ⟨by simp, by simp [closing, List.dropWhile_append, hdrop]⟩
    | cons c s =>
      rw [takeWhile_append_of_left (by simp [hdrop]), List.dropWhile_append, hdrop]
      simp only [List.isEmpty_cons, Bool.false_eq_true, if_false, List.cons_append]
      cases s with
      | nil => exact .inr ⟨by simp, by simp [closing]⟩
      | cons d after =>
        by_cases hcd : c = ':' ∧ d = ']'
        · obtain ⟨rfl, rfl⟩ := hcd
          refine .inl ⟨after, rfl, rfl, trivial, ?_⟩
          rw [← hsplit, hdrop]
          exact ((List.suffix_cons _ after).trans (List.suffix_cons _ _)).trans
            (List.suffix_append _ _)
        · refine .inr ⟨?_, ?_⟩ <;> intro t ht <;> simp at ht <;> exact hcd ⟨ht.1, ht.2.1⟩

def classOfName (negated : Bool) (cs : List Char) : Option (Ranges × List Char) :=
  match cs.dropWhile (· != ':') with
  | ':' :: ']' :: after =>
    (CharClass.ofName? (String.ofList (cs.takeWhile (· != ':')))).map fun ranges =>
      let k := CharClass.ofChars ranges
      ((if negated then k.complement else k).ranges, after)
  | _ => none

private theorem negation_trails {r r' : List Char} (h : Trails r r') :
    ∃ negated s s', (match r with
        | '^' :: rest => (true, rest)
        | rest => (false, rest)) = (negated, s) ∧
      (match r' with
        | '^' :: rest => (true, rest)
        | rest => (false, rest)) = (negated, s') ∧ Trails s s' ∧ s <:+ r := by
  obtain ⟨rfl, rfl | rfl⟩ | ⟨c, s, rfl, rfl⟩ := h.view
  · exact ⟨false, [], [], rfl, rfl, .hidden, List.suffix_rfl⟩
  · exact ⟨false, [], closing, rfl, rfl, .shown [], List.suffix_rfl⟩
  · by_cases hc : c = '^'
    · subst hc
      exact ⟨true, s, s ++ closing, rfl, rfl, .shown s, List.suffix_cons _ s⟩
    · exact ⟨false, c :: s, c :: (s ++ closing), by simp [hc], by simp [hc], .shown (c :: s),
        List.suffix_rfl⟩

def SameWithin (cs : List Char) (x y : Option (Ranges × List Char)) : Prop :=
  (x = none ∧ y = none) ∨
    ∃ ranges after, x = some (ranges, after) ∧ y = some (ranges, after ++ closing) ∧ after <:+ cs

private theorem classOfName_same (negated : Bool) {r r' : List Char} (h : Trails r r')
    (hcs : r <:+ cs) :
    SameWithin cs (classOfName negated r) (classOfName negated r') := by
  obtain ⟨after, hdrop, hdrop', htake, hafter⟩ | ⟨hnone, hnone'⟩ := className_view h
  · simp only [classOfName, hdrop, hdrop', htake]
    cases hname : CharClass.ofName? (String.ofList (r.takeWhile (· != ':'))) with
    | none => exact .inl ⟨rfl, rfl⟩
    | some ranges => exact .inr ⟨_, after, rfl, rfl, hafter.trans hcs⟩
  · have hno : ∀ s : List Char, (∀ after, s.dropWhile (· != ':') ≠ ':' :: ']' :: after) →
        classOfName negated s = none := by
      intro s hs
      unfold classOfName
      split
      · exact absurd ‹_› (hs _)
      · rfl
    exact .inl ⟨hno r hnone, hno r' hnone'⟩

private theorem namedClass?_same (rest : List Char) :
    SameWithin rest (namedClass? rest) (namedClass? (rest ++ closing)) := by
  cases rest with
  | nil => exact .inl ⟨rfl, rfl⟩
  | cons c r =>
    by_cases hc : c = ':'
    · subst hc
      obtain ⟨negated, s, s', hs, hs', htrails, hin⟩ := negation_trails (.shown r)
      have hread : namedClass? (':' :: r) = classOfName negated s :=
        congrArg (fun x : Bool × List Char => classOfName x.1 x.2) hs
      have hread' : namedClass? (':' :: (r ++ closing)) = classOfName negated s' :=
        congrArg (fun x : Bool × List Char => classOfName x.1 x.2) hs'
      rw [List.cons_append, hread, hread']
      exact classOfName_same negated htrails (hin.trans (List.suffix_cons _ r))
    · exact .inl ⟨by simp [namedClass?, hc], by simp [namedClass?, hc]⟩

private theorem classItems_dollar (fuel : Nat) (seen : Ranges) :
    ∃ e, classItems f fuel seen ['$'] = .error e := by
  cases fuel with
  | zero => exact ⟨_, rfl⟩
  | succ fuel =>
    have hrange : classRange f ['$'] = .error .unclosedClass := rfl
    exact ⟨.unclosedClass, by
      simp [classItems, skipBlanks_shown f.verbose (c := '$') (by decide) (by decide), hrange]⟩

private theorem classItems_closing (fuel : Nat) (seen : Ranges)
    (h : skipBlanks f.verbose cs = closing) :
    ∃ e, classItems f fuel seen cs = .error e := by
  cases fuel with
  | zero => exact ⟨_, rfl⟩
  | succ fuel =>
    have hrange : classRange f closing = .ok ([single ')'], ['$']) := by
      simp [closing, classRange, classItem, bind, Except.bind,
        skipBlanks_shown f.verbose (c := '$') (by decide) (by decide), itemRanges, pure,
        Except.pure]
    obtain ⟨e, he⟩ := classItems_dollar f fuel (seen ++ [single ')'])
    refine ⟨e, ?_⟩
    rw [classItems, h]
    rw [closing] at hrange ⊢
    simp [hrange, he]

private theorem classItems_inClosing (fuel : Nat) (seen : Ranges) {x : Ranges × List Char}
    (h : InClosing x) : ∃ e, classItems f fuel seen x.2 = .error e := by
  rcases h with h | h
  · exact classItems_closing f fuel seen (by
      rw [h]
      exact skipBlanks_shown f.verbose (by decide) (by decide) ['$'])
  · rw [h]
    exact classItems_dollar f fuel seen

/-- A character and what follows it are no operator, which is a sign that stands there twice. -/
def NoOperator (c : Char) (rest : List Char) : Prop :=
  ∀ t, rest = c :: t → c ≠ '&' ∧ c ≠ '-' ∧ c ≠ '~'

private theorem NoOperator.append {c : Char} {rest : List Char} (h : NoOperator c rest) :
    NoOperator c (rest ++ closing) := by
  intro t ht
  cases rest with
  | nil =>
    obtain rfl : ')' = c := (List.cons.inj ht).1
    decide
  | cons d s =>
    obtain rfl : d = c := (List.cons.inj ht).1
    exact h s rfl

private theorem operator_of_not {c : Char} {rest : List Char} (h : ¬NoOperator c rest) :
    ∃ t, rest = c :: t ∧ (c = '&' ∨ c = '-' ∨ c = '~') := by
  simp only [NoOperator, not_forall] at h
  obtain ⟨t, ht, hc⟩ := h
  exact ⟨t, ht, by tauto⟩

private theorem classItems_range {c : Char} {rest : List Char} (fuel : Nat) (seen : Ranges)
    (h : skipBlanks f.verbose cs = c :: rest) (hclose : c ≠ ']') (hopen : c ≠ '[')
    (hoperator : NoOperator c rest) :
    classItems f (fuel + 1) seen cs =
      match classRange f (c :: rest) with
      | .ok (ranges, rest) => classItems f fuel (seen ++ ranges) rest
      | .error e => .error e := by
  rw [classItems, h]
  split
  · contradiction
  · exact absurd (List.cons.inj ‹_›).1 hclose
  · exact absurd (List.cons.inj ‹_›).1 hopen
  · obtain ⟨rfl, hrest⟩ := List.cons.inj ‹_›
    exact absurd rfl (hoperator _ hrest).1
  · obtain ⟨rfl, hrest⟩ := List.cons.inj ‹_›
    exact absurd rfl (hoperator _ hrest).2.1
  · obtain ⟨rfl, hrest⟩ := List.cons.inj ‹_›
    exact absurd rfl (hoperator _ hrest).2.2
  · rfl

private theorem classItems_operator {c : Char} {rest : List Char} (fuel : Nat) (seen : Ranges)
    (h : skipBlanks f.verbose cs = c :: c :: rest) (hc : c = '&' ∨ c = '-' ∨ c = '~') :
    classItems f (fuel + 1) seen cs = .error .classOperator := by
  rw [classItems, h]
  obtain rfl | rfl | rfl := hc <;> rfl

private theorem classItems_extended (n k : Nat) (seen : Ranges) (h : Trails cs cs')
    (hn : cs.length < n) :
    Extended (Kept cs) Nothing (classItems f n seen cs) (classItems f (n + k) seen cs') := by
  -- Each item leaves a shorter text, so the fuel never runs out; the longer text may have more.
  induction n generalizing seen cs cs' with
  | zero => omega
  | succ n ih =>
    have hwithin := skipBlanks_suffix f.verbose cs
    obtain ⟨hr, hr' | hr'⟩ | ⟨c, r, hr, hr'⟩ := (h.skipBlanks f.verbose).view
    · rw [Nat.add_right_comm, classItems, classItems, hr, hr']
      exact .failed _ _
    · obtain ⟨e, he⟩ := classItems_closing f (n + 1 + k) seen hr'
      rw [classItems, hr, he]
      exact .failed _ _
    rw [hr] at hwithin
    have hlength := hwithin.length_le
    rw [List.length_cons] at hlength
    have hin : r <:+ cs := (List.suffix_cons c r).trans hwithin
    have hlater : ∀ (seen : Ranges) {s s' : List Char}, Trails s s' → s <:+ r →
        Extended (Kept cs) Nothing (classItems f n seen s) (classItems f (n + k) seen s') := by
      intro seen s s' hs hsr
      have hshort := hsr.length_le
      exact (ih seen hs (by omega)).mono (hsr.trans hin)
    rw [Nat.add_right_comm]
    by_cases hclose : c = ']'
    · subst hclose
      rw [classItems, classItems, hr, hr']
      exact .read ⟨rfl, .shown r, hin⟩
    by_cases hopen : c = '['
    · subst hopen
      rw [classItems, classItems, hr, hr']
      obtain ⟨hx, hy⟩ | ⟨ranges, after, hx, hy, hafter⟩ := namedClass?_same r
      · simp only [hx, hy]
        exact .failed _ _
      · simp only [hx, hy]
        exact hlater _ (.shown after) hafter
    by_cases hoperator : NoOperator c r
    · rw [classItems_range f n seen hr hclose hopen hoperator,
        classItems_range f (n + k) seen hr' hclose hopen hoperator.append]
      have hrange := classRange_extended f (.shown (c :: r))
      rw [List.cons_append] at hrange
      generalize classRange f (c :: r) = x, classRange f (c :: (r ++ closing)) = y at hrange ⊢
      cases hrange with
      | failed e e' => exact .failed _ _
      | @astray e y hy =>
        obtain ⟨e', he⟩ := classItems_inClosing f (n + k) (seen ++ y.1) hy
        simp only [he]
        exact .failed _ _
      | @read x y hxy =>
        simp only [hxy.same]
        exact hlater _ hxy.left hxy.within
    · obtain ⟨t, rfl, hc⟩ := operator_of_not hoperator
      rw [classItems_operator f n seen hr hc, classItems_operator f (n + k) seen hr' hc]
      exact .failed _ _

private theorem classStart_kept (h : Trails cs cs') : Kept cs (classStart f cs)
    (classStart f cs') := by
  have hkept := takeWhileVisible_kept f.verbose (· == '-') (by decide) h
  unfold classStart
  obtain ⟨dashes, ⟨hx, hy | hy⟩ | ⟨c, r, hx, hy, hin⟩⟩ := hkept.view <;> rw [hx, hy]
  · cases dashes <;> exact ⟨rfl, .hidden, List.nil_suffix⟩
  · cases dashes <;> exact ⟨rfl, .shown [], List.nil_suffix⟩
  · cases dashes with
    | nil =>
      by_cases hc : c = ']'
      · subst hc
        exact ⟨rfl, .shown r, (List.suffix_cons _ r).trans hin⟩
      · have hplain : Kept cs (([] : Ranges), c :: r) ([], c :: (r ++ closing)) :=
          ⟨rfl, .shown (c :: r), hin⟩
        simpa [hc] using hplain
    | cons dash dashes => exact ⟨rfl, .shown (c :: r), hin⟩

def classBody (negated : Bool) (cs : List Char) : Except Cause (Node × List Char) :=
  (classItems f ((classStart f cs).2.length + 1) (classStart f cs).1 (classStart f cs).2).map
    fun x =>
      let k := CharClass.ofRanges x.1
      let k := if f.ignoreCase then k.foldCase else k
      (.one (if negated then k.complement else k), x.2)

private theorem classBody_extended (negated : Bool) (h : Trails cs cs') :
    Extended (Kept cs) Nothing (classBody f negated cs) (classBody f negated cs') := by
  obtain ⟨hsame, hleft, hwithin⟩ := classStart_kept f h
  obtain ⟨k, hk⟩ := Nat.exists_eq_add_of_le hleft.length_le
  rw [classBody, classBody, hsame, hk, Nat.add_right_comm]
  refine (classItems_extended f _ k _ hleft (Nat.lt_succ_self _)).map _ ?_ fun _ hnone => hnone
  rintro ⟨_, rest⟩ ⟨ranges, rest'⟩ ⟨rfl, hrest, hin⟩
  exact ⟨rfl, hrest, hin.trans hwithin⟩

theorem bracket_extended (h : Trails cs cs') :
    Extended (Kept cs) Nothing (bracket f cs) (bracket f cs') := by
  obtain ⟨negated, s, s', hs, hs', htrails, hin⟩ := negation_trails (h.skipBlanks f.verbose)
  have hread : bracket f cs = classBody f negated s :=
    congrArg (fun x : Bool × List Char => classBody f x.1 x.2) hs
  have hread' : bracket f cs' = classBody f negated s' :=
    congrArg (fun x : Bool × List Char => classBody f x.1 x.2) hs'
  rw [hread, hread']
  exact (classBody_extended f negated htrails).mono
    (hin.trans (skipBlanks_suffix f.verbose cs))

end Classes

end Docket.Pattern
