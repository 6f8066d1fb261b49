import Docket.Proofs.TrailingClasses

/-!
The beginnings of groups, the counts of repetitions and other items with text behind the pattern.
-/

set_option autoImplicit false
set_option relaxedAutoImplicit false

namespace Docket.Pattern

section Groups

variable {cs cs' : List Char}

private theorem readFlags_letter (f : Flags) (negated afterDash : Bool) (seen : List Char)
    {c : Char} (rest : List Char) (hcolon : c ≠ ':') (hclose : c ≠ ')') (hdash : c ≠ '-') :
    readFlags f negated afterDash seen (c :: rest) =
      match f.set? c (!negated) with
      | some f =>
        if seen.contains c then .error .badFlags else readFlags f negated false (c :: seen) rest
      | none => .error .badFlags := by
  rw [readFlags.eq_def]
  split
  · contradiction
  · exact absurd (List.cons.inj ‹_›).1 hcolon
  · exact absurd (List.cons.inj ‹_›).1 hclose
  · exact absurd (List.cons.inj ‹_›).1 hdash
  · obtain ⟨rfl, rfl⟩ := List.cons.inj ‹_›
    rfl

def FlagsAstray : Flags × List Char → Prop := fun x => x.2 = closing

def FlagsKept (cs : List Char) (x y : Flags × List Char) : Prop := Kept cs x y ∧ x.2 ≠ []

private theorem readFlags_extended (f : Flags) (negated afterDash : Bool) (seen cs : List Char) :
    Extended (FlagsKept cs) FlagsAstray (readFlags f negated afterDash seen cs)
      (readFlags f negated afterDash seen (cs ++ closing)) := by
  have hlater : ∀ {c : Char} {rest : List Char} {x y : Except Cause (Flags × List Char)},
      Extended (FlagsKept rest) FlagsAstray x y →
        Extended (FlagsKept (c :: rest)) FlagsAstray x y := fun h =>
    h.imp (fun _ _ hab => ⟨hab.1.mono (List.suffix_cons _ _), hab.2⟩) fun _ ha => ha
  fun_induction readFlags f negated afterDash seen cs with
  | case1 f negated afterDash seen =>
    cases afterDash with
    | true => exact .failed _ _
    | false => exact .astray _ rfl
  | case2 => exact .failed _ _
  | case3 f negated afterDash seen rest hdash =>
    rw [List.cons_append, readFlags, if_neg hdash]
    exact .read ⟨⟨rfl, .shown (':' :: rest), List.suffix_rfl⟩, List.cons_ne_nil _ _⟩
  | case4 => exact .failed _ _
  | case5 f negated afterDash seen rest hdash =>
    rw [List.cons_append, readFlags, if_neg hdash]
    exact .read ⟨⟨rfl, .shown (')' :: rest), List.suffix_rfl⟩, List.cons_ne_nil _ _⟩
  | case6 => exact .failed _ _
  | case7 f negated afterDash seen rest hnegated ih =>
    rw [List.cons_append, readFlags, if_neg hnegated]
    exact hlater ih
  | case8 f negated afterDash seen c rest hcolon hclose hdash f' hset hseen =>
    rw [List.cons_append, readFlags_letter f negated afterDash seen _ hcolon hclose hdash, hset]
    simp only [if_pos hseen]
    exact .failed _ _
  | case9 f negated afterDash seen c rest hcolon hclose hdash f' hset hseen ih =>
    rw [List.cons_append, readFlags_letter f negated afterDash seen _ hcolon hclose hdash, hset]
    simp only [if_neg hseen]
    exact hlater ih
  | case10 f negated afterDash seen c rest hcolon hclose hdash hset =>
    rw [List.cons_append, readFlags_letter f negated afterDash seen _ hcolon hclose hdash, hset]
    exact .failed _ _

structure CursorKept (cs : List Char) (s s' : Cursor) : Prop where
  same : s' = { s with rest := s'.rest }
  left : Trails s.rest s'.rest
  within : s.rest <:+ cs

theorem CursorKept.mono {cs' : List Char} {s s' : Cursor} (h : CursorKept cs s s')
    (hcs : cs <:+ cs') : CursorKept cs' s s' :=
  ⟨h.same, h.left, h.within.trans hcs⟩

private theorem isNameStart_close : isNameStart ')' = false := by decide +kernel

private theorem isNameRest_close : isNameRest ')' = false := by decide +kernel

private theorem readName_extended (s : Cursor) (cs : List Char) :
    Extended (CursorKept cs) Nothing (readName { s with rest := cs })
      (readName { s with rest := cs ++ closing }) := by
  cases cs with
  | nil =>
    have hclosing : readName { s with rest := closing } = .error .badGroupName := by
      simp [readName, closing, isNameStart_close]
    rw [List.nil_append, hclosing]
    exact .failed _ _
  | cons c r =>
    simp only [readName, List.cons_append]
    split
    · obtain ⟨hr, hr' | hr'⟩ | ⟨d, t, hr, hr'⟩ :=
        ((Trails.shown r).dropWhile isNameRest_close).view <;> rw [hr, hr']
      · exact .failed _ _
      · exact .failed _ _
      · by_cases hd : d = '>'
        · subst hd
          have hsuffix : t <:+ c :: r := by
            have hdrop := List.dropWhile_suffix (l := r) isNameRest
            rw [hr] at hdrop
            exact ((List.suffix_cons _ t).trans hdrop).trans (List.suffix_cons c r)
          rw [takeWhile_append_of_left (by simp [hr])]
          simp only
          split
          · exact .failed _ _
          · exact .read ⟨rfl, .shown t, hsuffix⟩
        · simpa [hd] using Extended.failed _ _
    · exact .failed _ _

def ReadKept {α : Type} (cs : List Char) (x y : α × Cursor) : Prop :=
  y.1 = x.1 ∧ CursorKept cs x.2 y.2

theorem Extended.mono_cursor {α : Type} {cs' : List Char} {astray : α × Cursor → Prop}
    {x y : Except Cause (α × Cursor)} (h : Extended (ReadKept cs) astray x y) (hcs : cs <:+ cs') :
    Extended (ReadKept cs') astray x y :=
  h.imp (fun _ _ hab => ⟨hab.1, hab.2.mono hcs⟩) fun _ ha => ha

/-- Flags at the end of a text become flags on their own. -/
def OpeningAstray (x : Opening × Cursor) : Prop := x.1 = .flags ∧ x.2.rest = ['$']

def openFlags (s : Cursor) (cs : List Char) : Except Cause (Opening × Cursor) :=
  match readFlags s.flags false false [] cs with
  | .ok (f, ')' :: rest) => .ok (.flags, { s with flags := f, rest := rest })
  | .ok (f, rest) => .ok (.plain, { s with flags := f, rest := rest.drop 1 })
  | .error e => .error e

private theorem openGroup_flags {s : Cursor} {d : Char} {t : List Char}
    (h : skipBlanks s.flags.verbose s.rest = '?' :: d :: t) (heq : d ≠ '=') (hbang : d ≠ '!')
    (hangle : d ≠ '<') (hclose : d ≠ ')') (hnamed : ¬(d = 'P' ∧ t.head? = some '<')) :
    openGroup s = openFlags s (d :: t) := by
  rw [openGroup, h]
  split <;> rename_i hsign <;> simp only [List.cons.injEq, true_and] at hsign
  · exact absurd hsign.1 heq
  · exact absurd hsign.1 hbang
  · exact absurd hsign.1 hangle
  · exact absurd hsign.1 hangle
  · exact absurd ⟨hsign.1, by simp [hsign.2]⟩ hnamed
  · exact absurd hsign.1 hangle
  · exact absurd hsign.1 hclose
  · rw [hsign]
    rfl
  · exact (hsign _ rfl).elim

private theorem openFlags_extended (s : Cursor) (cs : List Char) :
    Extended (ReadKept cs) OpeningAstray (openFlags s cs) (openFlags s (cs ++ closing)) := by
  have hflags := readFlags_extended s.flags false false [] cs
  unfold openFlags
  generalize readFlags s.flags false false [] cs = x,
    readFlags s.flags false false [] (cs ++ closing) = y at hflags ⊢
  cases hflags with
  | failed e e' => exact .failed _ _
  | @astray e y hy =>
    obtain ⟨f, _⟩ := y
    obtain rfl : _ = closing := hy
    exact .astray _ ⟨rfl, rfl⟩
  | @read x y hxy =>
    obtain ⟨f, ⟨hx, -⟩ | ⟨c, t, rfl, rfl, hin⟩⟩ := hxy.1.view
    · exact absurd (congrArg Prod.snd hx) hxy.2
    · by_cases hc : c = ')'
      · subst hc
        exact .read ⟨rfl, rfl, .shown t, (List.suffix_cons _ t).trans hin⟩
      · have hplain : Extended (ReadKept cs) OpeningAstray
            (.ok (Opening.plain, { s with flags := f, rest := t }))
            (.ok (.plain, { s with flags := f, rest := t ++ closing })) :=
          .read ⟨rfl, rfl, .shown t, (List.suffix_cons _ t).trans hin⟩
        simpa [hc] using hplain

private theorem named_extended (s : Cursor) (cs : List Char) :
    Extended (ReadKept cs) OpeningAstray
      ((readName { s with rest := cs }).map fun s => (Opening.capture, s))
      ((readName { s with rest := cs ++ closing }).map fun s => (.capture, s)) :=
  (readName_extended s cs).map _ (fun _ _ h => ⟨rfl, h⟩) fun _ hnone => hnone.elim

private theorem openMarked_extended (s : Cursor) {cs cs' r : List Char}
    (hr : skipBlanks s.flags.verbose cs = '?' :: r)
    (hr' : skipBlanks s.flags.verbose cs' = '?' :: (r ++ closing)) :
    Extended (ReadKept r) OpeningAstray (openGroup { s with rest := cs })
      (openGroup { s with rest := cs' }) := by
  cases r with
  | nil =>
    simp only [openGroup, hr, hr']
    exact .failed _ _
  | cons d t =>
    have hin : t <:+ d :: t := List.suffix_cons d t
    rcases eq_or_ne d '=' with rfl | heq
    · simp only [openGroup, hr, hr']
      exact .failed _ _
    rcases eq_or_ne d '!' with rfl | hbang
    · simp only [openGroup, hr, hr']
      exact .failed _ _
    rcases eq_or_ne d ')' with rfl | hclose
    · simp only [openGroup, hr, hr']
      exact .failed _ _
    rcases eq_or_ne d '<' with rfl | hangle
    · cases t with
      | nil =>
        simp only [openGroup, hr, hr']
        exact (named_extended s []).mono_cursor hin
      | cons e u =>
        rcases eq_or_ne e '=' with rfl | heq'
        · simp only [openGroup, hr, hr']
          exact .failed _ _
        rcases eq_or_ne e '!' with rfl | hbang'
        · simp only [openGroup, hr, hr']
          exact .failed _ _
        · simp only [openGroup, hr, hr']
          simpa [heq', hbang'] using (named_extended s (e :: u)).mono_cursor hin
    by_cases hnamed : d = 'P' ∧ t.head? = some '<'
    · obtain ⟨rfl, ht⟩ := hnamed
      obtain ⟨u, rfl⟩ : ∃ u, t = '<' :: u := List.head?_eq_some_iff.mp ht
      simp only [openGroup, hr, hr']
      exact (named_extended s u).mono_cursor ((List.suffix_cons _ u).trans hin)
    · have hnamed' : ¬(d = 'P' ∧ (t ++ closing).head? = some '<') := by
        cases t with
        | nil => simp [closing]
        | cons e u => exact hnamed
      rw [openGroup_flags hr heq hbang hangle hclose hnamed,
        openGroup_flags hr' heq hbang hangle hclose hnamed']
      exact openFlags_extended s (d :: t)

theorem openGroup_extended (s : Cursor) (cs : List Char) :
    Extended (ReadKept cs) OpeningAstray (openGroup { s with rest := cs })
      (openGroup { s with rest := cs ++ closing }) := by
  have hwithin := skipBlanks_suffix s.flags.verbose cs
  have hcapture : ∀ {r r' : List Char}, Trails r r' → r <:+ cs →
      Extended (ReadKept cs) OpeningAstray
        (.ok (Opening.capture, { s with groups := s.groups + 1, rest := r }))
        (.ok (.capture, { s with groups := s.groups + 1, rest := r' })) :=
    fun hr hcs => .read ⟨rfl, rfl, hr, hcs⟩
  obtain ⟨hr, hr' | hr'⟩ | ⟨c, r, hr, hr'⟩ := ((Trails.shown cs).skipBlanks s.flags.verbose).view
  · simp only [openGroup, hr, hr']
    exact hcapture .hidden List.nil_suffix
  · simp only [openGroup, hr, hr']
    exact hcapture (.shown []) List.nil_suffix
  · rw [hr] at hwithin
    by_cases hc : c = '?'
    · subst hc
      exact (openMarked_extended s hr hr').mono_cursor ((List.suffix_cons _ r).trans hwithin)
    · simp only [openGroup, hr, hr']
      simpa [hc] using hcapture (.shown (c :: r)) hwithin

end Groups

section Items

variable (verbose : Bool) {cs cs' : List Char}

private theorem readCount_extended (h : Trails cs cs') :
    Extended (Kept cs) Nothing (readCount verbose cs) (readCount verbose cs') := by
  have hspace : Unicode.isWhiteSpace ')' = false := by decide
  have hkept := takeWhileVisible_kept verbose Char.isDigit (by decide) (h.dropWhile hspace)
  unfold readCount
  generalize takeWhileVisible verbose Char.isDigit (cs.dropWhile Unicode.isWhiteSpace) = x,
    takeWhileVisible verbose Char.isDigit (cs'.dropWhile Unicode.isWhiteSpace) = y at hkept ⊢
  obtain ⟨_, rest⟩ := x
  obtain ⟨ds, rest'⟩ := y
  obtain ⟨rfl, hleft, hin⟩ := hkept
  cases ds with
  | nil => exact .failed _ _
  | cons d ds =>
    simp only
    split
    · exact .read ⟨rfl, hleft.dropWhile hspace, ((List.dropWhile_suffix _).trans hin).trans
        (List.dropWhile_suffix _)⟩
    · exact .failed _ _

def readMost (least : Nat) (cs : List Char) : Except Cause ((Nat × Option Nat) × List Char) := do
  let (most, rest) ← readCount verbose cs
  match rest with
  | '}' :: rest =>
    if least ≤ most then pure ((least, some most), rest) else .error .badRepetition
  | _ => .error .badRepetition

private theorem readMost_extended (least : Nat) (h : Trails cs cs') :
    Extended (Kept cs) Nothing (readMost verbose least cs) (readMost verbose least cs') := by
  refine (readCount_extended verbose h).bind ?_ fun _ _ hnone => hnone.elim
  intro x y hxy
  obtain ⟨most, ⟨rfl, rfl | rfl⟩ | ⟨c, r, rfl, rfl, hin⟩⟩ := hxy.view
  · exact .failed _ _
  · exact .failed _ _
  · by_cases hc : c = '}'
    · subst hc
      simp only
      split
      · exact .read ⟨rfl, .shown r, (List.suffix_cons _ r).trans hin⟩
      · exact .failed _ _
    · simpa [hc] using Extended.failed _ _

private theorem readCounts_extended (h : Trails cs cs') :
    Extended (Kept cs) Nothing (readCounts verbose cs) (readCounts verbose cs') := by
  refine ((readCount_extended verbose (h.skipBlanks verbose)).mono
    (skipBlanks_suffix verbose cs)).bind ?_ fun _ _ hnone => hnone.elim
  intro x y hxy
  obtain ⟨least, ⟨rfl, rfl | rfl⟩ | ⟨c, r, rfl, rfl, hin⟩⟩ := hxy.view
  · exact .failed _ _
  · exact .failed _ _
  · by_cases hclose : c = '}'
    · subst hclose
      exact .read ⟨rfl, .shown r, (List.suffix_cons _ r).trans hin⟩
    by_cases hcomma : c = ','
    · subst hcomma
      have hwithin := (skipBlanks_suffix verbose r).trans ((List.suffix_cons _ r).trans hin)
      simp only
      obtain ⟨hr, hr' | hr'⟩ | ⟨d, t, hr, hr'⟩ := ((Trails.shown r).skipBlanks verbose).view <;>
        rw [hr, hr']
      · exact .failed _ _
      · exact (readMost_extended verbose least (.shown [])).mono List.nil_suffix
      · rw [hr] at hwithin
        by_cases hd : d = '}'
        · subst hd
          exact .read ⟨rfl, .shown t, (List.suffix_cons _ t).trans hwithin⟩
        · split
          · exact absurd (List.cons.inj ‹_›).1 hd
          · split
            · exact absurd (List.cons.inj ‹_›).1 hd
            · exact (readMost_extended verbose least (.shown (d :: t))).mono hwithin
    · simpa [hclose, hcomma] using Extended.failed _ _

private theorem skipLazy_trails (h : Trails cs cs') : Trails (skipLazy cs) (skipLazy cs') := by
  obtain ⟨rfl, rfl | rfl⟩ | ⟨c, r, rfl, rfl⟩ := h.view
  · exact .hidden
  · exact .shown []
  · by_cases hc : c = '?'
    · subst hc
      exact .shown r
    · simpa [skipLazy, hc] using Trails.shown (c :: r)

private theorem skipLazy_suffix (cs : List Char) : skipLazy cs <:+ cs := by
  unfold skipLazy
  split
  · exact List.suffix_cons _ _
  · exact List.suffix_rfl

def ItemAstray (x : List Node × List Char) : Prop :=
  x.2 = ['$'] ∨ ∃ left e, x.2 = '{' :: left ∧ readCounts verbose left = .error e

private theorem Extended.added {cs : List Char} {lost : Node × List Char → Prop}
    {astray : List Node × List Char → Prop} {x y : Except Cause (Node × List Char)}
    (items : List Node) (h : Extended (Kept cs) lost x y)
    (hastray : ∀ x, lost x → astray (x.1 :: items, x.2)) :
    Extended (Kept cs) astray (x.map fun (item, rest) => (item :: items, rest))
      (y.map fun (item, rest) => (item :: items, rest)) :=
  h.map _ (fun _ _ hab => ⟨congrArg (· :: items) hab.same, hab.left, hab.within⟩) hastray

theorem readItem_extended (f : Flags) (items : List Node) (c : Char) (rest : List Char) :
    Extended (Kept rest) (ItemAstray f.verbose) (readItem f items c rest)
      (readItem f items c (rest ++ closing)) := by
  have hagain : ∀ (least : Nat) (most : Option Nat) {r r' : List Char}, Trails r r' → r <:+ rest →
      Extended (Kept rest) (ItemAstray f.verbose)
        ((repeatLatest least most items).map fun items => (items, skipLazy r))
        ((repeatLatest least most items).map fun items => (items, skipLazy r')) :=
    fun least most _ _ hr hcs =>
      .of_map _ fun _ => ⟨rfl, skipLazy_trails hr, (skipLazy_suffix _).trans hcs⟩
  have hplain : ∀ item : Node, Extended (Kept rest) (ItemAstray f.verbose)
      (.ok (item :: items, rest)) (.ok (item :: items, rest ++ closing)) :=
    fun item => .read ⟨rfl, .shown rest, List.suffix_rfl⟩
  unfold readItem
  split
  · exact hagain 0 (some 1) (.shown rest) List.suffix_rfl
  · exact hagain 0 none (.shown rest) List.suffix_rfl
  · exact hagain 1 none (.shown rest) List.suffix_rfl
  · have hcounts := readCounts_extended f.verbose (.shown rest)
    simp only
    generalize readCounts f.verbose rest = x, readCounts f.verbose (rest ++ closing) = y
      at hcounts ⊢
    cases hcounts with
    | failed e e' => exact .failed _ _
    | astray e hnone => exact hnone.elim
    | @read x y hxy =>
      obtain ⟨_, r⟩ := x
      obtain ⟨⟨least, most⟩, r'⟩ := y
      obtain ⟨rfl, hleft, hin⟩ := hxy
      exact hagain least most (hleft.skipBlanks f.verbose)
        ((skipBlanks_suffix f.verbose r).trans hin)
  · exact (bracket_extended f (.shown rest)).added items fun _ hnone => hnone.elim
  · refine (escape_extended f (.shown rest)).added items fun _ hx => ?_
    cases hx with
    | sign item => exact .inl rfl
    | boundary e h => exact .inr ⟨_, e, rfl, h⟩
  · exact hplain f.dot
  · exact hplain f.caret
  · exact hplain f.dollar
  · exact hplain (f.literal c)

end Items

end Docket.Pattern
