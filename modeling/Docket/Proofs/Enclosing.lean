import Docket.Proofs.TrailingItems

/-!
Patterns inside a group. A pattern that is read as a whole is read alike in a group, one level
deeper and with the closing parenthesis behind it, unless its own groups nest too deep for that or a
comment hides the parenthesis. Reading goes step by step; what holds of one step is carried through
all of them by induction on the fuel.
-/

set_option autoImplicit false
set_option relaxedAutoImplicit false

namespace Docket.Pattern

section Steps

inductive ReadStep where
  | stop (r : Except Cause (Node × Cursor))
  | next (branches items : List Node) (s : Cursor)
  | group (opening : Opening) (inner : Cursor)

/-- Reads blanks and what they stand before: an item, a sign between items, or the beginning of a
group. -/
def readStep (level : Nat) (branches items : List Node) (s : Cursor) : ReadStep :=
  match skipBlanks s.flags.verbose s.rest with
  | [] => .stop (.ok (closeAlternatives branches items, { s with rest := [] }))
  | ')' :: rest =>
    .stop (if level = 0 then .error .unopenedGroup
      else .ok (closeAlternatives branches items, { s with rest := ')' :: rest }))
  | '|' :: rest => .next (Node.ofSequence items.reverse :: branches) [] { s with rest := rest }
  | '(' :: rest =>
    match openGroup { s with rest := rest } with
    | .error e => .stop (.error e)
    | .ok (.flags, inner) => .next branches items inner
    | .ok (opening, inner) => .group opening inner
  | c :: rest =>
    match readItem s.flags items c rest with
    | .error e => .stop (.error e)
    | .ok (items, rest) => .next branches items { s with rest := rest }

section

variable {s : Cursor} {rest : List Char} (level : Nat) (branches items : List Node)

private theorem readStep_end (h : skipBlanks s.flags.verbose s.rest = []) :
    readStep level branches items s =
      .stop (.ok (closeAlternatives branches items, { s with rest := [] })) := by
  rw [readStep, h]

private theorem readStep_close (h : skipBlanks s.flags.verbose s.rest = ')' :: rest) :
    readStep level branches items s =
      .stop (if level = 0 then .error .unopenedGroup
        else .ok (closeAlternatives branches items, { s with rest := ')' :: rest })) := by
  rw [readStep, h]
  rfl

private theorem readStep_bar (h : skipBlanks s.flags.verbose s.rest = '|' :: rest) :
    readStep level branches items s =
      .next (Node.ofSequence items.reverse :: branches) [] { s with rest := rest } := by
  rw [readStep, h]
  rfl

private theorem readStep_open (h : skipBlanks s.flags.verbose s.rest = '(' :: rest) :
    readStep level branches items s =
      match openGroup { s with rest := rest } with
      | .error e => .stop (.error e)
      | .ok (.flags, inner) => .next branches items inner
      | .ok (opening, inner) => .group opening inner := by
  rw [readStep, h]
  rfl

private theorem readStep_item {c : Char} (h : skipBlanks s.flags.verbose s.rest = c :: rest)
    (hclose : c ≠ ')') (hbar : c ≠ '|') (hopen : c ≠ '(') :
    readStep level branches items s =
      match readItem s.flags items c rest with
      | .error e => .stop (.error e)
      | .ok (items, rest) => .next branches items { s with rest := rest } := by
  rw [readStep, h]
  split
  · contradiction
  · exact absurd (List.cons.inj ‹_›).1 hclose
  · exact absurd (List.cons.inj ‹_›).1 hbar
  · exact absurd (List.cons.inj ‹_›).1 hopen
  · obtain ⟨rfl, rfl⟩ := List.cons.inj ‹_›
    rfl

end

def Opening.item (opening : Opening) (sub : Node) : Node :=
  match opening with
  | .capture => .group sub
  | _ => sub

def closeGroup (f : Flags) (opening : Opening) (items : List Node) (x : Node × Cursor) :
    Except Cause (List Node × Cursor) :=
  match x.2.rest with
  | ')' :: rest => .ok (opening.item x.1 :: items, { x.2 with flags := f, rest := rest })
  | _ => .error .unclosedGroup

private theorem closeGroup_bind (f : Flags) (opening : Opening) (items : List Node)
    (r : Except Cause (Node × Cursor))
    (next : List Node → Cursor → Except Cause (Node × Cursor)) :
    (match r with
      | .error e => .error e
      | .ok (sub, inner) =>
        match inner.rest with
        | ')' :: rest => next (opening.item sub :: items) { inner with flags := f, rest := rest }
        | _ => .error .unclosedGroup) =
      (r >>= closeGroup f opening items) >>= fun x => next x.1 x.2 := by
  cases r with
  | error e => rfl
  | ok x =>
    simp only [bind, Except.bind, closeGroup]
    cases x.2.rest with
    | nil => rfl
    | cons c rest =>
      by_cases hc : c = ')'
      · subst hc
        rfl
      · simp [hc]

variable {s : Cursor} (fuel level : Nat) (branches items : List Node)

theorem readAlternatives_succ :
    readAlternatives (fuel + 1) level branches items s =
      match readStep level branches items s with
      | .stop r => r
      | .next branches items s => readAlternatives fuel level branches items s
      | .group opening inner =>
        if nestLimit ≤ level then .error .tooDeep
        else
          (readAlternatives fuel (level + 1) [] [] inner >>= closeGroup s.flags opening items) >>=
            fun x => readAlternatives fuel level branches x.1 x.2 := by
  rw [readAlternatives]
  split
  next h => rw [readStep_end _ _ _ h]
  next rest h => rw [readStep_close _ _ _ h]
  next rest h => rw [readStep_bar _ _ _ h]
  next rest h =>
    rw [readStep_open _ _ _ h]
    cases openGroup { s with rest := rest } with
    | error e => rfl
    | ok x =>
      obtain ⟨opening, inner⟩ := x
      cases opening with
      | flags => rfl
      | plain =>
        dsimp only
        split
        · rfl
        · exact closeGroup_bind s.flags .plain items _ _
      | capture =>
        dsimp only
        split
        · rfl
        · exact closeGroup_bind s.flags .capture items _ _
  next c rest hclosing hbar hopen h =>
    rw [readStep_item _ _ _ h hclosing hbar hopen]
    cases readItem s.flags items c rest with
    | error e => rfl
    | ok x => rfl

end Steps

section Behind

variable {cs : List Char} {s s' : Cursor} (fuel level : Nat) (branches items : List Node)

/-- What reading in a group makes of a text that ends before the group does. -/
def ReadAstray (x : Node × Cursor) : Prop := x.2.rest = []

/-- A text from which reading finds no parenthesis that closes a group: the end of `closing`, or a
brace without counts. -/
def Spent (s : Cursor) : Prop :=
  s.rest = ['$'] ∨ ∃ left e, s.rest = '{' :: left ∧ readCounts s.flags.verbose left = .error e

private theorem readAlternatives_spent (h : Spent s) (e : Cause)
    (kept : Node × Cursor → Node × Cursor → Prop) :
    Extended kept ReadAstray (.error e) (readAlternatives fuel level branches items s) := by
  cases fuel with
  | zero => exact .failed _ _
  | succ fuel =>
    rw [readAlternatives_succ]
    rcases h with hdollar | ⟨left, e', hbrace, hcounts⟩
    · have hsign : skipBlanks s.flags.verbose s.rest = '$' :: [] := by
        rw [hdollar]
        exact skipBlanks_shown s.flags.verbose (by decide) (by decide) []
      rw [readStep_item level branches items hsign (by decide) (by decide) (by decide)]
      cases fuel with
      | zero => exact .failed _ _
      | succ fuel => exact .astray _ rfl
    · have hsign : skipBlanks s.flags.verbose s.rest = '{' :: left := by
        rw [hbrace]
        exact skipBlanks_shown s.flags.verbose (by decide) (by decide) left
      have hitem : readItem s.flags items '{' left = .error e' := by simp [readItem, hcounts]
      rw [readStep_item level branches items hsign (by decide) (by decide) (by decide), hitem]
      exact .failed _ _

inductive StepExtended (cs : List Char) (s : Cursor) : ReadStep → ReadStep → Prop
  | stop {r r' : Except Cause (Node × Cursor)} :
      Extended (ReadKept cs) Nothing r r' → StepExtended cs s (.stop r) (.stop r')
  | next (branches items : List Node) {t t' : Cursor} :
      CursorKept cs t t' → t.rest.length < s.rest.length →
      StepExtended cs s (.next branches items t) (.next branches items t')
  | group (opening : Opening) {t t' : Cursor} :
      CursorKept cs t t' → t.rest.length < s.rest.length →
      StepExtended cs s (.group opening t) (.group opening t')
  | astray (e : Cause) (branches items : List Node) {t : Cursor} :
      Spent t → StepExtended cs s (.stop (.error e)) (.next branches items t)

private theorem readStep_extended (h : CursorKept cs s s') :
    StepExtended cs s (readStep (level + 1) branches items s)
      (readStep (level + 1) branches items s') := by
  obtain ⟨hsame, hleft, hin⟩ := h
  have hwithin := skipBlanks_suffix s.flags.verbose s.rest
  have hflags : s'.flags = s.flags := by rw [hsame]
  obtain ⟨hr, hr' | hr'⟩ | ⟨c, r, hr, hr'⟩ := (hleft.skipBlanks s.flags.verbose).view <;>
    rw [← hflags] at hr'
  · rw [readStep_end _ _ _ hr, readStep_end _ _ _ hr', hsame]
    exact .stop (.read ⟨rfl, rfl, .hidden, List.nil_suffix⟩)
  · rw [readStep_end _ _ _ hr, readStep_close _ _ _ hr', hsame]
    exact .stop (.read ⟨rfl, rfl, .shown [], List.nil_suffix⟩)
  rw [hr] at hwithin
  have hlength := hwithin.length_le
  rw [List.length_cons] at hlength
  have hcs : r <:+ cs := (List.suffix_cons c r).trans (hwithin.trans hin)
  have hshorter : ∀ {t : List Char}, t <:+ r → t.length < s.rest.length := by
    intro t ht
    have hle := ht.length_le
    omega
  by_cases hclose : c = ')'
  · subst hclose
    rw [readStep_close _ _ _ hr, readStep_close _ _ _ hr', hsame]
    exact .stop (.read ⟨rfl, rfl, .shown (')' :: r), hwithin.trans hin⟩)
  by_cases hbar : c = '|'
  · subst hbar
    rw [readStep_bar _ _ _ hr, readStep_bar _ _ _ hr', hsame]
    exact .next _ _ ⟨rfl, .shown r, hcs⟩ (hshorter List.suffix_rfl)
  by_cases hopen : c = '('
  · subst hopen
    rw [readStep_open _ _ _ hr, readStep_open _ _ _ hr', hsame]
    have hgroup := openGroup_extended s r
    simp only
    generalize openGroup { s with rest := r } = x,
      openGroup { s with rest := r ++ closing } = y at hgroup ⊢
    cases hgroup with
    | failed e e' => exact .stop (.failed _ _)
    | @astray e y hy =>
      obtain ⟨_, inner⟩ := y
      obtain ⟨rfl, hdollar⟩ := hy
      exact .astray e _ _ (.inl hdollar)
    | @read x y hxy =>
      obtain ⟨_, inner⟩ := x
      obtain ⟨opening, inner'⟩ := y
      obtain ⟨rfl, hkept⟩ := hxy
      cases opening with
      | flags => exact .next _ _ (hkept.mono hcs) (hshorter hkept.within)
      | plain => exact .group _ (hkept.mono hcs) (hshorter hkept.within)
      | capture => exact .group _ (hkept.mono hcs) (hshorter hkept.within)
  · rw [readStep_item _ _ _ hr hclose hbar hopen, readStep_item _ _ _ hr' hclose hbar hopen, hsame]
    have hitem := readItem_extended s.flags items c r
    simp only
    generalize readItem s.flags items c r = x, readItem s.flags items c (r ++ closing) = y
      at hitem ⊢
    cases hitem with
    | failed e e' => exact .stop (.failed _ _)
    | @astray e y hy =>
      obtain ⟨items, left⟩ := y
      exact .astray e _ _ hy
    | @read x y hxy =>
      simp only [hxy.same]
      exact .next _ _ ⟨rfl, hxy.left, hxy.within.trans hcs⟩ (hshorter hxy.within)

private theorem closeGroup_extended {x y : Node × Cursor} (f : Flags) (opening : Opening)
    (h : ReadKept cs x y) :
    Extended (ReadKept cs) (fun z => Spent z.2) (closeGroup f opening items x)
      (closeGroup f opening items y) := by
  obtain ⟨_, t⟩ := x
  obtain ⟨sub, t'⟩ := y
  obtain ⟨rfl, hsame, hleft, hin⟩ := h
  simp only at hsame hleft hin
  rw [hsame]
  obtain ⟨hr, hr' | hr'⟩ | ⟨c, r, hr, hr'⟩ := hleft.view
  · simp only [closeGroup, hr, hr']
    exact .failed _ _
  · simp only [closeGroup, hr, hr']
    exact .astray _ (.inl rfl)
  · by_cases hc : c = ')'
    · subst hc
      simp only [closeGroup, hr, hr']
      rw [hr] at hin
      exact .read ⟨rfl, rfl, .shown r, (List.suffix_cons _ r).trans hin⟩
    · have hunclosed : ∀ (x : Node × Cursor) (r : List Char), x.2.rest = c :: r →
          closeGroup f opening items x = .error .unclosedGroup := by
        intro x r hx
        simp [closeGroup, hx, hc]
      rw [hunclosed (sub, t) r hr, hunclosed (sub, { t with rest := t'.rest }) _ hr']
      exact .failed _ _

theorem closeGroup_of_end (f : Flags) (opening : Opening) {x : Node × Cursor}
    (h : x.2.rest = []) : closeGroup f opening items x = .error .unclosedGroup := by
  simp [closeGroup, h]

/-- In a group, a text is read as it is with `closing` behind it; then the parenthesis of `closing`
is left, unless a comment hides it. What cannot be read on its own leaves no parenthesis either. -/
theorem readAlternatives_extended (h : CursorKept cs s s') (hfuel : s.rest.length < fuel) :
    Extended (ReadKept cs) ReadAstray (readAlternatives fuel (level + 1) branches items s)
      (readAlternatives fuel (level + 1) branches items s') := by
  -- The shorter text does not run out of fuel. What the longer one does beyond its end is `Spent`.
  induction fuel generalizing level branches items s s' cs with
  | zero => omega
  | succ fuel ih =>
    have hflags : s'.flags = s.flags := by rw [h.same]
    have hstep := readStep_extended level branches items h
    rw [readAlternatives_succ, readAlternatives_succ, hflags]
    generalize readStep (level + 1) branches items s = x,
      readStep (level + 1) branches items s' = y at hstep ⊢
    cases hstep with
    | stop hr => exact hr.imp (fun _ _ hab => hab) fun _ hnone => hnone.elim
    | next branches items hkept hshort => exact ih level branches items hkept (by omega)
    | astray e branches items hspent => exact readAlternatives_spent _ _ _ _ hspent e _
    | @group opening t t' hkept hshort =>
      dsimp only
      split
      · exact .failed _ _
      · have hinner : CursorKept t.rest t t' := ⟨hkept.same, hkept.left, List.suffix_rfl⟩
        have hclosed := (ih (level + 1) [] [] hinner (by omega)).bind
          (fun _ _ hab => closeGroup_extended items s.flags opening hab) fun e x hx => by
            rw [closeGroup_of_end items s.flags opening hx]
            exact .failed e _
        refine Extended.mono_cursor (hclosed.bind ?_ fun e x hspent =>
          readAlternatives_spent _ _ _ _ hspent e _) hkept.within
        rintro ⟨_, u⟩ ⟨items, u'⟩ ⟨rfl, hu⟩
        have hlength := hu.within.length_le
        exact ih level branches _ hu (by omega)

/-- What comes of a text that stands one group deeper: the same, unless groups nest too deep or a
parenthesis closes the group around. -/
inductive Deeper (level : Nat) : Except Cause (Node × Cursor) → Except Cause (Node × Cursor) → Prop
  | same {x : Node × Cursor} : (level = 0 → x.2.rest = []) → Deeper level (.ok x) (.ok x)
  | refused (x : Except Cause (Node × Cursor)) (e : Cause) : Deeper level x (.error e)
  | unopened {x : Node × Cursor} : level = 0 → x.2.rest ≠ [] →
      Deeper level (.error .unopenedGroup) (.ok x)

inductive StepDeeper (level : Nat) : ReadStep → ReadStep → Prop
  | stop {r r' : Except Cause (Node × Cursor)} :
      Deeper level r r' → StepDeeper level (.stop r) (.stop r')
  | next (branches items : List Node) (s : Cursor) :
      StepDeeper level (.next branches items s) (.next branches items s)
  | group (opening : Opening) (s : Cursor) :
      StepDeeper level (.group opening s) (.group opening s)

private theorem readStep_deeper (s : Cursor) :
    StepDeeper level (readStep level branches items s) (readStep (level + 1) branches items s) := by
  rw [readStep, readStep]
  generalize skipBlanks s.flags.verbose s.rest = cs
  split
  · exact .stop (.same fun _ => rfl)
  · cases level with
    | zero => exact .stop (.unopened rfl (List.cons_ne_nil _ _))
    | succ level => exact .stop (.same fun h => absurd h (Nat.succ_ne_zero level))
  · exact .next _ _ _
  · cases openGroup _ with
    | error e => exact .stop (.refused _ _)
    | ok x =>
      obtain ⟨opening, inner⟩ := x
      cases opening with
      | flags => exact .next _ _ _
      | plain => exact .group _ _
      | capture => exact .group _ _
  · cases readItem s.flags items _ _ with
    | error e => exact .stop (.refused _ _)
    | ok x => exact .next _ _ _

/-- One group deeper a text reads the same, up to a parenthesis that closes the group. -/
theorem readAlternatives_deeper (s : Cursor) :
    Deeper level (readAlternatives fuel level branches items s)
      (readAlternatives fuel (level + 1) branches items s) := by
  induction fuel generalizing level branches items s with
  | zero => exact .refused _ _
  | succ fuel ih =>
    have hstep := readStep_deeper level branches items s
    rw [readAlternatives_succ, readAlternatives_succ]
    generalize readStep level branches items s = x, readStep (level + 1) branches items s = y
      at hstep ⊢
    cases hstep with
    | stop hr => exact hr
    | next branches items s => exact ih level branches items s
    | group opening inner =>
      by_cases hnest : nestLimit ≤ level + 1
      · simp only [if_pos hnest]
        exact .refused _ _
      · have hnest' : ¬nestLimit ≤ level := by omega
        simp only [if_neg hnest, if_neg hnest']
        have hsub := ih (level + 1) [] [] inner
        generalize readAlternatives fuel (level + 1) [] [] inner = x,
          readAlternatives fuel (level + 1 + 1) [] [] inner = y at hsub ⊢
        cases hsub with
        | refused x e => exact .refused _ _
        | unopened hzero hx => exact absurd hzero (Nat.succ_ne_zero level)
        | @same x hx =>
          cases hclosed : closeGroup s.flags opening items x with
          | error e =>
            simp only [bind, Except.bind, hclosed]
            exact .refused _ _
          | ok z =>
            simp only [bind, Except.bind, hclosed]
            exact ih level _ _ _

private theorem readStep_shorter (s : Cursor) :
    match readStep level branches items s with
    | .stop _ => True
    | .next _ _ t => t.rest.length < s.rest.length
    | .group _ t => t.rest.length < s.rest.length := by
  have hdeeper := readStep_deeper level branches items s
  have hbehind : CursorKept s.rest s { s with rest := s.rest ++ closing } :=
    ⟨rfl, .shown s.rest, List.suffix_rfl⟩
  have hextended := readStep_extended level branches items hbehind
  generalize readStep level branches items s = x, readStep (level + 1) branches items s = y,
    readStep (level + 1) branches items { s with rest := s.rest ++ closing } = z
    at hdeeper hextended ⊢
  cases hdeeper with
  | stop => trivial
  | next => cases hextended; assumption
  | group => cases hextended; assumption

theorem readAlternatives_fuel (more : Nat) (h : s.rest.length < fuel) :
    readAlternatives (fuel + more) level branches items s =
      readAlternatives fuel level branches items s := by
  induction fuel generalizing level branches items s with
  | zero => omega
  | succ fuel ih =>
    have hshorter := readStep_shorter level branches items s
    rw [Nat.add_right_comm, readAlternatives_succ, readAlternatives_succ]
    generalize readStep level branches items s = x at hshorter ⊢
    cases x with
    | stop r => rfl
    | next branches items t => exact ih level branches items (by omega)
    | group opening inner =>
      dsimp only
      rw [ih (level + 1) [] [] (by omega)]
      split
      · rfl
      · have hbehind : CursorKept inner.rest inner { inner with rest := inner.rest ++ closing } :=
          ⟨rfl, .shown inner.rest, List.suffix_rfl⟩
        have hclosed := (readAlternatives_extended fuel level [] [] hbehind (by omega)).bind
          (fun _ _ hab => closeGroup_extended items s.flags opening hab) fun e x hx => by
            rw [closeGroup_of_end items s.flags opening hx]
            exact .failed e _
        cases hz : readAlternatives fuel (level + 1) [] [] inner >>=
          closeGroup s.flags opening items with
        | error e => rfl
        | ok z =>
          obtain ⟨_, -, hkept⟩ := hclosed.kept_of_ok hz
          have hlength := hkept.within.length_le
          exact ih level branches _ (by omega)

end Behind

end Docket.Pattern
