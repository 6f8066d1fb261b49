import Docket.Pattern
import Mathlib.Data.List.Basic

/-!
Patterns with text behind them. The anchors put a closing parenthesis and a sign behind a pattern.
Whatever reads a part of the pattern reads the same with them there, and leaves them behind what it
leaves. There are two exceptions: a comment at the end of the pattern hides them, and a part that
the end of the pattern cuts short may go on into them. Here are the relations between the two
readings, and the readings of blanks and escapes.
-/

set_option autoImplicit false
set_option relaxedAutoImplicit false

namespace Docket.Pattern

def closing : List Char := [')', '$']

/-- What is left of a text, and what is left if `closing` stands behind it: the same with `closing`
behind it, unless both have come to their end in a comment. -/
inductive Trails : List Char → List Char → Prop
  | shown (left : List Char) : Trails left (left ++ closing)
  | hidden : Trails [] []

structure Kept {α : Type} (cs : List Char) (x y : α × List Char) : Prop where
  same : y.1 = x.1
  left : Trails x.2 y.2
  within : x.2 <:+ cs

/-- What comes of a text and of the text with `closing` behind it. What cannot be read because the
text ends can go on into `closing`, and is astray then. -/
inductive Extended {α : Type} (kept : α → α → Prop) (astray : α → Prop) :
    Except Cause α → Except Cause α → Prop
  | read {x y : α} : kept x y → Extended kept astray (.ok x) (.ok y)
  | failed (e e' : Cause) : Extended kept astray (.error e) (.error e')
  | astray (e : Cause) {y : α} : astray y → Extended kept astray (.error e) (.ok y)

def Nothing {α : Type} (_ : α) : Prop := False

variable {α β : Type}

theorem Kept.mono {cs cs' : List Char} {x y : α × List Char} (h : Kept cs x y) (hcs : cs <:+ cs') :
    Kept cs' x y :=
  ⟨h.same, h.left, h.within.trans hcs⟩

namespace Extended

theorem map {kept : α → α → Prop} {kept' : β → β → Prop} {astray : α → Prop}
    {astray' : β → Prop} {x y : Except Cause α} (h : Extended kept astray x y) (g : α → β)
    (hkept : ∀ a b, kept a b → kept' (g a) (g b)) (hastray : ∀ a, astray a → astray' (g a)) :
    Extended kept' astray' (x.map g) (y.map g) := by
  cases h with
  | read hxy => exact .read (hkept _ _ hxy)
  | failed e e' => exact .failed e e'
  | astray e hy => exact .astray e (hastray _ hy)

theorem of_map {kept : β → β → Prop} {astray : β → Prop} (x : Except Cause α)
    {g g' : α → β} (h : ∀ a, kept (g a) (g' a)) : Extended kept astray (x.map g) (x.map g') := by
  cases x with
  | error e => exact .failed e e
  | ok a => exact .read (h a)

theorem bind {kept : α → α → Prop} {kept' : β → β → Prop} {astray : α → Prop}
    {astray' : β → Prop} {x y : Except Cause α} {g g' : α → Except Cause β}
    (h : Extended kept astray x y)
    (hkept : ∀ a b, kept a b → Extended kept' astray' (g a) (g' b))
    (hastray : ∀ e b, astray b → Extended kept' astray' (.error e) (g' b)) :
    Extended kept' astray' (x >>= g) (y >>= g') := by
  cases h with
  | read hxy => exact hkept _ _ hxy
  | failed e e' => exact .failed e e'
  | astray e hy => exact hastray e _ hy

theorem imp {kept kept' : α → α → Prop} {astray astray' : α → Prop}
    {x y : Except Cause α} (h : Extended kept astray x y) (hkept : ∀ a b, kept a b → kept' a b)
    (hastray : ∀ a, astray a → astray' a) : Extended kept' astray' x y := by
  cases h with
  | read hxy => exact .read (hkept _ _ hxy)
  | failed e e' => exact .failed e e'
  | astray e hy => exact .astray e (hastray _ hy)

theorem mono {cs cs' : List Char} {astray : α × List Char → Prop}
    {x y : Except Cause (α × List Char)} (h : Extended (Kept cs) astray x y) (hcs : cs <:+ cs') :
    Extended (Kept cs') astray x y :=
  h.imp (fun _ _ hab => hab.mono hcs) fun _ ha => ha

theorem kept_of_ok {kept : α → α → Prop} {astray : α → Prop} {a : α} {x y : Except Cause α}
    (h : Extended kept astray x y) (hx : x = .ok a) : ∃ b, kept a b := by
  cases h with
  | read hxy =>
    obtain rfl := Except.ok.inj hx
    exact ⟨_, hxy⟩
  | failed e e' => cases hx
  | astray e hy => cases hx

end Extended

namespace Trails

variable {left left' : List Char}

theorem view (h : Trails left left') :
    (left = [] ∧ (left' = [] ∨ left' = closing)) ∨
      ∃ c rest, left = c :: rest ∧ left' = c :: (rest ++ closing) := by
  cases h with
  | hidden => exact .inl ⟨rfl, .inl rfl⟩
  | shown left =>
    cases left with
    | nil => exact .inl ⟨rfl, .inr rfl⟩
    | cons c rest => exact .inr ⟨c, rest, rfl, rfl⟩

theorem length_le (h : Trails left left') : left.length ≤ left'.length := by
  cases h <;> simp

theorem dropWhile (h : Trails left left') {p : Char → Bool} (hp : p ')' = false) :
    Trails (left.dropWhile p) (left'.dropWhile p) := by
  cases h with
  | hidden => exact .hidden
  | shown left =>
    induction left with
    | nil => simpa [closing, List.dropWhile, hp] using shown []
    | cons c rest ih =>
      rw [List.cons_append, List.dropWhile_cons, List.dropWhile_cons]
      split
      · exact ih
      · exact .shown (c :: rest)

end Trails

theorem Kept.view {cs : List Char} {x y : α × List Char} (h : Kept cs x y) :
    ∃ a, (x = (a, []) ∧ (y = (a, []) ∨ y = (a, closing))) ∨
      ∃ c rest, x = (a, c :: rest) ∧ y = (a, c :: (rest ++ closing)) ∧ c :: rest <:+ cs := by
  obtain ⟨a, left⟩ := x
  obtain ⟨b, left'⟩ := y
  obtain ⟨hsame, hleft, hin⟩ := h
  obtain rfl : b = a := hsame
  refine ⟨b, ?_⟩
  obtain ⟨rfl, rfl | rfl⟩ | ⟨c, rest, rfl, rfl⟩ := hleft.view
  · exact .inl ⟨rfl, .inl rfl⟩
  · exact .inl ⟨rfl, .inr rfl⟩
  · exact .inr ⟨c, rest, rfl, rfl, hin⟩

section Blanks

variable (verbose : Bool) (keep : Char → Bool) {cs cs' : List Char}

private theorem takeVisible_limit {limit limit' : Nat} (comment : Bool) (h : cs.length ≤ limit)
    (h' : cs.length ≤ limit') :
    takeVisible verbose keep limit comment cs = takeVisible verbose keep limit' comment cs := by
  induction cs generalizing limit limit' comment with
  | nil => rfl
  | cons c cs ih =>
    rw [List.length_cons] at h h'
    have hpos : 0 < limit := by omega
    have hpos' : 0 < limit' := by omega
    have hskip : ∀ comment, takeVisible verbose keep limit comment cs =
        takeVisible verbose keep limit' comment cs := fun comment =>
      ih comment (by omega) (by omega)
    have htake : takeVisible verbose keep (limit - 1) false cs =
        takeVisible verbose keep (limit' - 1) false cs := ih false (by omega) (by omega)
    simp only [takeVisible, hskip, htake, hpos, hpos']

private theorem takeVisible_kept (hkeep : keep ')' = false) (limit : Nat) (comment : Bool)
    (h : Trails cs cs') :
    Kept cs (takeVisible verbose keep limit comment cs)
      (takeVisible verbose keep limit comment cs') := by
  have hspace : Unicode.isWhiteSpace ')' = false := by decide
  cases h with
  | hidden => exact ⟨rfl, .hidden, List.suffix_rfl⟩
  | shown cs =>
    -- Only at the end of `cs` does it matter whether a comment is open: it hides what follows.
    fun_induction takeVisible verbose keep limit comment cs with
    | case1 limit comment =>
      cases comment with
      | true => exact ⟨rfl, .hidden, List.suffix_rfl⟩
      | false =>
        have hstops : takeVisible verbose keep limit false closing = ([], closing) := by
          simp [closing, takeVisible, hkeep, hspace]
        rw [List.nil_append, hstops]
        exact ⟨rfl, .shown [], List.suffix_rfl⟩
    | case2 limit c rest ih =>
      rw [List.cons_append, takeVisible, if_pos rfl]
      exact ih.mono (List.suffix_cons c rest)
    | case3 limit comment c rest hcomment hblank ih =>
      rw [List.cons_append, takeVisible, if_neg hcomment, if_pos hblank]
      exact ih.mono (List.suffix_cons c rest)
    | case4 limit comment c rest hcomment hblank hsign ih =>
      rw [List.cons_append, takeVisible, if_neg hcomment, if_neg hblank, if_pos hsign]
      exact ih.mono (List.suffix_cons c rest)
    | case5 limit comment c rest hcomment hblank hsign hkept taken left htake ih =>
      rw [List.cons_append, takeVisible, if_neg hcomment, if_neg hblank, if_neg hsign,
        if_pos hkept]
      rw [htake] at ih
      exact ⟨congrArg (c :: ·) ih.same, ih.left, ih.within.trans (List.suffix_cons c rest)⟩
    | case6 limit comment c rest hcomment hblank hsign hkept =>
      rw [List.cons_append, takeVisible, if_neg hcomment, if_neg hblank, if_neg hsign,
        if_neg hkept]
      exact ⟨rfl, .shown (c :: rest), List.suffix_rfl⟩

theorem Trails.skipBlanks (h : Trails cs cs') :
    Trails (skipBlanks verbose cs) (skipBlanks verbose cs') :=
  (takeVisible_kept verbose (fun _ => false) rfl 0 false h).left

theorem skipBlanks_suffix (cs : List Char) : skipBlanks verbose cs <:+ cs :=
  (takeVisible_kept verbose (fun _ => false) rfl 0 false (.shown cs)).within

theorem takeWhileVisible_kept (hkeep : keep ')' = false) (h : Trails cs cs') :
    Kept cs (takeWhileVisible verbose keep cs) (takeWhileVisible verbose keep cs') := by
  rw [takeWhileVisible, takeWhileVisible,
    takeVisible_limit verbose keep false (Nat.le_refl cs.length) h.length_le]
  exact takeVisible_kept verbose keep hkeep _ false h

private theorem takeVisible_of_nil (limit : Nat) (comment : Bool) (cs : List Char)
    (h : (takeVisible verbose keep limit comment cs).1 = []) :
    (takeVisible verbose (fun _ => false) 0 comment cs).2 =
      (takeVisible verbose keep limit comment cs).2 := by
  fun_induction takeVisible verbose keep limit comment cs with
  | case1 limit comment => rfl
  | case2 limit c rest ih => rw [takeVisible, if_pos rfl, ih h]
  | case3 limit comment c rest hcomment hblank ih =>
    rw [takeVisible, if_neg hcomment, if_pos hblank, ih h]
  | case4 limit comment c rest hcomment hblank hsign ih =>
    rw [takeVisible, if_neg hcomment, if_neg hblank, if_pos hsign, ih h]
  | case5 => simp at h
  | case6 limit comment c rest hcomment hblank hsign hkept =>
    rw [takeVisible, if_neg hcomment, if_neg hblank, if_neg hsign, if_neg (by simp)]

private theorem skipBlanks_of_takeWhileVisible (cs : List Char)
    (h : (takeWhileVisible verbose keep cs).1 = []) :
    skipBlanks verbose cs = (takeWhileVisible verbose keep cs).2 :=
  takeVisible_of_nil verbose keep cs.length false cs h

theorem glance_trails (h : Trails cs cs') :
    glance verbose cs' = glance verbose cs ∨
      glance verbose cs = none ∧ glance verbose cs' = some ')' := by
  have hspace : Unicode.isWhiteSpace ')' = false := by decide
  have hhead : ∀ {r r' : List Char}, Trails r r' →
      r'.head? = r.head? ∨ r.head? = none ∧ r'.head? = some ')' := by
    intro r r' hr
    obtain ⟨rfl, rfl | rfl⟩ | ⟨c, rest, rfl, rfl⟩ := hr.view
    · exact .inl rfl
    · exact .inr ⟨rfl, rfl⟩
    · exact .inl rfl
  cases verbose with
  | false => exact hhead h
  | true =>
    simp only [glance, if_true]
    obtain ⟨hr, hr' | hr'⟩ | ⟨c, rest, hr, hr'⟩ := (h.dropWhile hspace).view
    · simp [hr, hr']
    · simp [hr, hr', closing]
    · rw [hr, hr']
      by_cases hc : c = '#'
      · subst hc
        exact hhead ((Trails.shown rest).dropWhile hspace)
      · simp [hc]

end Blanks

section Escapes

variable (f : Flags) {cs cs' : List Char}

def byDigits (width : Nat) (cs : List Char) : Except Cause (Node × List Char) :=
  match takeVisible f.verbose isHexDigit width false cs with
  | (ds, rest) =>
    if ds.length = width then (codePoint? ds).map fun c => (f.literal c, rest)
    else .error .badCodePoint

private theorem byDigits_extended (width : Nat) (h : Trails cs cs') :
    Extended (Kept cs) Nothing (byDigits f width cs) (byDigits f width cs') := by
  obtain ⟨hsame, hleft, hin⟩ := takeVisible_kept f.verbose isHexDigit (by decide) width false h
  simp only [byDigits, hsame]
  split
  · exact .of_map _ fun c => ⟨rfl, hleft, hin⟩
  · exact .failed _ _

private theorem byNumber_digits (width : Nat) (h : ∀ rest, skipBlanks f.verbose cs ≠ '{' :: rest) :
    byNumber f width cs = byDigits f width (skipBlanks f.verbose cs) := by
  unfold byNumber
  split
  · exact absurd ‹_› (h _)
  · rfl

def byBraces (cs : List Char) : Except Cause (Node × List Char) :=
  match takeWhileVisible f.verbose isHexDigit cs with
  | (ds, '}' :: rest) => (codePoint? ds).map fun c => (f.literal c, skipBlanks f.verbose rest)
  | _ => .error .badCodePoint

private theorem byBraces_extended (h : Trails cs cs') :
    Extended (Kept cs) Nothing (byBraces f cs) (byBraces f cs') := by
  have hkept := takeWhileVisible_kept f.verbose isHexDigit (by decide) h
  unfold byBraces
  obtain ⟨ds, ⟨hx, hy | hy⟩ | ⟨c, s, hx, hy, hin⟩⟩ := hkept.view <;> rw [hx, hy]
  · exact .failed _ _
  · exact .failed _ _
  · by_cases hc : c = '}'
    · subst hc
      have hwithin := (skipBlanks_suffix f.verbose s).trans (List.suffix_cons '}' s)
      exact .of_map _ fun c =>
        ⟨rfl, (Trails.shown s).skipBlanks f.verbose, hwithin.trans hin⟩
    · simpa [hc] using Extended.failed _ _

private theorem byNumber_braces (width : Nat) {rest : List Char}
    (h : skipBlanks f.verbose cs = '{' :: rest) : byNumber f width cs = byBraces f rest := by
  rw [byNumber, h]
  rfl

private theorem byNumber_extended (width : Nat) (h : Trails cs cs') :
    Extended (Kept cs) Nothing (byNumber f width cs) (byNumber f width cs') := by
  have hwithin := skipBlanks_suffix f.verbose cs
  have hskip := h.skipBlanks f.verbose
  by_cases hbrace : ∃ r, skipBlanks f.verbose cs = '{' :: r
  · obtain ⟨r, hr⟩ := hbrace
    rw [hr] at hwithin hskip
    obtain ⟨hnil, -⟩ | ⟨c, s, hcs, hr'⟩ := hskip.view
    · cases hnil
    · obtain ⟨rfl, rfl⟩ := List.cons.inj hcs
      rw [byNumber_braces f width hr, byNumber_braces f width hr']
      exact (byBraces_extended f (.shown r)).mono ((List.suffix_cons _ r).trans hwithin)
  · have hplain : ∀ r, skipBlanks f.verbose cs ≠ '{' :: r := fun r hr => hbrace ⟨r, hr⟩
    have hplain' : ∀ r, skipBlanks f.verbose cs' ≠ '{' :: r := by
      intro r hr
      rw [hr] at hskip
      obtain ⟨-, hnil | hclosing⟩ | ⟨c, s, hcs, hcs'⟩ := hskip.view
      · cases hnil
      · exact absurd (List.cons.inj hclosing).1 (by decide)
      · obtain ⟨rfl, -⟩ := List.cons.inj hcs'
        exact hplain s hcs
    rw [byNumber_digits f width hplain, byNumber_digits f width hplain']
    exact (byDigits_extended f width hskip).mono hwithin

/-- An escape that runs into `closing`: a backslash at the end takes the parenthesis, and a word
boundary can have its name end there before the first letter. -/
inductive EscapeAstray (verbose : Bool) : Node × List Char → Prop
  | sign (item : Node) : EscapeAstray verbose (item, ['$'])
  | boundary {left : List Char} (e : Cause) (h : readCounts verbose left = .error e) :
      EscapeAstray verbose (.look .wordBoundary, '{' :: left)

private theorem readCounts_closing {verbose : Bool} (h : skipBlanks verbose cs = closing) :
    readCounts verbose cs = .error .badRepetition := by
  have hcount : readCount verbose closing = .error .badRepetition := by
    cases verbose <;> decide
  rw [readCounts, h, hcount]
  rfl

private theorem boundary_extended (h : Trails cs cs') :
    Extended (Kept cs) (EscapeAstray f.verbose) (boundary f cs) (boundary f cs') := by
  have hplain : ∀ {r r' : List Char}, Trails r r' → Extended (Kept r) (EscapeAstray f.verbose)
      (.ok (Node.look .wordBoundary, r)) (.ok (Node.look .wordBoundary, r')) :=
    fun hr => .read ⟨rfl, hr, List.suffix_rfl⟩
  obtain ⟨rfl, rfl | rfl⟩ | ⟨c, r, rfl, rfl⟩ := h.view
  · exact hplain .hidden
  · exact hplain (.shown [])
  · by_cases hc : c = '{'
    · subst hc
      simp only [boundary]
      have hkept := takeWhileVisible_kept f.verbose (fun c => c.isAlpha || c == '-') (by decide)
        (.shown r)
      have hnone := skipBlanks_of_takeWhileVisible f.verbose (fun c => c.isAlpha || c == '-')
        (r ++ closing)
      obtain ⟨name, ⟨hx, hy | hy⟩ | ⟨c, s, hx, hy, hin⟩⟩ := hkept.view <;> rw [hx, hy]
      · exact .failed _ _
      · rw [hy] at hnone
        cases name with
        | nil => exact .astray _ (.boundary _ (readCounts_closing (hnone rfl)))
        | cons => exact .failed _ _
      · cases name with
        | nil => exact hplain (.shown _)
        | cons d name =>
          by_cases hc : c = '}'
          · subst hc
            simp only
            split
            · exact .read ⟨rfl, .shown s, (List.suffix_cons _ s).trans
                (hin.trans (List.suffix_cons _ r))⟩
            · exact .failed _ _
          · simpa [hc] using Extended.failed _ _
    · simpa [boundary, hc] using hplain (.shown (c :: r))

private theorem escape_plain {c : Char} (hx : c ≠ 'x') (hu : c ≠ 'u') (hU : c ≠ 'U') (hb : c ≠ 'b')
    (rest : List Char) : escape f (c :: rest) = (escape f [c]).map fun x => (x.1, rest) := by
  rcases eq_or_ne c 'p' with rfl | hp
  · rfl
  rcases eq_or_ne c 'P' with rfl | hP
  · rfl
  simp only [escape]
  split
  · rfl
  · split
    · rfl
    · rfl
    · rfl
    · split <;> rfl

theorem escape_extended (h : Trails cs cs') :
    Extended (Kept cs) (EscapeAstray f.verbose) (escape f cs) (escape f cs') := by
  obtain ⟨rfl, rfl | rfl⟩ | ⟨c, r, rfl, rfl⟩ := h.view
  · exact .failed _ _
  · exact .astray _ (.sign (f.literal ')'))
  · have hnumber : ∀ width, Extended (Kept (c :: r)) (EscapeAstray f.verbose)
        (byNumber f width r) (byNumber f width (r ++ closing)) := fun width =>
      (byNumber_extended f width (.shown r)).imp (fun _ _ h => h.mono (List.suffix_cons c r))
        fun _ hnone => hnone.elim
    rcases eq_or_ne c 'x' with rfl | hx
    · exact hnumber 2
    rcases eq_or_ne c 'u' with rfl | hu
    · exact hnumber 4
    rcases eq_or_ne c 'U' with rfl | hU
    · exact hnumber 8
    rcases eq_or_ne c 'b' with rfl | hb
    · exact (boundary_extended f (.shown r)).mono (List.suffix_cons _ r)
    · rw [escape_plain f hx hu hU hb, escape_plain f hx hu hU hb (r ++ closing)]
      exact .of_map _ fun item => ⟨rfl, .shown r, List.suffix_cons c r⟩

end Escapes

end Docket.Pattern
