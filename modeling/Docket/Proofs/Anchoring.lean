import Docket.Proofs.Enclosing
import Docket.Store.Clause

/-!
Patterns between anchors. A clause puts its pattern between anchors as text, and in a group, so that
the alternatives stay together. For a pattern that can be used on its own this does what it should,
as long as the anchors fit around it: what then occurs in a text are the patterns that match all of
it. A pattern with a parenthesis too many cannot be used on its own, but may close the group early
and pass.
-/

set_option autoImplicit false
set_option relaxedAutoImplicit false

namespace Docket.Pattern

def readAt (level : Nat) (cs : List Char) : Except Cause (Node × Cursor) :=
  readAlternatives (cs.length + 1) level [] [] ⟨{}, [], 0, cs⟩

private theorem read_eq (text : String) :
    read text = (readAt 0 text.toList).map fun x => (x.1, x.2.groups) := rfl

/-- Whether a pattern ends in a comment, which also hides what is put behind it: a parenthesis there
would close no group. -/
def endsInComment (text : String) : Bool := (readAt 0 (text.toList ++ closing)).isOk

private theorem toList_anchored (text : String) :
    (anchored text).toList = '^' :: '(' :: '?' :: ':' :: (text.toList ++ closing) := by
  simp [anchored, closing]

private theorem readAt_anchored (cs : List Char) :
    readAt 0 ('^' :: '(' :: '?' :: ':' :: (cs ++ closing)) =
      (readAt 1 (cs ++ closing) >>= closeGroup {} .plain [.look .start]) >>= fun x =>
        readAlternatives (cs.length + 5) 0 [] x.1 x.2 := by
  have hlength : ('^' :: '(' :: '?' :: ':' :: (cs ++ closing)).length + 1 =
      cs.length + 5 + 1 + 1 := by
    simp [closing]
  have hstart : readStep 0 [] [] ⟨{}, [], 0, '^' :: '(' :: '?' :: ':' :: (cs ++ closing)⟩ =
      .next [] [.look .start] ⟨{}, [], 0, '(' :: '?' :: ':' :: (cs ++ closing)⟩ := rfl
  have hgroup : readStep 0 [] [.look .start] ⟨{}, [], 0, '(' :: '?' :: ':' :: (cs ++ closing)⟩ =
      .group .plain ⟨{}, [], 0, cs ++ closing⟩ := rfl
  have hfuel : readAlternatives (cs.length + 5) 1 [] [] ⟨{}, [], 0, cs ++ closing⟩ =
      readAt 1 (cs ++ closing) := by
    have hlength : cs.length + 5 = (cs ++ closing).length + 1 + 2 := by simp [closing]
    rw [hlength]
    exact readAlternatives_fuel _ 1 [] [] 2 (Nat.lt_succ_self _)
  rw [readAt, hlength, readAlternatives_succ, hstart]
  dsimp only
  rw [readAlternatives_succ, hgroup]
  dsimp only
  rw [if_neg (by decide), hfuel]

def Lost (cs : List Char) : Prop := ∀ x, readAt 1 (cs ++ closing) = .ok x → x.2.rest = []

private theorem readAt_extended (cs : List Char) :
    Extended (ReadKept cs) ReadAstray (readAt 1 cs) (readAt 1 (cs ++ closing)) := by
  have hfuel : readAlternatives (cs.length + 1 + 2) 1 [] [] ⟨{}, [], 0, cs⟩ = readAt 1 cs :=
    readAlternatives_fuel _ 1 [] [] 2 (Nat.lt_succ_self _)
  have hlength : (cs ++ closing).length + 1 = cs.length + 1 + 2 := by simp [closing]
  rw [← hfuel, readAt, hlength]
  exact readAlternatives_extended _ 0 [] [] ⟨rfl, .shown cs, List.suffix_rfl⟩
    (show cs.length < cs.length + 1 + 2 by omega)

private theorem readAt_deeper (cs : List Char) : Deeper 0 (readAt 0 cs) (readAt 1 cs) :=
  readAlternatives_deeper _ 0 [] [] _

private theorem lost_of_refused {cs : List Char} {e : Cause} (h : readAt 1 cs = .error e) :
    Lost cs := by
  have hextended := readAt_extended cs
  intro x hx
  rw [h, hx] at hextended
  cases hextended with
  | astray e hx => exact hx

private theorem lost_of_error {cs : List Char} {e : Cause} (h : readAt 0 cs = .error e)
    (hopen : e ≠ .unopenedGroup) : Lost cs := by
  have hdeeper := readAt_deeper cs
  rw [h] at hdeeper
  generalize hy : readAt 1 cs = y at hdeeper
  cases hdeeper with
  | refused x e => exact lost_of_refused hy
  | unopened hlevel hx => exact absurd rfl hopen

/-- A pattern that can be read leaves the parenthesis behind it, unless its groups nest too deep for
one more around them or it ends in a comment. -/
theorem readAt_between {cs : List Char} {x : Node × Cursor} (h : readAt 0 cs = .ok x) :
    if (readAt 1 cs).isOk && !(readAt 0 (cs ++ closing)).isOk then
      readAt 1 (cs ++ closing) = .ok (x.1, { x.2 with rest := closing })
    else Lost cs := by
  have hdeeper := readAt_deeper cs
  rw [h] at hdeeper
  generalize hy : readAt 1 cs = y at hdeeper
  cases hdeeper with
  | refused x e => exact lost_of_refused hy
  | same hend =>
    have hextended := readAt_extended cs
    have hbehind := readAt_deeper (cs ++ closing)
    rw [hy] at hextended
    generalize hz : readAt 1 (cs ++ closing) = z at hextended hbehind
    generalize readAt 0 (cs ++ closing) = w at hbehind
    cases hextended with
    | @read _ b hxb =>
      obtain ⟨hsame, hcursor, hleft, -⟩ := hxb
      cases hbehind with
      | same hlost =>
        intro x' hx'
        rw [hz] at hx'
        obtain rfl := Except.ok.inj hx'
        exact hlost rfl
      | unopened hlevel hshown =>
        rw [hend rfl] at hleft
        have hrest : b.2.rest = closing := by
          generalize b.2.rest = left' at hleft hshown ⊢
          cases hleft with
          | shown => rfl
          | hidden => exact absurd rfl hshown
        rw [hrest] at hcursor
        have hb : b = (x.1, { x.2 with rest := closing }) := Prod.ext hsame hcursor
        exact congrArg Except.ok hb

private theorem read_anchored_of_closed {text : String} {e : Node} {t : Cursor}
    (h : readAt 1 (text.toList ++ closing) = .ok (e, { t with rest := closing })) :
    read (anchored text) = .ok (.sequence [.look .start, e, .look .finish], t.groups) := by
  rw [read_eq, toList_anchored, readAt_anchored, h]
  rfl

private theorem read_anchored_of_lost {text : String} (h : Lost text.toList) :
    ∃ cause, read (anchored text) = .error cause := by
  rw [read_eq, toList_anchored, readAt_anchored]
  cases hread : readAt 1 (text.toList ++ closing) with
  | error e => exact ⟨e, rfl⟩
  | ok x =>
    have hunclosed := closeGroup_of_end [.look .start] {} .plain (h x hread)
    refine ⟨.unclosedGroup, ?_⟩
    simp only [bind, Except.bind, hunclosed, Except.map]

/-- Whether the anchors and their group fit around a pattern that can be read. They do not if the
pattern ends in a comment, which would hide them, and not if its groups or its expression nest as
deep as is allowed or it leaves no memory for two more states. -/
def leavesRoom (text : String) : Bool :=
  match read text with
  | .error _ => false
  | .ok (e, groups) =>
    (readAt 1 text.toList).isOk && !endsInComment text && decide (e.depth < nestLimit) &&
      decide (wholeBytes e groups + 2 * stateBytes ≤ sizeLimit)

private theorem depth_between (e : Node) :
    (Node.sequence [.look .start, e, .look .finish]).depth = e.depth + 1 := by
  simp [Node.depth, Node.depthAll]

private theorem wholeBytes_between (e : Node) (groups : Nat) :
    wholeBytes (.sequence [.look .start, e, .look .finish]) groups =
      wholeBytes e groups + 2 * stateBytes := by
  simp only [wholeBytes, Node.bytes, bytesAll]
  omega

private theorem compile_anchored {text : String} {p : Pattern} (h : compile text = .ok p)
    (hroom : leavesRoom text = true) :
    compile (anchored text) = .ok ⟨.sequence [.look .start, p.expression, .look .finish]⟩ := by
  rw [leavesRoom, endsInComment, read_eq] at hroom
  rw [compile, read_eq] at h
  cases hread : readAt 0 text.toList with
  | error e => simp [hread, Except.map] at hroom
  | ok x =>
    have hbetween := readAt_between hread
    obtain ⟨e, t⟩ := x
    simp only [hread, Except.map, Bool.and_eq_true, decide_eq_true_eq] at hroom h
    obtain ⟨⟨⟨hnest, hcomment⟩, hdepth⟩, hsize⟩ := hroom
    rw [if_pos (by simp [hnest, hcomment])] at hbetween
    rw [if_neg (by omega), if_neg (by omega)] at h
    obtain rfl := Except.ok.inj h
    rw [compile, read_anchored_of_closed hbetween]
    simp only [depth_between, wholeBytes_between]
    rw [if_neg (by omega), if_neg (by omega)]

/-- A pattern that cannot be used, or leaves no room, cannot be used between the anchors either. A
parenthesis too many is the exception: it may close the group of the anchors. -/
theorem compile_anchored_refused {text : String}
    (h : ∀ p, compile text = .ok p → leavesRoom text = false)
    (hopen : compile text ≠ .error .unopenedGroup) :
    ∃ cause, compile (anchored text) = .error cause := by
  have hlost : Lost text.toList → ∃ cause, compile (anchored text) = .error cause := by
    intro hlost
    obtain ⟨cause, hcause⟩ := read_anchored_of_lost hlost
    exact ⟨cause, by rw [compile, hcause]⟩
  rw [compile, read_eq] at hopen
  cases hread : readAt 0 text.toList with
  | error e =>
    rw [hread] at hopen
    exact hlost (lost_of_error hread fun he => hopen (by rw [he]; rfl))
  | ok x =>
    have hbetween := readAt_between hread
    split at hbetween
    case isFalse => exact hlost hbetween
    case isTrue hfits =>
      obtain ⟨e, t⟩ := x
      rw [compile, read_anchored_of_closed hbetween]
      simp only [depth_between, wholeBytes_between]
      by_cases hdepth : nestLimit < e.depth + 1
      · exact ⟨.tooDeep, if_pos hdepth⟩
      by_cases hsize : sizeLimit < wholeBytes e t.groups + 2 * stateBytes
      · exact ⟨.tooLarge, by rw [if_neg hdepth, if_pos hsize]⟩
      have hcompile : compile text = .ok ⟨e⟩ := by
        rw [compile, read_eq, hread]
        simp only [Except.map]
        rw [if_neg (by omega), if_neg (by omega)]
      have hnoroom := h _ hcompile
      rw [leavesRoom, read_eq, hread] at hnoroom
      have hroom : (e.depth < nestLimit) ∧ wholeBytes e t.groups + 2 * stateBytes ≤ sizeLimit := by
        omega
      simp [Except.map, endsInComment, hfits, hroom] at hnoroom

section Matching

private theorem times_length {step : Places → Places} {n : Nat}
    (hstep : ∀ a : Places, a.length = n → (step a).length = n) (count : Nat) (starts : Places)
    (h : starts.length = n) : (times step count starts).length = n := by
  induction count generalizing starts with
  | zero => exact h
  | succ count ih =>
    rw [times]
    split
    · exact ih _ (hstep _ h)
    · exact h

private theorem union_length {a b : Places} {n : Nat} (ha : a.length = n) (hb : b.length = n) :
    (a.union b).length = n := by
  simp [Places.union, ha, hb]

private theorem upTo_length {step : Places → Places} {n : Nat}
    (hstep : ∀ a : Places, a.length = n → (step a).length = n) (count : Nat) (starts : Places)
    (h : starts.length = n) : (upTo step count starts).length = n := by
  induction count generalizing starts with
  | zero => exact h
  | succ count ih =>
    rw [upTo]
    split
    · exact union_length h (ih _ (hstep _ h))
    · exact h

private theorem saturate_length {step : Places → Places} {n : Nat}
    (hstep : ∀ a : Places, a.length = n → (step a).length = n) (count : Nat) (reached : Places)
    (h : reached.length = n) : (saturate step count reached).length = n := by
  induction count generalizing reached with
  | zero => exact h
  | succ count ih =>
    have hnext := union_length h (hstep _ h)
    simp only [saturate]
    split
    · exact h
    · exact ih _ hnext

mutual

private theorem reach_length {s : Subject} (hs : s.around.length = s.text.length + 1) (e : Node)
    {starts : Places} (h : starts.length = s.text.length + 1) :
    (e.reach s starts).length = s.text.length + 1 := by
  have hover : ∀ ok : Char → Bool, (stepOver ok s.text starts).length = s.text.length + 1 := by
    intro ok
    simp [stepOver, h]
  match e with
  | .empty => rw [Node.reach]; exact h
  | .char c => rw [Node.reach]; exact hover _
  | .one k => rw [Node.reach]; exact hover _
  | .look l => rw [Node.reach]; simp [Places.inter, h, hs]
  | .repeated least none sub =>
    have hsub : ∀ a : Places, a.length = s.text.length + 1 →
        (sub.reach s a).length = s.text.length + 1 := fun a ha => reach_length hs sub ha
    rw [Node.reach]
    exact saturate_length hsub _ _ (times_length hsub least starts h)
  | .repeated least (some most) sub =>
    have hsub : ∀ a : Places, a.length = s.text.length + 1 →
        (sub.reach s a).length = s.text.length + 1 := fun a ha => reach_length hs sub ha
    rw [Node.reach]
    exact upTo_length hsub _ _ (times_length hsub least starts h)
  | .group sub => rw [Node.reach]; exact reach_length hs sub h
  | .sequence subs => rw [Node.reach]; exact reachThrough_length hs subs h
  | .choice subs => rw [Node.reach]; exact reachAny_length hs subs h

private theorem reachThrough_length {s : Subject} (hs : s.around.length = s.text.length + 1)
    (subs : List Node) {starts : Places} (h : starts.length = s.text.length + 1) :
    (reachThrough s subs starts).length = s.text.length + 1 := by
  match subs with
  | [] => rw [reachThrough]; exact h
  | sub :: rest => rw [reachThrough]; exact reachThrough_length hs rest (reach_length hs sub h)

private theorem reachAny_length {s : Subject} (hs : s.around.length = s.text.length + 1)
    (subs : List Node) {starts : Places} (h : starts.length = s.text.length + 1) :
    (reachAny s subs starts).length = s.text.length + 1 := by
  match subs with
  | [] => rw [reachAny]; simpa using h
  | sub :: rest =>
    rw [reachAny]
    exact union_length (reach_length hs sub h) (reachAny_length hs rest h)

end

private theorem neighbours_length (before : Option Char) (cs : List Char) :
    (neighbours before cs).length = cs.length + 1 := by
  induction cs generalizing before with
  | nil => rfl
  | cons c cs ih => rw [neighbours, List.length_cons, ih, List.length_cons]

private theorem neighbours_before (before : Option Char) (cs : List Char) :
    (neighbours before cs).map (fun p => p.1.isNone) =
      before.isNone :: cs.map fun _ => false := by
  induction cs generalizing before with
  | nil => rfl
  | cons c cs ih => rw [neighbours, List.map_cons, ih]; rfl

private theorem neighbours_behind (before : Option Char) (cs : List Char) :
    (neighbours before cs).map (fun p => p.2.isNone) = (cs.map fun _ => false) ++ [true] := by
  induction cs generalizing before with
  | nil => rfl
  | cons c cs ih => rw [neighbours, List.map_cons, ih]; rfl

private theorem inter_all {α : Type} (l : List α) (f : α → Bool) :
    Places.inter (l.map fun _ => true) (l.map f) = l.map f := by
  induction l with
  | nil => rfl
  | cons a l ih => exact congrArg (f a :: ·) ih

private theorem any_inter_last {cs : List Char} {places : Places}
    (h : places.length = cs.length + 1) :
    (Places.inter places ((cs.map fun _ => false) ++ [true])).any =
      places.getLastD false := by
  induction cs generalizing places with
  | nil =>
    obtain ⟨here, rfl⟩ := List.length_eq_one_iff.mp h
    simp [Places.inter, Places.any]
  | cons c cs ih =>
    match places with
    | here :: next :: rest =>
      have hrest : (next :: rest).length = cs.length + 1 := Nat.succ.inj h
      have hlast := ih hrest
      simp only [Places.inter, Places.any, List.map_cons, List.cons_append, List.zipWith_cons_cons,
        List.any_cons, Bool.and_false, id] at hlast ⊢
      simpa using hlast

end Matching

end Docket.Pattern

namespace Docket

open Pattern

/-- Whether a pattern matches a whole text: a match that starts before the first character can end
behind the last. -/
def Pattern.matchesWhole (p : Pattern) (text : String) : Bool :=
  (p.expression.reach (.ofText text) (true :: text.toList.map fun _ => false)).getLastD false

private theorem Pattern.occursIn_between (p : Pattern) (text : String) :
    Pattern.occursIn ⟨.sequence [.look .start, p.expression, .look .finish]⟩ text =
      p.matchesWhole text := by
  have hlength : (Subject.ofText text).around.length = (Subject.ofText text).text.length + 1 :=
    neighbours_length none text.toList
  have hstart : (neighbours none text.toList).map (fun p => Look.start.holds p.1 p.2) =
      true :: text.toList.map fun _ => false := neighbours_before none text.toList
  have hfinish : (neighbours none text.toList).map (fun p => Look.finish.holds p.1 p.2) =
      (text.toList.map fun _ => false) ++ [true] := neighbours_behind none text.toList
  simp only [Pattern.occursIn, Node.occursIn, Node.reach, reachThrough]
  rw [inter_all]
  simp only [Subject.ofText] at hlength ⊢
  rw [hstart, hfinish, any_inter_last (reach_length hlength _ (by simp))]
  rfl

namespace Clause

variable {clause : Json} {field pattern : String}

private theorem holds_regexp (h : ofJson? clause = some (.regexp field pattern)) {p : Pattern}
    (hp : compile (anchored pattern) = .ok p) (d : StoredDocument) :
    holds clause d =
      .ok ((d.field? field).any fun v => v.asList.any fun item => item.string?.any p.occursIn) := by
  simp only [holds, h, accepts, test, hp]
  rfl

private theorem holds_regexp_refused (h : ofJson? clause = some (.regexp field pattern))
    {cause : Cause} (hcause : compile (anchored pattern) = .error cause) (d : StoredDocument) :
    holds clause d =
      .error (.status 400 ("invalid regexp '" ++ pattern ++ "': " ++ cause.message)) := by
  simp only [holds, h, accepts, test, hcause]
  rfl

/-- A pattern that can be used on its own and leaves room for the anchors accepts the strings that
it matches as a whole. One that cannot be used, or leaves no room, is refused on every document,
unless what is wrong with it is a parenthesis too many. -/
theorem regexp_matches_whole (h : ofJson? clause = some (.regexp field pattern)) :
    (∀ p, compile pattern = .ok p → leavesRoom pattern = true → ∀ d, holds clause d =
        .ok ((d.field? field).any fun v =>
          v.asList.any fun item => item.string?.any p.matchesWhole)) ∧
      ((∀ p, compile pattern = .ok p → leavesRoom pattern = false) →
        compile pattern ≠ .error .unopenedGroup →
        ∃ cause : Cause, ∀ d, holds clause d =
          .error (.status 400 ("invalid regexp '" ++ pattern ++ "': " ++ cause.message))) := by
  constructor
  · intro p hp hroom d
    rw [holds_regexp h (compile_anchored hp hroom) d]
    simp only [funext (Pattern.occursIn_between p)]
  · intro hnone hopen
    obtain ⟨cause, hcause⟩ := compile_anchored_refused hnone hopen
    exact ⟨cause, holds_regexp_refused h hcause⟩

def nameClause (pattern : String) : Json :=
  .object [("regexp", .object [("name", .string pattern)])]

private theorem ofJson?_nameClause (pattern : String) :
    ofJson? (nameClause pattern) = some (.regexp "name" pattern) := rfl

def hostPattern : Pattern := ⟨.sequence [.char 'h', .one ⟨[(49, 52)]⟩]⟩

theorem regexp_matches_whole_hosts :
    (∀ d, holds (nameClause "h[1-4]") d =
      .ok ((d.field? "name").any fun v =>
        v.asList.any fun item => item.string?.any hostPattern.matchesWhole)) ∧
    hostPattern.matchesWhole "h2" = true ∧ hostPattern.matchesWhole "h21" = false ∧
    ∃ cause : Cause, ∀ d, holds (nameClause "h[1") d =
      .error (.status 400 ("invalid regexp '" ++ "h[1" ++ "': " ++ cause.message)) := by
  have hunclosed : compile "h[1" = .error .unclosedClass := rfl
  have hhosts := regexp_matches_whole (ofJson?_nameClause "h[1-4]")
  have hrefused := regexp_matches_whole (ofJson?_nameClause "h[1")
  refine ⟨hhosts.1 hostPattern rfl (by decide +kernel), by decide +kernel, by decide +kernel,
    hrefused.2 ?_ ?_⟩
  · intro p hp
    rw [hunclosed] at hp
    cases hp
  · rw [hunclosed]
    simp

example : (compile "(?x)a#").isOk = true ∧ leavesRoom "(?x)a#" = false := by decide +kernel

/-- A parenthesis too many passes if it closes the group of the anchors and another one is opened
for theirs: a value is accepted that no pattern matches. -/
theorem parenthesis_escapes_anchors :
    ¬ ∀ (pattern : String) (d : StoredDocument) (value : String),
      d.field? "name" = some (.string value) →
      (holds (nameClause pattern) d = .ok true ↔
        ∃ p, compile pattern = .ok p ∧ p.matchesWhole value = true) := by
  intro hclaim
  have hrefused : compile "a)|(?:b" = .error .unopenedGroup := rfl
  have haccepted : holds (nameClause "a)|(?:b") ⟨"1", "host", [("name", .string "ax")]⟩ =
      .ok true := rfl
  obtain ⟨p, hp, -⟩ := (hclaim _ _ "ax" rfl).mp haccepted
  rw [hrefused] at hp
  cases hp

end Clause

end Docket
