import Docket.Pattern.Bracket

/-!
Reading a pattern: alternatives, groups and repetitions. Flags set by a group hold inside it; flags
set on their own hold up to the end of the group they stand in.
-/

set_option autoImplicit false
set_option relaxedAutoImplicit false

namespace Docket.Pattern

/-- Where reading stands: flags in force, group names and groups so far, and the text left. -/
structure Cursor where
  flags : Flags
  names : List String
  groups : Nat
  rest : List Char

def nestLimit : Nat := 50

/-- Sets or clears one flag; the flags for greed and for Unicode change nothing. -/
def Flags.set? (f : Flags) (c : Char) (on : Bool) : Option Flags :=
  match c with
  | 'i' => some { f with ignoreCase := on }
  | 'm' => some { f with multiLine := on }
  | 's' => some { f with dotAll := on }
  | 'R' => some { f with crlf := on }
  | 'x' => some { f with verbose := on }
  | 'U' => some f
  | 'u' => some f
  | _ => none

/-- Flag letters up to a colon or a closing parenthesis, which stays; those behind a dash are
cleared. `seen` holds the letters before. -/
def readFlags (f : Flags) (negated afterDash : Bool) (seen : List Char) :
    List Char → Except Cause (Flags × List Char)
  | [] => .error .badFlags
  | ':' :: rest => if afterDash then .error .badFlags else .ok (f, ':' :: rest)
  | ')' :: rest => if afterDash then .error .badFlags else .ok (f, ')' :: rest)
  | '-' :: rest => if negated then .error .badFlags else readFlags f true true seen rest
  | c :: rest =>
    match f.set? c (!negated) with
    | some f =>
      if seen.contains c then .error .badFlags else readFlags f negated false (c :: seen) rest
    | none => .error .badFlags

inductive Opening where
  | flags
  | plain
  | capture

def isNameStart (c : Char) : Bool := c == '_' || Unicode.isAlphabetic c

def isNameRest (c : Char) : Bool :=
  c == '_' || c == '.' || c == '[' || c == ']' || Unicode.isAlphanumeric c

def readName (s : Cursor) : Except Cause Cursor :=
  match s.rest with
  | c :: rest =>
    if isNameStart c then
      match rest.dropWhile isNameRest with
      | '>' :: after =>
        let name := String.ofList (c :: rest.takeWhile isNameRest)
        if s.names.contains name then .error .repeatedGroupName
        else .ok { s with names := name :: s.names, groups := s.groups + 1, rest := after }
      | _ => .error .badGroupName
    else .error .badGroupName
  | [] => .error .badGroupName

def openGroup (s : Cursor) : Except Cause (Opening × Cursor) :=
  match skipBlanks s.flags.verbose s.rest with
  | '?' :: '=' :: _ => .error .lookAround
  | '?' :: '!' :: _ => .error .lookAround
  | '?' :: '<' :: '=' :: _ => .error .lookAround
  | '?' :: '<' :: '!' :: _ => .error .lookAround
  | '?' :: 'P' :: '<' :: rest => (readName { s with rest := rest }).map fun s => (.capture, s)
  | '?' :: '<' :: rest => (readName { s with rest := rest }).map fun s => (.capture, s)
  | '?' :: ')' :: _ => .error .badFlags
  | '?' :: rest =>
    match readFlags s.flags false false [] rest with
    | .ok (f, ')' :: rest) => .ok (.flags, { s with flags := f, rest := rest })
    | .ok (f, rest) => .ok (.plain, { s with flags := f, rest := rest.drop 1 })
    | .error e => .error e
  | rest => .ok (.capture, { s with groups := s.groups + 1, rest := rest })

def readCount (verbose : Bool) (cs : List Char) : Except Cause (Nat × List Char) :=
  match takeWhileVisible verbose Char.isDigit (cs.dropWhile Unicode.isWhiteSpace) with
  | ([], _) => .error .badRepetition
  | (ds, rest) =>
    let n := ds.foldl (fun n c => n * 10 + (c.toNat - 48)) 0
    if n < 4294967296 then .ok (n, rest.dropWhile Unicode.isWhiteSpace) else .error .badRepetition

def readCounts (verbose : Bool) (cs : List Char) :
    Except Cause ((Nat × Option Nat) × List Char) := do
  let (least, rest) ← readCount verbose (skipBlanks verbose cs)
  match rest with
  | '}' :: rest => pure ((least, some least), rest)
  | ',' :: rest =>
    match skipBlanks verbose rest with
    | '}' :: rest => pure ((least, none), rest)
    | rest =>
      let (most, rest) ← readCount verbose rest
      match rest with
      | '}' :: rest =>
        if least ≤ most then pure ((least, some most), rest) else .error .badRepetition
      | _ => .error .badRepetition
  | _ => .error .badRepetition

def skipLazy : List Char → List Char
  | '?' :: rest => rest
  | cs => cs

def repeatLatest (least : Nat) (most : Option Nat) : List Node → Except Cause (List Node)
  | [] => .error .nothingToRepeat
  | latest :: before => .ok (.ofRepetition least most latest :: before)

def readItem (f : Flags) (items : List Node) (c : Char) (rest : List Char) :
    Except Cause (List Node × List Char) :=
  let add (r : Except Cause (Node × List Char)) : Except Cause (List Node × List Char) :=
    r.map fun (item, rest) => (item :: items, rest)
  let again (least : Nat) (most : Option Nat) : Except Cause (List Node × List Char) :=
    (repeatLatest least most items).map fun items => (items, skipLazy rest)
  match c with
  | '?' => again 0 (some 1)
  | '*' => again 0 none
  | '+' => again 1 none
  | '{' =>
    match readCounts f.verbose rest with
    | .ok ((least, most), rest) =>
      (repeatLatest least most items).map fun items =>
        (items, skipLazy (skipBlanks f.verbose rest))
    | .error e => .error e
  | '[' => add (bracket f rest)
  | '\\' => add (escape f rest)
  | '.' => .ok (f.dot :: items, rest)
  | '^' => .ok (f.caret :: items, rest)
  | '$' => .ok (f.dollar :: items, rest)
  | c => .ok (f.literal c :: items, rest)

def closeAlternatives (branches : List Node) (items : List Node) : Node :=
  .ofChoice (Node.ofSequence items.reverse :: branches).reverse

/-- Reads alternatives up to the end of the text or the parenthesis that closes their group, which
stays. `branches` holds complete alternatives and `items` the parts of the current one, latest
first. -/
def readAlternatives : Nat → Nat → List Node → List Node → Cursor → Except Cause (Node × Cursor)
  | 0, _, _, _, _ => .error .unfinished
  | fuel + 1, level, branches, items, s =>
    match skipBlanks s.flags.verbose s.rest with
    | [] => .ok (closeAlternatives branches items, { s with rest := [] })
    | ')' :: rest =>
      if level = 0 then .error .unopenedGroup
      else .ok (closeAlternatives branches items, { s with rest := ')' :: rest })
    | '|' :: rest =>
      readAlternatives fuel level (Node.ofSequence items.reverse :: branches) []
        { s with rest := rest }
    | '(' :: rest =>
      match openGroup { s with rest := rest } with
      | .error e => .error e
      | .ok (.flags, inner) => readAlternatives fuel level branches items inner
      | .ok (opening, inner) =>
        if nestLimit ≤ level then .error .tooDeep
        else
          match readAlternatives fuel (level + 1) [] [] inner with
          | .error e => .error e
          | .ok (sub, inner) =>
            match inner.rest with
            | ')' :: rest =>
              let item := match opening with
                | .capture => Node.group sub
                | _ => sub
              readAlternatives fuel level branches (item :: items)
                { inner with flags := s.flags, rest := rest }
            | _ => .error .unclosedGroup
    | c :: rest =>
      match readItem s.flags items c rest with
      | .error e => .error e
      | .ok (items, rest) => readAlternatives fuel level branches items { s with rest := rest }

def read (text : String) : Except Cause (Node × Nat) :=
  let cs := text.toList
  (readAlternatives (cs.length + 1) 0 [] [] ⟨{}, [], 0, cs⟩).map fun (e, s) => (e, s.groups)

end Docket.Pattern
