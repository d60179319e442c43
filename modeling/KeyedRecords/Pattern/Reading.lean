import KeyedRecords.Pattern.Class
import KeyedRecords.Number.Integer

/-!
# Reading patterns

The text of a pattern becomes a `Pattern` (`read?`), or nothing if it is malformed: unbalanced
groups or brackets, repetition of nothing, bounds in the wrong order, look-around and references.
-/

namespace KeyedRecords.Pattern

/-- A group that is still open. -/
structure Group where
  /-- The switches outside the group. -/
  flags : Flags
  /-- The finished alternatives outside, the last one first. -/
  alternatives : List Pattern
  /-- The parts of the current alternative outside, the last one first. -/
  parts : List Pattern

/-- How far a pattern has been read. -/
structure Progress where
  /-- The switches in force. -/
  flags : Flags
  /-- The finished alternatives of the current group, the last one first. -/
  alternatives : List Pattern
  /-- The parts of the current alternative, the last one first. -/
  parts : List Pattern
  /-- Whether a repetition may follow. -/
  repeatable : Bool
  /-- The open groups, innermost first. -/
  groups : List Group
  /-- The names of groups so far. -/
  names : List String

/-- The parts of an alternative, the last one first, as one pattern. -/
def sequence (parts : List Pattern) : Pattern := parts.foldl (fun p part => .seq part p) .empty

/-- The choice between alternatives, the last one first. -/
def choice : List Pattern → Pattern
  | [] => .empty
  | p :: rest => rest.foldl (fun q alternative => .either alternative q) p

namespace Progress

/-- One more part. -/
def push (r : Progress) (p : Pattern) : Progress :=
  { r with parts := p :: r.parts, repeatable := true }

/-- Everything read in the current group. -/
def body (r : Progress) : Pattern := choice (sequence r.parts :: r.alternatives)

/-- Starts the next alternative. -/
def alternate (r : Progress) : Progress :=
  { r with alternatives := sequence r.parts :: r.alternatives, parts := [], repeatable := false }

/-- Opens a group that has switches of its own. -/
def openGroup (r : Progress) (flags : Flags) (names : List String) : Progress :=
  { flags := flags, alternatives := [], parts := [], repeatable := false
    groups := ⟨r.flags, r.alternatives, r.parts⟩ :: r.groups, names := names }

/-- Closes the innermost group. -/
def closeGroup? (r : Progress) : Option Progress :=
  match r.groups with
  | [] => none
  | g :: groups =>
    some { flags := g.flags, alternatives := g.alternatives, parts := r.body :: g.parts
           repeatable := true, groups := groups, names := r.names }

/-- Repeats the last part. -/
def repeat? (r : Progress) (least : Nat) (most : Option Nat) : Option Progress :=
  match r.parts with
  | p :: parts =>
    if r.repeatable then some { r with parts := .times least most p :: parts } else none
  | [] => none

end Progress

/-- Switches set and cleared by letters; a letter may come once, and behind a hyphen it clears. -/
def readFlags? (flags : Flags) (clearing : Bool) (seen : List Char) :
    List Char → Option Flags
  | [] => some flags
  | '-' :: rest => if clearing ∨ rest.isEmpty then none else readFlags? flags true seen rest
  | c :: rest =>
    if seen.contains c then none
    else
      let on := !clearing
      match c with
      | 'i' => readFlags? { flags with caseless := on } clearing (c :: seen) rest
      | 'm' => readFlags? { flags with multiLine := on } clearing (c :: seen) rest
      | 's' => readFlags? { flags with dotAll := on } clearing (c :: seen) rest
      | 'x' => readFlags? { flags with spaced := on } clearing (c :: seen) rest
      | 'u' => readFlags? { flags with allScripts := on } clearing (c :: seen) rest
      -- these decide which match is preferred, and not whether there is one
      | 'U' | 'R' => readFlags? flags clearing (c :: seen) rest
      | _ => none

/-- Whether characters can name a group. -/
def isGroupName : List Char → Bool
  | [] => false
  | c :: rest =>
    (c == '_' || c.isAlpha) &&
      rest.all fun c => c == '_' || c == '.' || c == '[' || c == ']' || c.isAlphanum

/-- Opens a named group whose opening angle has been read. -/
def openNamed? (r : Progress) (cs : List Char) : Option (Progress × List Char) := do
  let (name, rest) := cs.span (· != '>')
  let rest ← rest.tail?
  let text := String.ofList name
  if isGroupName name && !r.names.contains text then
    return (r.openGroup r.flags (text :: r.names), rest)
  else none

/-- What an opening parenthesis begins: a group, or a change of switches. -/
def readOpening? (r : Progress) : List Char → Option (Progress × List Char)
  | '?' :: 'P' :: '<' :: rest => openNamed? r rest
  -- look-behind is refused
  | '?' :: '<' :: c :: rest => if c = '=' ∨ c = '!' then none else openNamed? r (c :: rest)
  | '?' :: rest => do
    let (letters, rest) := rest.span fun c => c != ':' && c != ')'
    let flags ← readFlags? r.flags false [] letters
    match rest with
    | ':' :: rest => some (r.openGroup flags r.names, rest)
    | ')' :: rest =>
      if letters.isEmpty then none
      else some ({ r with flags := flags, parts := .empty :: r.parts, repeatable := false }, rest)
    | _ => none
  | rest => some (r.openGroup r.flags r.names, rest)

/-- Greatest bound of a repetition. -/
def maxBound : Nat := Nat.pow 2 32 - 1

/-- A bound of a repetition, with blanks around it. -/
def readBound? (cs : List Char) : Option Nat := do
  let (digits, rest) := (cs.dropWhile Text.isBlank).span Char.isDigit
  if !rest.all Text.isBlank then none
  let n ← Number.readNat? digits
  if n ≤ maxBound then some n else none

/-- The bounds between braces whose opening has been read, and what follows them. -/
def readBounds? (cs : List Char) : Option (Nat × Option Nat × List Char) := do
  let (inside, rest) := cs.span (·.toNat != 0x7d)
  let rest ← rest.tail?
  let (low, high) := inside.span (· != ',')
  let least ← readBound? low
  match high with
  | [] => some (least, some least, rest)
  | _ :: high =>
    if high.isEmpty then some (least, none, rest)
    else
      let most ← readBound? high
      if least ≤ most then some (least, some most, rest) else none

/-- What follows a repetition mark; a question mark only says which match is preferred. -/
def afterMark : List Char → List Char
  | '?' :: rest => rest
  | rest => rest

/-- The pattern that an escape stands for. -/
def Escape.pattern (flags : Flags) : Escape → Pattern
  | .char c => .one (flags.cased (.single c))
  | .set s => .one s
  | .check a => .check a

/-- Reads on from where a pattern has been read to. `fuel` exceeds the number of characters left. -/
def readFrom? : Nat → Progress → List Char → Option Pattern
  | 0, _, _ => none
  | _, r, [] => if r.groups.isEmpty then some r.body else none
  | fuel + 1, r, c :: rest =>
    if r.flags.spaced && Text.isBlank c then readFrom? fuel r rest
    -- where blanks do not count, a comment runs to the end of its line
    else if r.flags.spaced && c == '#' then readFrom? fuel r (rest.dropWhile (· != '\n'))
    else
      match c with
      | '(' => do
        let (r, rest) ← readOpening? r rest
        readFrom? fuel r rest
      | ')' => do readFrom? fuel (← r.closeGroup?) rest
      | '|' => readFrom? fuel r.alternate rest
      | '*' => do readFrom? fuel (← r.repeat? 0 none) (afterMark rest)
      | '+' => do readFrom? fuel (← r.repeat? 1 none) (afterMark rest)
      | '?' => do readFrom? fuel (← r.repeat? 0 (some 1)) (afterMark rest)
      | '[' => do
        let (s, rest) ← readClass? r.flags rest
        readFrom? fuel (r.push (.one s)) rest
      | '\\' => do
        let (e, rest) ← readEscape? r.flags rest
        readFrom? fuel (r.push (e.pattern r.flags)) rest
      | '.' =>
        -- a dot may match part of a character where scripts are ignored
        if !r.flags.allScripts then none
        else
          readFrom? fuel
            (r.push (.one (if r.flags.dotAll then .all else .complement (.single '\n')))) rest
      | '^' =>
        readFrom? fuel (r.push (.check (if r.flags.multiLine then .lineStart else .textStart))) rest
      | '$' =>
        readFrom? fuel (r.push (.check (if r.flags.multiLine then .lineEnd else .textEnd))) rest
      | c =>
        if c.toNat = 0x7b then do
          let (least, most, rest) ← readBounds? rest
          readFrom? fuel (← r.repeat? least most) (afterMark rest)
        else readFrom? fuel (r.push (.one (r.flags.cased (.single c)))) rest

/-- The pattern that a text stands for. -/
def read? (s : String) : Option Pattern :=
  readFrom? (s.toList.length + 1) ⟨.initial, [], [], false, [], []⟩ s.toList

/-- Whether the pattern that a text stands for matches somewhere in another. A malformed pattern
matches nothing. -/
def matchesText (pattern s : String) : Bool :=
  match read? pattern with
  | some p => p.isMatch s
  | none => false

end KeyedRecords.Pattern
