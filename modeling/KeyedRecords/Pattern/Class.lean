import KeyedRecords.Pattern.Basic
import KeyedRecords.Text.Hex

/-!
# Escapes and bracketed classes

Reading what a backslash introduces (`readEscape?`), and classes between brackets with ranges,
named classes, nesting, and the operations `&&`, `--` and `~~` (`readClass?`).
-/

namespace KeyedRecords.Pattern

/-- Switches that change how the text of a pattern is read. -/
structure Flags where
  /-- Letters match in all their cases. -/
  caseless : Bool
  /-- `^` and `$` hold at line ends too. -/
  multiLine : Bool
  /-- `.` takes line feeds too. -/
  dotAll : Bool
  /-- Blanks and comments between the parts are passed over. -/
  spaced : Bool
  /-- Classes named by a letter hold the characters of all scripts. -/
  allScripts : Bool

/-- The switches a pattern starts with. -/
def Flags.initial : Flags := ⟨false, false, false, false, true⟩

/-- A set that respects the case switch. -/
def Flags.cased (flags : Flags) (s : CharSet) : CharSet :=
  if flags.caseless then .caseless s else s

def ascii (ranges : List (Nat × Nat)) : CharSet :=
  CharSet.unionAll (ranges.map fun (first, last) =>
    .range (Char.ofNat first) (Char.ofNat last))

/-- The class that a letter behind a backslash names. -/
def letterClass? (flags : Flags) (c : Char) : Option CharSet :=
  let digits := if flags.allScripts then .digit else ascii [(0x30, 0x39)]
  let words :=
    if flags.allScripts then .word
    else ascii [(0x30, 0x39), (0x41, 0x5a), (0x5f, 0x5f), (0x61, 0x7a)]
  let blanks := if flags.allScripts then .blank else ascii [(0x9, 0xd), (0x20, 0x20)]
  match c with
  | 'd' => some digits
  | 'w' => some words
  | 's' => some blanks
  | 'D' => some (.complement digits)
  | 'W' => some (.complement words)
  | 'S' => some (.complement blanks)
  | _ => none

/-- The class that a word between colons names. -/
def namedClass? : String → Option CharSet
  | "alnum" => some (ascii [(0x30, 0x39), (0x41, 0x5a), (0x61, 0x7a)])
  | "alpha" => some (ascii [(0x41, 0x5a), (0x61, 0x7a)])
  | "ascii" => some (ascii [(0, 0x7f)])
  | "blank" => some (ascii [(0x9, 0x9), (0x20, 0x20)])
  | "cntrl" => some (ascii [(0, 0x1f), (0x7f, 0x7f)])
  | "digit" => some (ascii [(0x30, 0x39)])
  | "graph" => some (ascii [(0x21, 0x7e)])
  | "lower" => some (ascii [(0x61, 0x7a)])
  | "print" => some (ascii [(0x20, 0x7e)])
  | "punct" => some (ascii [(0x21, 0x2f), (0x3a, 0x40), (0x5b, 0x60), (0x7b, 0x7e)])
  | "space" => some (ascii [(0x9, 0xd), (0x20, 0x20)])
  | "upper" => some (ascii [(0x41, 0x5a)])
  | "word" => some (ascii [(0x30, 0x39), (0x41, 0x5a), (0x5f, 0x5f), (0x61, 0x7a)])
  | "xdigit" => some (ascii [(0x30, 0x39), (0x41, 0x46), (0x61, 0x66)])
  | _ => none

/-- What a backslash and the characters behind it stand for. -/
inductive Escape where
  | char (c : Char)
  /-- A class of characters. -/
  | set (s : CharSet)
  | check (a : Assertion)

/-- The character of a code point, if it is one. -/
def charOf? (n : Nat) : Option Char := if n.isValidChar then some (Char.ofNat n) else none

/-- The number that hexadecimal digits stand for. -/
def readHex? (cs : List Char) : Option Nat :=
  if cs.isEmpty then none
  else cs.foldl (fun n? c => do
    let n ← n?
    let d ← Text.Hex.digitValue? c
    return min (16 * n + d) 0x110000) (some 0)

/-- A code point in hexadecimal: `width` digits, or any number of them between braces. -/
def readCodePoint? (width : Nat) (cs : List Char) : Option (Char × List Char) :=
  match cs with
  | c :: rest =>
    if c.toNat = 0x7b then do
      let (digits, rest) := rest.span (·.toNat != 0x7d)
      let n ← readHex? digits
      return (← charOf? n, ← rest.tail?)
    else do
      let n ← readHex? (cs.take width)
      if cs.length < width then none else return (← charOf? n, cs.drop width)
  | [] => none

/-- Whether a backslash may stand before a character that needs none. -/
def isPunctuation (c : Char) : Bool :=
  c.toNat < 0x80 && !c.isAlphanum && c != '<' && c != '>'

/-- The assertion that a word between braces names. -/
def namedBoundary? : String → Option Assertion
  | "start" => some .wordStart
  | "end" => some .wordEnd
  | "start-half" => some .noWordBefore
  | "end-half" => some .noWordBehind
  | _ => none

/-- A word boundary, and what follows it. Braces behind it that hold a letter or a hyphen in front
name the kind of boundary; other braces repeat it. -/
def readBoundary? : List Char → Option (Assertion × List Char)
  | b :: c :: rest =>
    if b.toNat = 0x7b && (c.isAlpha || c == '-') then do
      let (name, rest) := (c :: rest).span (·.toNat != 0x7d)
      return (← namedBoundary? (String.ofList name), ← rest.tail?)
    else some (.wordBoundary, b :: c :: rest)
  | rest => some (.wordBoundary, rest)

/-- What the characters behind a backslash stand for, and what follows them. -/
def readEscape? (flags : Flags) : List Char → Option (Escape × List Char)
  | [] => none
  | c :: rest =>
    match letterClass? flags c with
    | some s =>
      -- a negated class may hold parts of characters where scripts are ignored
      if !flags.allScripts && c.isUpper then none else some (.set (flags.cased s), rest)
    | none =>
      match c with
      | 'x' => (readCodePoint? 2 rest).map fun (c, rest) => (.char c, rest)
      | 'u' => (readCodePoint? 4 rest).map fun (c, rest) => (.char c, rest)
      | 'U' => (readCodePoint? 8 rest).map fun (c, rest) => (.char c, rest)
      | 'a' => some (.char (Char.ofNat 7), rest)
      | 'f' => some (.char (Char.ofNat 12), rest)
      | 't' => some (.char '\t', rest)
      | 'n' => some (.char '\n', rest)
      | 'r' => some (.char '\r', rest)
      | 'v' => some (.char (Char.ofNat 11), rest)
      | 'A' => some (.check .textStart, rest)
      | 'z' => some (.check .textEnd, rest)
      | 'b' => (readBoundary? rest).map fun (a, rest) => (.check a, rest)
      | 'B' => some (.check .notWordBoundary, rest)
      | '<' => some (.check .wordStart, rest)
      | '>' => some (.check .wordEnd, rest)
      | c => if isPunctuation c then some (.char c, rest) else none

/-- An operation between two parts of a class. -/
inductive SetOperation where
  /-- What both parts hold. -/
  | both
  /-- What the first part holds and the second does not. -/
  | minus
  /-- What just one part holds. -/
  | oneOf

/-- The set that an operation makes of two. -/
def SetOperation.apply (a b : CharSet) : SetOperation → CharSet
  | .both => .inter a b
  | .minus => .inter a (.complement b)
  | .oneOf => .inter (.union a b) (.complement (.inter a b))

/-- A class that is still open. -/
structure ClassFrame where
  /-- Whether the class is negated. -/
  negated : Bool
  /-- The part before the last operation, and the operation. -/
  left : Option (CharSet × SetOperation)
  /-- What has been read of the current part. -/
  items : CharSet

/-- The set of a class as far as it has been read. -/
def ClassFrame.joined (f : ClassFrame) : CharSet :=
  match f.left with
  | some (a, op) => op.apply a f.items
  | none => f.items

def ClassFrame.finish (f : ClassFrame) : CharSet :=
  if f.negated then .complement f.joined else f.joined

/-- Opens a class behind its bracket. A closing bracket right at the front, and hyphens there, stand
for themselves. -/
def openClass (flags : Flags) (cs : List Char) : ClassFrame × List Char :=
  let (negated, rest) :=
    match cs with
    | '^' :: rest => (true, rest)
    | rest => (false, rest)
  let (hyphens, rest) := rest.span (· == '-')
  let hyphen := if hyphens.isEmpty then CharSet.none else CharSet.single '-'
  match hyphens, rest with
  | [], ']' :: rest => (⟨negated, none, flags.cased (.single ']')⟩, rest)
  | _, rest => (⟨negated, none, hyphen⟩, rest)

/-- A named class between colons at the front, and what follows it. -/
def readNamedClass? : List Char → Option (CharSet × List Char)
  | ':' :: rest =>
    let (negated, rest) :=
      match rest with
      | '^' :: rest => (true, rest)
      | rest => (false, rest)
    let (name, rest) := rest.span (·.isLower)
    match namedClass? (String.ofList name), rest with
    | some s, ':' :: ']' :: rest => some (if negated then .complement s else s, rest)
    | _, _ => none
  | _ => none

/-- One item of a class: a character or a class behind a backslash. -/
def readClassItem? (flags : Flags) : List Char → Option ((Char ⊕ CharSet) × List Char)
  | '\\' :: rest =>
    match readEscape? flags rest with
    | some (.char c, rest) => some (.inl c, rest)
    | some (.set s, rest) => some (.inr s, rest)
    | _ => none
  | c :: rest => some (.inl c, rest)
  | [] => none

/-- A character, a range or a class behind a backslash, and what follows it. -/
def readClassRange? (flags : Flags) (cs : List Char) : Option (CharSet × List Char) := do
  let (item, rest) ← readClassItem? flags cs
  let alone : CharSet :=
    match item with
    | .inl c => flags.cased (.single c)
    | .inr s => s
  match rest with
  | '-' :: next :: _ =>
    if next = ']' ∨ next = '-' then some (alone, rest)
    else
      match item, ← readClassItem? flags (rest.drop 1) with
      | .inl first, (.inl last, rest) =>
        if first ≤ last then some (flags.cased (.range first last), rest) else none
      | _, _ => none
  | _ => some (alone, rest)

/-- Reads the inside of open classes, innermost first, up to the bracket that closes the outermost.
`fuel` exceeds the number of characters left. -/
def readClasses? (flags : Flags) :
    Nat → List ClassFrame → List Char → Option (CharSet × List Char)
  | 0, _, _ => none
  | _, [], _ => none
  | fuel + 1, frame :: outer, cs =>
    let add (s : CharSet) (rest : List Char) :=
      readClasses? flags fuel ({ frame with items := .union frame.items s } :: outer) rest
    let operation (op : SetOperation) (rest : List Char) :=
      readClasses? flags fuel (⟨frame.negated, some (frame.joined, op), .none⟩ :: outer) rest
    match cs with
    | [] => none
    | '&' :: '&' :: rest => operation .both rest
    | '-' :: '-' :: rest => operation .minus rest
    | '~' :: '~' :: rest => operation .oneOf rest
    | ']' :: rest =>
      match outer with
      | [] => some (frame.finish, rest)
      | next :: outer =>
        readClasses? flags fuel
          ({ next with items := .union next.items frame.finish } :: outer) rest
    | '[' :: rest =>
      match readNamedClass? rest with
      | some (s, rest) => add (flags.cased s) rest
      | none =>
        let (inner, rest) := openClass flags rest
        readClasses? flags fuel (inner :: frame :: outer) rest
    | c :: rest =>
      if flags.spaced && Text.isBlank c then readClasses? flags fuel (frame :: outer) rest
      else
        match readClassRange? flags (c :: rest) with
        | some (s, rest) => add s rest
        | none => none

/-- The class whose opening bracket has been read, and what follows it. -/
def readClass? (flags : Flags) (cs : List Char) : Option (CharSet × List Char) :=
  let (frame, rest) := openClass flags cs
  readClasses? flags (cs.length + 1) [frame] rest

end KeyedRecords.Pattern
