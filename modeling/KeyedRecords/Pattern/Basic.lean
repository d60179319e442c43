import KeyedRecords.Text.Character

/-!
# Patterns over texts

A pattern is built from sets of characters, assertions about a position, sequence, choice and
counted repetition. `ends` answers, for positions at which a match may start, the positions at which
it can end; `isMatch` asks whether a match exists anywhere in a text. There is no backtracking, so
every pattern is decided in time polynomial in the text.
-/

namespace KeyedRecords

inductive CharSet where
  /-- Every character. -/
  | all
  /-- The characters from the first to the second, both included. -/
  | range (first last : Char)
  /-- Decimal digits of any script. -/
  | digit
  /-- Word characters. -/
  | word
  /-- White space. -/
  | blank
  /-- The characters that have a spelling in the set in some case. -/
  | caseless (s : CharSet)
  | complement (s : CharSet)
  /-- The characters in either set. -/
  | union (a b : CharSet)
  /-- The characters in both sets. -/
  | inter (a b : CharSet)

namespace CharSet

def none : CharSet := .complement .all

def single (c : Char) : CharSet := .range c c

/-- The characters in any of the sets. -/
def unionAll (sets : List CharSet) : CharSet := sets.foldl .union none

/-- The other spellings of a character that differ only in case. -/
def spellings (c : Char) : List Char :=
  let folded := Text.fold c
  let special :=
    if folded = 'k' then [Char.ofNat 0x212a]
    else if folded = 's' then [Char.ofNat 0x17f]
    else if folded.toNat = 0xe5 then [Char.ofNat 0x212b]
    else []
  c :: folded :: Text.upper folded :: special

/-- Whether a character belongs to a set. -/
def contains : CharSet → Char → Bool
  | .all, _ => true
  | .range first last, c => first ≤ c && c ≤ last
  | .digit, c => Text.isDecimalDigit c
  | .word, c => Text.isWord c
  | .blank, c => Text.isBlank c
  | .caseless s, c => (spellings c).any s.contains
  | .complement s, c => !s.contains c
  | .union a b, c => a.contains c || b.contains c
  | .inter a b, c => a.contains c && b.contains c

end CharSet

/-- A statement about a position between two characters. -/
inductive Assertion where
  /-- Nothing lies before. -/
  | textStart
  /-- Nothing lies behind. -/
  | textEnd
  /-- Nothing or a line feed lies before. -/
  | lineStart
  /-- Nothing or a line feed lies behind. -/
  | lineEnd
  /-- Just one of the two neighbours is a word character. -/
  | wordBoundary
  /-- Both neighbours are word characters, or neither is. -/
  | notWordBoundary
  /-- A word begins here. -/
  | wordStart
  /-- A word ends here. -/
  | wordEnd
  /-- No word character lies before. -/
  | noWordBefore
  /-- No word character lies behind. -/
  | noWordBehind

/-- Whether an assertion holds between two neighbours, either of which may be missing. -/
def Assertion.holds (before after : Option Char) : Assertion → Bool
  | .textStart => before.isNone
  | .textEnd => after.isNone
  | .lineStart => before.isNone || before == some '\n'
  | .lineEnd => after.isNone || after == some '\n'
  | .wordBoundary => before.any Text.isWord != after.any Text.isWord
  | .notWordBoundary => before.any Text.isWord == after.any Text.isWord
  | .wordStart => !before.any Text.isWord && after.any Text.isWord
  | .wordEnd => before.any Text.isWord && !after.any Text.isWord
  | .noWordBefore => !before.any Text.isWord
  | .noWordBehind => !after.any Text.isWord

/-- A pattern over texts. -/
inductive Pattern where
  /-- The empty text. -/
  | empty
  | one (s : CharSet)
  /-- A position at which an assertion holds. -/
  | check (a : Assertion)
  /-- One pattern and then another. -/
  | seq (p q : Pattern)
  /-- Either of two patterns. -/
  | either (p q : Pattern)
  /-- At least `least` copies of a pattern, and at most `most` if given. -/
  | times (least : Nat) (most : Option Nat) (p : Pattern)

namespace Pattern

/-- The neighbours of a position. -/
def neighbours (text : Array Char) (i : Nat) : Option Char × Option Char :=
  (if i = 0 then Option.none else text[i - 1]?, text[i]?)

/-- The positions reached by `n` steps. -/
def after (step : List Nat → List Nat) : Nat → List Nat → List Nat
  | 0, positions => positions
  | n + 1, positions => after step n (step positions)

/-- The positions reached by at most `n` steps. -/
def within (step : List Nat → List Nat) : Nat → List Nat → List Nat
  | 0, positions => positions
  | n + 1, positions => within step n (positions ++ step positions).eraseDups

/-- The positions at which a match can end that starts at one of the given positions. Of more copies
than there are characters some match the empty text, and one of those more or less makes no
difference; so no copies are counted beyond that number. -/
def ends (text : Array Char) : Pattern → List Nat → List Nat
  | .empty, starts => starts
  | .one s, starts => (starts.filter fun i => (text[i]?).any s.contains).map (· + 1)
  | .check a, starts =>
    starts.filter fun i => let (b, c) := neighbours text i; a.holds b c
  | .seq p q, starts => ends text q (ends text p starts)
  | .either p q, starts => (ends text p starts ++ ends text q starts).eraseDups
  | .times least most p, starts =>
    let enough := text.size + 1
    let required := after (ends text p) (min least enough) starts
    let more := match most with
      | some most => min (most - least) enough
      | Option.none => enough
    within (ends text p) more required

/-- Whether the pattern matches somewhere in the text. -/
def isMatch (p : Pattern) (s : String) : Bool :=
  let text := s.toList.toArray
  !(ends text p (List.range (text.size + 1))).isEmpty

end Pattern

end KeyedRecords
