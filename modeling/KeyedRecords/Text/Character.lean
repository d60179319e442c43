import KeyedRecords.Text.Table.LetterCase
import KeyedRecords.Text.Table.Unprinted
import KeyedRecords.Text.Table.Word

/-!
# Classes and case maps of characters

Membership of a character in the classes that reading, quoting, matching and case conversion need,
over all of Unicode. Case conversion of one character may give two (`lower`); `fold` sends all
spellings of a letter to one.
-/

namespace KeyedRecords.Text

/-- Whether a code point lies in one of the inclusive ranges. -/
def inRanges (ranges : List (Nat × Nat)) (n : Nat) : Bool :=
  ranges.any fun (first, last) => first ≤ n && n ≤ last

/-- Whether a code point lies on one of the runs `first, first + step, ..., last`. -/
def inRuns (runs : List (Nat × Nat × Nat)) (n : Nat) : Bool :=
  runs.any fun (first, last, step) => first ≤ n && n ≤ last && (n - first) % step == 0

/-- The image of a code point under a mapping given by runs, if it lies on one of them. -/
def mapRuns (runs : List (Nat × Nat × Nat × Nat)) (n : Nat) : Option Nat :=
  (runs.find? fun (first, last, step, _) =>
    first ≤ n && n ≤ last && (n - first) % step == 0).map
      fun (first, _, _, image) => image + (n - first)

/-- White space in the sense of Unicode. -/
def isBlank (c : Char) : Bool :=
  inRanges [(0x9, 0xd), (0x20, 0x20), (0x85, 0x85), (0xa0, 0xa0), (0x1680, 0x1680),
    (0x2000, 0x200a), (0x2028, 0x2029), (0x202f, 0x202f), (0x205f, 0x205f), (0x3000, 0x3000)]
    c.toNat

/-- Letters, marks, digits, connectors and joiners. -/
def isWord (c : Char) : Bool := inRanges Table.word c.toNat

/-- Decimal digits of any script. -/
def isDecimalDigit (c : Char) : Bool := inRanges Table.decimalDigit c.toNat

/-- Characters that a quoted text shows as they are. -/
def isPrinted (c : Char) : Bool :=
  if c.toNat < 0x80 then 0x20 ≤ c.toNat && c.toNat < 0x7f
  else !inRanges Table.unprinted c.toNat

/-- Upper-case characters. -/
def isUpper (c : Char) : Bool := inRuns Table.upperCase c.toNat

/-- Lower-case characters. -/
def isLower (c : Char) : Bool := inRuns Table.lowerCase c.toNat

/-- The lower-case form; only the dotted capital I needs two characters for it. -/
def lower (c : Char) : List Char :=
  if c.toNat == 0x130 then ['i', Char.ofNat 0x307]
  else [((mapRuns Table.toLowerCase c.toNat).map Char.ofNat).getD c]

/-- The upper-case form, where it is one character. -/
def upper (c : Char) : Char := ((mapRuns Table.toUpperCase c.toNat).map Char.ofNat).getD c

/-- One representative of all the cases of a letter. -/
def fold (c : Char) : Char := (lower (upper c)).headD c

/-- Characters that have a case. -/
def isCased (c : Char) : Bool := isUpper c || isLower c || lower c != [c]

/-- Characters that are passed over when looking for the ends of a word. -/
def isCaseIgnorable (c : Char) : Bool := inRanges Table.caseIgnorable c.toNat

/-- Whether the first character that is not passed over has a case. -/
def meetsCased (cs : List Char) : Bool :=
  ((cs.dropWhile isCaseIgnorable).head?.map isCased).getD false

/-- Lower case of a text whose characters before it are `before`, nearest first. A capital sigma
at the end of a word takes its final form. -/
def lowercaseAfter : List Char → List Char → List Char
  | _, [] => []
  | before, c :: rest =>
    let image :=
      if c.toNat == 0x3a3 && meetsCased before && !meetsCased rest then [Char.ofNat 0x3c2]
      else lower c
    image ++ lowercaseAfter (c :: before) rest

/-- The lower-case form of a text. -/
def lowercase (s : String) : String := String.ofList (lowercaseAfter [] s.toList)

end KeyedRecords.Text
