import KeyedRecords.Text.Character

/-!
# Cutting texts

Cutting at the first occurrence of a separator (`cut?`), into blank-separated words (`words`), and
taking a sign or the blanks at both ends away.
-/

namespace KeyedRecords.Text

/-- The parts before and after the first occurrence of `sep`. -/
def cutList? (sep : List Char) : List Char → Option (List Char × List Char)
  | [] => if sep.isEmpty then some ([], []) else none
  | c :: rest =>
    if sep.isPrefixOf (c :: rest) then some ([], (c :: rest).drop sep.length)
    else (cutList? sep rest).map fun (before, after) => (c :: before, after)

/-- The parts of a text before and after the first occurrence of `sep`. -/
def cut? (sep s : String) : Option (String × String) :=
  (cutList? sep.toList s.toList).map fun (before, after) =>
    (String.ofList before, String.ofList after)

/-- The text with the first occurrence of a character replaced by another text. -/
def replaceFirst (c : Char) (image : String) (s : String) : String :=
  match cutList? [c] s.toList with
  | some (before, after) => String.ofList (before ++ image.toList ++ after)
  | none => s

/-- Words of a text, when the first list holds the characters of the word being read, in reverse. -/
def wordsFrom : List Char → List Char → List String
  | [], [] => []
  | letters, [] => [String.ofList letters.reverse]
  | [], c :: rest => if isBlank c then wordsFrom [] rest else wordsFrom [c] rest
  | letters, c :: rest =>
    if isBlank c then String.ofList letters.reverse :: wordsFrom [] rest
    else wordsFrom (c :: letters) rest

/-- The non-empty parts of a text between blanks. -/
def words (s : String) : List String := wordsFrom [] s.toList

/-- The text without the blanks at its two ends. -/
def trim (s : String) : String :=
  String.ofList (((s.toList.dropWhile isBlank).reverse.dropWhile isBlank).reverse)

/-- Whether a text begins with another. -/
def startsWith (s start : String) : Bool := start.toList.isPrefixOf s.toList

/-- Texts written one after another, with a separator between neighbours. -/
def joined (sep : String) : List String → String
  | [] => ""
  | [s] => s
  | s :: rest => s ++ sep ++ joined sep rest

end KeyedRecords.Text
