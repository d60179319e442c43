import KeyedRecords.Text.Character
import KeyedRecords.Text.Hex

/-!
# Quoted texts

A text between double quotes, as messages show it. Quotes, backslashes and the common controls get
a backslash and a letter; every other character without a printed form is given by the hexadecimal
digits of its code point in braces.
-/

namespace KeyedRecords.Text

/-- One character as a quoted text shows it. -/
def escape (c : Char) : List Char :=
  if c = '"' ∨ c = '\\' then ['\\', c]
  else if c = '\n' then ['\\', 'n']
  else if c = '\t' then ['\\', 't']
  else if c = '\r' then ['\\', 'r']
  else if c.toNat = 0 then ['\\', '0']
  else if isPrinted c then [c]
  else "\\u\x7b".toList ++ (Hex.natural c.toNat).toList ++ "\x7d".toList

/-- A text between double quotes, with its special characters escaped. -/
def quoted (s : String) : String := "\"" ++ String.ofList (s.toList.flatMap escape) ++ "\""

/-- A list of items between brackets. -/
def bracketed (items : List String) : String := "[" ++ joinedItems items ++ "]"
where
  /-- Items separated by a comma and a space. -/
  joinedItems : List String → String
    | [] => ""
    | [s] => s
    | s :: rest => s ++ ", " ++ joinedItems rest

/-- An item that may be absent. -/
def optional : Option String → String
  | some item => "Some(" ++ item ++ ")"
  | none => "None"

end KeyedRecords.Text
