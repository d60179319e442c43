import KeyedRecords.Text.Character

/-!
# Identifiers

Names made of ASCII letters, digits and underscores that do not begin with a digit; and the spelling
of a name in words of lower-case letters.
-/

namespace KeyedRecords.Text

/-- Whether a character may begin an identifier. -/
def startsIdentifier (c : Char) : Bool := c.isAlpha || c == '_'

/-- Whether a character may follow inside an identifier. -/
def continuesIdentifier (c : Char) : Bool := c.isAlphanum || c == '_'

/-- Whether a text is an identifier. -/
def isIdentifier (s : String) : Bool :=
  match s.toList with
  | [] => false
  | c :: rest => startsIdentifier c && rest.all continuesIdentifier

/-- Lower-case spelling, with an underscore where a capital follows a small letter or a digit.
`small` says whether one has just been read. -/
def snakeFrom : Bool → List Char → List Char
  | _, [] => []
  | small, c :: rest =>
    if isUpper c then
      (if small then ['_'] else []) ++ lower c ++ snakeFrom false rest
    else c :: snakeFrom (isLower c || c.isDigit) rest

/-- The name of a type in words of lower-case letters. -/
def snakeCase (s : String) : String := String.ofList (snakeFrom false s.toList)

end KeyedRecords.Text
