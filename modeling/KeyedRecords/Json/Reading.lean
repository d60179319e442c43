import KeyedRecords.Json.Number
import KeyedRecords.Text.Hex

/-!
# Reading documents

A text is cut into tokens (`tokens?`), and a machine with a stack of open lists and objects builds
the document from them (`build`). A document is nested less than 128 deep. Of two members of one
name the later stays.
-/

namespace KeyedRecords.Json

/-- A token of a document. -/
inductive Token where
  | openList
  | closeList
  | openObject
  | closeObject
  /-- Separates items and members. -/
  | comma
  /-- Separates a name from its value. -/
  | colon
  | text (s : String)
  /-- Null, a truth value or a number. -/
  | atom (value : Json)

/-- The code unit that four hexadecimal digits stand for. -/
def readUnit? : List Char → Option (Nat × List Char)
  | a :: b :: c :: d :: rest => do
    let a ← Text.Hex.digitValue? a
    let b ← Text.Hex.digitValue? b
    let c ← Text.Hex.digitValue? c
    let d ← Text.Hex.digitValue? d
    return (((a * 16 + b) * 16 + c) * 16 + d, rest)
  | _ => none

/-- A character given by one code unit, or by a high and a low one. -/
def readUnits? (cs : List Char) : Option (Char × List Char) := do
  let (high, rest) ← readUnit? cs
  if 0xd800 ≤ high ∧ high < 0xdc00 then
    match rest with
    | '\\' :: 'u' :: rest =>
      let (low, rest) ← readUnit? rest
      if 0xdc00 ≤ low ∧ low < 0xe000 then
        return (Char.ofNat (0x10000 + (high - 0xd800) * 0x400 + (low - 0xdc00)), rest)
      else none
    | _ => none
  else if 0xdc00 ≤ high ∧ high < 0xe000 then none
  else return (Char.ofNat high, rest)

/-- The character that an escape of one letter stands for. -/
def simpleEscape? (c : Char) : Option Char :=
  if c = '"' ∨ c = '\\' ∨ c = '/' then some c
  else if c = 'n' then some '\n'
  else if c = 't' then some '\t'
  else if c = 'r' then some '\r'
  else if c = 'b' then some (Char.ofNat 8)
  else if c = 'f' then some (Char.ofNat 12)
  else none

/-- The rest of a text whose opening quote has been read, and what follows it. `fuel` exceeds the
number of characters left. -/
def readText? : Nat → List Char → List Char → Option (String × List Char)
  | 0, _, _ => none
  | _, _, [] => none
  | fuel + 1, read, c :: rest =>
    if c = '"' then some (String.ofList read.reverse, rest)
    else if c = '\\' then
      match rest with
      | 'u' :: rest => do
        let (x, rest) ← readUnits? rest
        readText? fuel (x :: read) rest
      | x :: rest => do readText? fuel ((← simpleEscape? x) :: read) rest
      | [] => none
    else if c.toNat < 0x20 then none
    else readText? fuel (c :: read) rest

/-- What follows a literal word. -/
def afterWord? (word : String) (cs : List Char) : Option (List Char) :=
  if word.toList.isPrefixOf cs then some (cs.drop word.length) else none

/-- The token at the front of a text, and what follows it. -/
def readToken? (c : Char) (rest : List Char) : Option (Token × List Char) :=
  if c = '[' then some (.openList, rest)
  else if c = ']' then some (.closeList, rest)
  else if c.toNat = 0x7b then some (.openObject, rest)
  else if c.toNat = 0x7d then some (.closeObject, rest)
  else if c = ',' then some (.comma, rest)
  else if c = ':' then some (.colon, rest)
  else if c = '"' then (readText? (rest.length + 1) [] rest).map fun (s, rest) => (.text s, rest)
  else if c = 'n' then (afterWord? "ull" rest).map fun rest => (.atom .null, rest)
  else if c = 't' then (afterWord? "rue" rest).map fun rest => (.atom (.bool true), rest)
  else if c = 'f' then (afterWord? "alse" rest).map fun rest => (.atom (.bool false), rest)
  else (readNumber? (c :: rest)).map fun (value, rest) => (.atom value, rest)

/-- Blanks between tokens. -/
def isSeparator (c : Char) : Bool := c == ' ' || c == '\n' || c == '\t' || c == '\r'

/-- The tokens of a text. `fuel` exceeds the number of characters left. -/
def tokens? : Nat → List Char → Option (List Token)
  | 0, _ => none
  | _, [] => some []
  | fuel + 1, c :: rest =>
    if isSeparator c then tokens? fuel rest
    else do
      let (token, rest) ← readToken? c rest
      return token :: (← tokens? fuel rest)

/-- A list or object that is still open. -/
inductive Frame where
  /-- A list with its items so far, the last one first. -/
  | list (items : List Json)
  /-- An object with its members so far, and the name whose value comes next. -/
  | object (members : List (String × Json)) (name : String)

/-- What the machine waits for. -/
inductive Stage where
  | value
  /-- The first item of a list, or its end. -/
  | firstItem
  /-- The name of a member, with the members so far; the end of the object too if it may come. -/
  | name (members : List (String × Json)) (mayClose : Bool)
  /-- The colon behind a name. -/
  | colon (members : List (String × Json)) (name : String)
  /-- What comes behind a finished value. -/
  | done (value : Json)

/-- Lists and objects may be open this many at a time. -/
def maxDepth : Nat := 127

/-- One token moves the machine; `stack` holds the open lists and objects, innermost first. -/
def step? (stack : List Frame) (stage : Stage) (token : Token) : Option (List Frame × Stage) :=
  match stage, token with
  | .value, .atom v | .firstItem, .atom v => some (stack, .done v)
  | .value, .text s | .firstItem, .text s => some (stack, .done (.text s))
  | .value, .openList | .firstItem, .openList =>
    if stack.length < maxDepth then some (.list [] :: stack, .firstItem) else none
  | .value, .openObject | .firstItem, .openObject =>
    if stack.length < maxDepth then some (.object [] "" :: stack, .name [] true) else none
  | .firstItem, .closeList =>
    match stack with
    | .list items :: stack => some (stack, .done (.list items.reverse))
    | _ => none
  | .name members _, .text s => some (stack, .colon members s)
  | .name members true, .closeObject => some (stack.drop 1, .done (.object members))
  | .colon members name, .colon => some (.object members name :: stack.drop 1, .value)
  | .done v, .comma =>
    match stack with
    | .list items :: stack => some (.list (v :: items) :: stack, .value)
    | .object members name :: stack =>
      let members := insertMember name v members
      some (.object members "" :: stack, .name members false)
    | [] => none
  | .done v, .closeList =>
    match stack with
    | .list items :: stack => some (stack, .done (.list (v :: items).reverse))
    | _ => none
  | .done v, .closeObject =>
    match stack with
    | .object members name :: stack => some (stack, .done (.object (insertMember name v members)))
    | _ => none
  | _, _ => none

/-- The document that tokens make up from where the machine stands. -/
def build? : List Frame → Stage → List Token → Option Json
  | [], .done v, [] => some v
  | _, _, [] => none
  | stack, stage, token :: rest => do
    let (stack, stage) ← step? stack stage token
    build? stack stage rest

/-- The document that a text stands for. -/
def read? (s : String) : Option Json := do
  let cs := s.toList
  build? [] .value (← tokens? (cs.length + 1) cs)

end KeyedRecords.Json
