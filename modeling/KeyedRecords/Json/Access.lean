import KeyedRecords.Json.Basic
import KeyedRecords.Number.FloatText
import KeyedRecords.Number.Integer

/-!
# Parts of documents

Reading parts of a document, where a part that is missing or of another kind counts as null, false,
zero or empty; and documents of simple data. Doubles stand in documents as their decimal texts.
-/

namespace KeyedRecords.Json

/-- An object with the given members; the last of one name counts. -/
def ofMembers (members : List (String × Json)) : Json :=
  .object (members.foldl (fun all (name, value) => insertMember name value all) [])

/-- The document of something that may be missing. -/
def ofOption {α : Type} (f : α → Json) : Option α → Json
  | some a => f a
  | none => .null

/-- The document of a text that may be missing. -/
def ofText? : Option String → Json := ofOption .text

/-- The document of an integer that may be missing. -/
def ofInt? : Option Int → Json := ofOption .int

/-- The document of a number. -/
def ofNat (n : Nat) : Json := .int n

/-- The document of a number that may be missing. -/
def ofNat? : Option Nat → Json := ofOption ofNat

def ofDouble (x : Double) : Json := .text (Number.floatText .plain x)

/-- The document of a double that may be missing. -/
def ofDouble? : Option Double → Json := ofOption ofDouble

def ofList {α : Type} (f : α → Json) (items : List α) : Json := .list (items.map f)

def ofTexts : List String → Json := ofList .text

/-- The document of pairs of texts. -/
def ofPairs : List (String × String) → Json := ofList fun (a, b) => ofTexts [a, b]

/-- A member of an object. -/
def get (j : Json) (name : String) : Json :=
  match j with
  | .object members => (members.lookup name).getD .null
  | _ => .null

/-- Whether an object has a member. -/
def has (j : Json) (name : String) : Bool :=
  match j with
  | .object members => (members.lookup name).isSome
  | _ => false

/-- Whether a document is null. -/
def isNull : Json → Bool
  | .null => true
  | _ => false

def items : Json → List Json
  | .list items => items
  | _ => []

/-- An item of a list. -/
def item (j : Json) (i : Nat) : Json := (j.items[i]?).getD .null

def asText? : Json → Option String
  | .text s => some s
  | _ => none

/-- The text of a document, or the empty one. -/
def asText (j : Json) : String := j.asText?.getD ""

def asInt? : Json → Option Int
  | .int n => some n
  | _ => none

/-- The integer of a document, or zero. -/
def asInt (j : Json) : Int := j.asInt?.getD 0

/-- The number of a document that is one. -/
def asNat? (j : Json) : Option Nat := j.asInt?.map Int.toNat

/-- The number of a document, or zero. -/
def asNat (j : Json) : Nat := j.asInt.toNat

/-- The truth value of a document that is one. -/
def asBool? : Json → Option Bool
  | .bool b => some b
  | _ => none

/-- Whether a document is the true one. -/
def isTrue (j : Json) : Bool := j.asBool?.getD false

/-- The double that the text of a document stands for, or zero. -/
def asDouble (j : Json) : Double := (Number.readDouble? j.asText).getD .zero

def asTexts (j : Json) : List String := j.items.map asText

/-- The pairs of texts of a list. -/
def asPairs (j : Json) : List (String × String) :=
  j.items.map fun p => ((p.item 0).asText, (p.item 1).asText)

end KeyedRecords.Json
