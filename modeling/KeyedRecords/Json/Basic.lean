/-!
# JSON documents

A document is null, a truth value, a number, a text, a list or an object. Numbers written without
point and exponent stay integers as far as 64 bits go; all others are doubles. The members of an
object are kept in ascending order of their names, one member a name.
-/

namespace KeyedRecords

inductive Json where
  /-- The null document. -/
  | null
  | bool (b : Bool)
  /-- A number written as an integer of 64 bits, with or without sign. -/
  | int (n : Int)
  /-- Any other number. -/
  | float (x : Float)
  | text (s : String)
  | list (items : List Json)
  /-- Named members, ascending by name. -/
  | object (members : List (String × Json))
deriving Inhabited

namespace Json

mutual

/-- Equality of documents; doubles compare as numbers. -/
def equal : Json → Json → Bool
  | .null, .null => true
  | .bool a, .bool b => a == b
  | .int a, .int b => a == b
  | .float a, .float b => a == b
  | .text a, .text b => a == b
  | .list a, .list b => equalItems a b
  | .object a, .object b => equalMembers a b
  | _, _ => false

def equalItems : List Json → List Json → Bool
  | [], [] => true
  | a :: as, b :: bs => equal a b && equalItems as bs
  | _, _ => false

/-- Equality of members, names included. -/
def equalMembers : List (String × Json) → List (String × Json) → Bool
  | [], [] => true
  | (m, a) :: as, (n, b) :: bs => m == n && equal a b && equalMembers as bs
  | _, _ => false

end

instance : BEq Json := ⟨equal⟩

/-- Members with one more among them; a member of the same name is replaced. -/
def insertMember (name : String) (value : Json) : List (String × Json) → List (String × Json)
  | [] => [(name, value)]
  | (n, v) :: rest =>
    if name = n then (name, value) :: rest
    else if name < n then (name, value) :: (n, v) :: rest
    else (n, v) :: insertMember name value rest

end Json

end KeyedRecords
