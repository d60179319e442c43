import KeyedRecords.Number.Integer
import KeyedRecords.Store.Data
import KeyedRecords.Text.Split

/-!
# Key spaces

A key space maps keys to entries. Reading a key as a collection it does not hold fails; a missing
key reads as an empty one. A `Step` changes the key space and may fail; what it changed before it
failed stays changed.
-/

namespace KeyedRecords

/-- The keys of a store at one time. -/
structure Keyspace where
  entries : Table Entry
  /-- The time, in milliseconds. -/
  now : Nat

/-- Why a command fails. -/
inductive CommandFault where
  /-- A key holds another kind of value. -/
  | wrongType
  /-- A text is not an integer, or the next one is too great. -/
  | notInteger
  /-- A weight to sort by is not a number. -/
  | notDouble
  /-- There are not as many weights as keys. -/
  | badWeights
deriving DecidableEq

/-- What the store says about a value of the wrong kind. -/
def wrongTypeText : String := "WRONGTYPE Operation against a key holding the wrong kind of value"

/-- What the store says about a failure. -/
def CommandFault.message : CommandFault → String
  | .wrongType => wrongTypeText
  | .notInteger => "ERR value is not an integer or out of range"
  | .notDouble => "ERR One or more scores can't be converted into double"
  | .badWeights => "ERR syntax error"

namespace Keyspace

/-- A key space without keys. -/
def empty : Keyspace := ⟨∅, 0⟩

/-- What a key holds. -/
def data? (ks : Keyspace) (key : String) : Option Data := (ks.entries[key]?).map Entry.data

/-- The kind of what a key holds. -/
def kind? (ks : Keyspace) (key : String) : Option DataKind := (ks.data? key).map Data.kind

/-- The keys, in order. -/
def keys (ks : Keyspace) : List String := ks.entries.keys

/-- Keys that begin with a text: from the first key that is not less, as long as they do. -/
def scan (ks : Keyspace) (start : String) : List String :=
  (ks.keys.dropWhile (· < start)).takeWhile fun key => Text.startsWith key start

/-- The time a key has left, if it expires. -/
def timeLeft? (ks : Keyspace) (key : String) : Option Nat := do
  let e ← ks.entries[key]?
  let t ← e.expiresAt
  return t - ks.now

/-- Whether an entry is still there at a time. -/
def isAlive (now : Nat) (e : Entry) : Bool :=
  match e.expiresAt with
  | some t => now < t
  | none => true

/-- Moves to a time and drops the keys that have expired by then. -/
def sweep (ks : Keyspace) (now : Nat) : Keyspace :=
  ⟨ks.entries.filter fun _ e => isAlive now e, now⟩

/-- The set that a key holds. -/
def set? (ks : Keyspace) (key : String) : Except CommandFault (Option Members) :=
  match ks.data? key with
  | none => .ok none
  | some (.set s) => .ok (some s)
  | some _ => .error .wrongType

/-- The sorted set that a key holds. -/
def sortedSet? (ks : Keyspace) (key : String) : Except CommandFault (Option (Table Double)) :=
  match ks.data? key with
  | none => .ok none
  | some (.sortedSet z) => .ok (some z)
  | some _ => .error .wrongType

/-- The list that a key holds. -/
def list? (ks : Keyspace) (key : String) : Except CommandFault (Option (List String)) :=
  match ks.data? key with
  | none => .ok none
  | some (.list l) => .ok (some l)
  | some _ => .error .wrongType

/-- The hash that a key holds. -/
def hash? (ks : Keyspace) (key : String) : Except CommandFault (Option (Table String)) :=
  match ks.data? key with
  | none => .ok none
  | some (.hash h) => .ok (some h)
  | some _ => .error .wrongType

/-- The members of a set, sorted set or list, in order. -/
def members (ks : Keyspace) (key : String) : Except CommandFault (List String) :=
  match ks.data? key with
  | none => .ok []
  | some (.set s) => .ok s.toList
  | some (.sortedSet z) => .ok ((byScore z).map Prod.fst)
  | some (.list l) => .ok l
  | some _ => .error .wrongType

/-- The members of a sorted set with their scores; those of a set have the score one. -/
def scored (ks : Keyspace) (key : String) : Except CommandFault (Table Double) :=
  match ks.data? key with
  | none => .ok ∅
  | some (.set s) => .ok (Table.insertAll ∅ (s.toList.map fun m => (m, .one)))
  | some (.sortedSet z) => .ok z
  | some _ => .error .wrongType

/-- Puts data under a key that keeps its time of expiry; an empty collection removes the key. -/
def update (ks : Keyspace) (key : String) (data : Data) : Keyspace :=
  if data.isEmpty then { ks with entries := ks.entries.erase key }
  else
    { ks with entries := ks.entries.insert key ⟨data, (ks.entries[key]?).bind Entry.expiresAt⟩ }

/-- Puts data under a key that does not expire; an empty collection removes the key. -/
def replace (ks : Keyspace) (key : String) (data : Data) : Keyspace :=
  if data.isEmpty then { ks with entries := ks.entries.erase key }
  else { ks with entries := ks.entries.insert key ⟨data, none⟩ }

/-- Lets a key expire at a time. -/
def expire (ks : Keyspace) (key : String) (time : Nat) : Keyspace :=
  match ks.entries[key]? with
  | some e => { ks with entries := ks.entries.insert key { e with expiresAt := some time } }
  | none => ks

/-- A key space without some of its keys. -/
def delete (ks : Keyspace) (keys : List String) : Keyspace :=
  { ks with entries := Table.eraseAll ks.entries keys }

end Keyspace

/-- A change of the key space that may fail, and answers if it does not. -/
abbrev Step (α : Type) := ExceptT CommandFault (StateM Keyspace) α

namespace Step

/-- Reads the key space. -/
def read {α : Type} (f : Keyspace → Except CommandFault α) : Step α := do
  match f (← get) with
  | .ok a => return a
  | .error e => throw e

/-- Deletes keys, and counts those that were there. -/
def delete (keys : List String) : Step Nat := do
  let ks ← get
  let left := ks.delete keys
  set left
  return ks.entries.size - left.entries.size

/-- Adds one to the integer of a key. -/
def increment (key : String) : Step Int := do
  let ks ← get
  let current ← match ks.data? key with
    | none => pure (0 : Int)
    | some (.string s) =>
      match Number.readInt64? s with
      | some n => pure n.toInt
      | none => throw .notInteger
    | some _ => throw .wrongType
  if Number.fitsInt64 (current + 1) then
    set (ks.update key (.string (Number.intText (current + 1))))
    return current + 1
  else throw .notInteger

/-- Adds members to a set, and counts the new ones. -/
def addMembers (key : String) (members : List String) : Step Nat := do
  if members.isEmpty then return 0
  let before := (← read (·.set? key)).getD ∅
  let after := Members.insertAll before members
  modify (·.update key (.set after))
  return after.size - before.size

/-- Removes members from a set, and counts those that were there. -/
def removeMembers (key : String) (members : List String) : Step Nat := do
  match ← read (·.set? key) with
  | none => return 0
  | some before =>
    let after := Members.eraseAll before members
    modify (·.update key (.set after))
    return before.size - after.size

/-- Adds members with scores to a sorted set, and counts the new ones. -/
def addScored (key : String) (items : List (Double × String)) : Step Nat := do
  if items.isEmpty then return 0
  let before := (← read (·.sortedSet? key)).getD ∅
  let after := Table.insertAll before (items.map fun (score, m) => (m, score))
  modify (·.update key (.sortedSet after))
  return after.size - before.size

/-- Removes members from a sorted set, and counts those that were there. -/
def removeScored (key : String) (members : List String) : Step Nat := do
  match ← read (·.sortedSet? key) with
  | none => return 0
  | some before =>
    let after := Table.eraseAll before members
    modify (·.update key (.sortedSet after))
    return before.size - after.size

/-- Sets fields of a hash, and counts the new ones. -/
def setFields (key : String) (pairs : List (String × String)) : Step Nat := do
  if pairs.isEmpty then return 0
  let before := (← read (·.hash? key)).getD ∅
  let after := Table.insertAll before pairs
  modify (·.update key (.hash after))
  return after.size - before.size

/-- Removes fields from a hash, and counts those that were there. -/
def removeFields (key : String) (fields : List String) : Step Nat := do
  match ← read (·.hash? key) with
  | none => return 0
  | some before =>
    let after := Table.eraseAll before fields
    modify (·.update key (.hash after))
    return before.size - after.size

/-- Adds items at the end of a list, and answers its length. -/
def pushItems (key : String) (items : List String) : Step Nat := do
  let before := (← read (·.list? key)).getD []
  let after := before ++ items
  modify (·.update key (.list after))
  return after.length

end Step

end KeyedRecords
