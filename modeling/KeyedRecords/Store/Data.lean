import KeyedRecords.Number.Double
import Std.Data.ExtTreeMap
import Std.Data.ExtTreeSet

/-!
# What a key holds

A key holds a text, a set, a sorted set, a list or a hash, and may expire. Maps and sets are
extensional: two of them with the same entries are equal. All of them are kept in the order of
their keys.
-/

namespace KeyedRecords

/-- A map from texts, in the order of the texts. -/
abbrev Table (β : Type) := Std.ExtTreeMap String β compare

/-- A set of texts, in their order. -/
abbrev Members := Std.ExtTreeSet String compare

/-- A table with more entries; later ones replace earlier ones. -/
def Table.insertAll {β : Type} (t : Table β) (entries : List (String × β)) : Table β :=
  entries.foldl (fun t (k, v) => t.insert k v) t

/-- A table without some of its keys. -/
def Table.eraseAll {β : Type} (t : Table β) (keys : List String) : Table β :=
  keys.foldl (fun t k => t.erase k) t

/-- A set with more members. -/
def Members.insertAll (s : Members) (members : List String) : Members :=
  members.foldl (fun s m => s.insert m) s

/-- A set without some of its members. -/
def Members.eraseAll (s : Members) (members : List String) : Members :=
  members.foldl (fun s m => s.erase m) s

/-- The kinds of values that keys hold. -/
inductive DataKind where
  /-- A text. -/
  | string
  | set
  | sortedSet
  | list
  | hash
deriving DecidableEq

/-- What a kind is called in messages. -/
def DataKind.name : DataKind → String
  | .string => "String"
  | .set => "Set"
  | .sortedSet => "SortedSet"
  | .list => "List"
  | .hash => "Hash"

/-- What a key holds. -/
inductive Data where
  /-- A text. -/
  | string (s : String)
  | set (members : Members)
  /-- A sorted set: members with their scores. -/
  | sortedSet (scores : Table Double)
  | list (items : List String)
  /-- A hash: fields with their texts. -/
  | hash (fields : Table String)

namespace Data

/-- The kind of a value. -/
def kind : Data → DataKind
  | .string _ => .string
  | .set _ => .set
  | .sortedSet _ => .sortedSet
  | .list _ => .list
  | .hash _ => .hash

/-- Whether a collection has no members. A text is never empty in this sense. -/
def isEmpty : Data → Bool
  | .string _ => false
  | .set s => s.isEmpty
  | .sortedSet z => z.isEmpty
  | .list l => l.isEmpty
  | .hash h => h.isEmpty

end Data

/-- A key's value and when it expires. -/
structure Entry where
  /-- The value. -/
  data : Data
  /-- The time of expiry, in milliseconds. -/
  expiresAt : Option Nat

/-- Whether one scored member comes before another: by score in the total order of doubles, and by
name among equal scores. -/
def scoredLE (a b : String × Double) : Bool :=
  let s := a.2.totalKey
  let t := b.2.totalKey
  s < t || (s == t && a.1 ≤ b.1)

/-- The members of a sorted set with their scores, in order. -/
def byScore (z : Table Double) : List (String × Double) := z.toList.mergeSort scoredLE

end KeyedRecords
