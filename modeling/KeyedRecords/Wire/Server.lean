import KeyedRecords.Json.Access
import KeyedRecords.Store.Server

/-!
# Documents of servers

How the contents of a server and its counters are written. Temporary keys are only counted.
-/

namespace KeyedRecords

/-- The document of what a key holds. -/
def Data.toJson : Data → Json
  | .string s => .text s
  | .set s => .ofTexts s.toList
  | .sortedSet z => .ofList (fun (m, x) => .list [.text m, .ofDouble x]) (byScore z)
  | .list items => .ofTexts items
  | .hash fields => .ofPairs fields.toList

/-- The document of counters. -/
def ServerStats.toJson (s : ServerStats) : Json := .ofMembers [
  ("round_trips", .ofNat s.roundTrips), ("commands", .ofNat s.commands),
  ("expired", .ofNat s.expired)]

/-- Whether a key looks like a temporary one. -/
def isTemporaryKey (key : String) : Bool := (Text.cut? ":tmp:" key).isSome

/-- The document of all keys: their kinds, what they hold, and the time they have left. -/
def Keyspace.toJson (ks : Keyspace) : Json :=
  let (temporary, keys) := ks.entries.toList.partition fun (key, _) => isTemporaryKey key
  .ofMembers [
    ("keys", .ofList (fun (key, e) => .list [.text key, .text e.data.kind.name, e.data.toJson,
      .ofNat? (ks.timeLeft? key)]) keys),
    ("temps", .ofNat temporary.length)]

end KeyedRecords
