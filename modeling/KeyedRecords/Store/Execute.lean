import KeyedRecords.Number.Binary64
import KeyedRecords.Slice
import KeyedRecords.Store.Algebra
import KeyedRecords.Store.CommitScript
import KeyedRecords.Store.Reply
import KeyedRecords.Store.Sorting

/-!
# Executing commands

The reply to each command, and what it does to the key space.
-/

namespace KeyedRecords

/-- A truth value as the store answers it. -/
def Reply.flag (b : Bool) : Reply := .int (if b then 1 else 0)

/-- A count as the store answers it. -/
def Reply.count (n : Nat) : Reply := .int n

/-- A number of milliseconds in whole seconds, rounded up. The seconds are a double before, and at
most the greatest integer of 64 bits afterwards. -/
def wholeSeconds (milliseconds : Nat) : Nat :=
  let seconds := Number.nearest false (milliseconds / 1000) 1
  let rest := Number.nearest false (milliseconds % 1000) 1000
  min (seconds.add rest).roundUp 9223372036854775807

namespace Keyspace

/-- The seconds that a key has left; -1 if it does not expire and -2 if it does not exist. -/
def ttl (ks : Keyspace) (key : String) : Int :=
  match ks.entries[key]? with
  | none => -2
  | some e =>
    match e.expiresAt with
    | none => -1
    | some t => wholeSeconds (t - ks.now)

/-- The members between two ranks of a sorted set. -/
def rankRange (z : Table Double) (start stop : Int) (reversed : Bool) : List String :=
  let items := (byScore z).map Prod.fst
  Slice.between (if reversed then items.reverse else items) start stop

end Keyspace

namespace Step

/-- What a command does, and its reply if it does not fail. Times are not bounded here: a key can be
given any number of seconds to live, where a clock with a greatest time would stop the server. -/
def ofCommand : Command → Step Reply
  | .get key => do
    match (← get).data? key with
    | none => return .nil
    | some (.string s) => return .text s
    | some _ => throw .wrongType
  | .set key value => do
    modify (·.replace key (.string value))
    return .ok
  | .del keys => return .count (← Step.delete keys)
  | .existsKey key => return .flag ((← get).entries.contains key)
  | .expire key seconds => do
    let ks ← get
    set (ks.expire key (ks.now + 1000 * seconds))
    return .flag (ks.entries.contains key)
  | .ttl key => return .int ((← get).ttl key)
  | .incr key => return .int (← Step.increment key)
  | .sadd key members => return .count (← Step.addMembers key members)
  | .srem key members => return .count (← Step.removeMembers key members)
  | .smembers key => return .list (((← Step.read (·.set? key)).map (·.toList)).getD [])
  | .scard key => return .count (((← Step.read (·.set? key)).map (·.size)).getD 0)
  | .sismember key member => return .flag ((← Step.read (·.set? key)).any (·.contains member))
  | .sinterstore dest keys => return .count (← Step.storeSets dest keys Members.interAll)
  | .sunionstore dest keys => return .count (← Step.storeSets dest keys Members.unionAll)
  | .sdiffstore dest keys => return .count (← Step.storeSets dest keys Members.diffAll)
  | .zadd key items => return .count (← Step.addScored key items)
  | .zrem key members => return .count (← Step.removeScored key members)
  | .zrange key start stop reversed => do
    let z := (← Step.read (·.sortedSet? key)).getD ∅
    return .list (Keyspace.rankRange z start stop reversed)
  | .zcard key => return .count (((← Step.read (·.sortedSet? key)).map (·.size)).getD 0)
  | .zscore key member => do
    match (← Step.read (·.sortedSet? key)).bind fun z => z[member]? with
    | some score => return .float score
    | none => return .nil
  | .zinterstore dest keys weights aggregate =>
    return .count (← Step.storeSorted dest keys weights (Table.interAll aggregate))
  | .zunionstore dest keys weights aggregate =>
    return .count (← Step.storeSorted dest keys weights (Table.unionAll aggregate))
  | .zdiffstore dest keys => return .count (← Step.storeSortedDiff dest keys)
  | .hset key pairs => return .count (← Step.setFields key pairs)
  | .hget key field => do
    match (← Step.read (·.hash? key)).bind fun h => h[field]? with
    | some value => return .text value
    | none => return .nil
  | .hdel key fields => return .count (← Step.removeFields key fields)
  | .hgetall key => return .pairs (((← Step.read (·.hash? key)).map (·.toList)).getD [])
  | .hmget key fields => do
    let h := (← Step.read (·.hash? key)).getD ∅
    return .optional (fields.map fun f => h[f]?)
  | .rpush key items => return .count (← Step.pushItems key items)
  | .lrange key start stop => do
    return .list (Slice.between ((← Step.read (·.list? key)).getD []) start stop)
  | .llen key => return .count (((← Step.read (·.list? key)).map (·.length)).getD 0)
  | .sort key pattern? descending alpha dest => do
    let items ← Step.read (·.sorted key pattern? descending alpha)
    match dest with
    | some dest => return .count (← Step.store dest (.list items) items.length)
    | none => return .list items
  | .eval (.resolveUnique hash values dest ids) =>
    return .count (← Step.resolveUnique hash values dest ids)
  | .eval (.commit batch) => return .commit (← CommitScript.run batch)

end Step

namespace Keyspace

/-- The reply to a command, and the key space behind it. -/
def execute (ks : Keyspace) (c : Command) : Reply × Keyspace :=
  match (ExceptT.run (Step.ofCommand c)).run ks with
  | (.ok reply, ks) => (reply, ks)
  | (.error e, ks) => (.error e.message, ks)

/-- The replies to commands one after another. -/
def executeAll (ks : Keyspace) : List Command → List Reply × Keyspace
  | [] => ([], ks)
  | c :: rest =>
    let (reply, ks) := ks.execute c
    let (replies, ks) := executeAll ks rest
    (reply :: replies, ks)

end Keyspace

end KeyedRecords
