import KeyedRecords.Commit.Batch

/-!
# Commands

The commands of a key-value store with texts, sets, sorted sets, lists and hashes, and two scripts
that run in one step: looking up unique values, and committing a batch.
-/

namespace KeyedRecords

/-- How the scores of one member in several sorted sets are combined. -/
inductive Aggregate where
  /-- Their sum. -/
  | sum
  /-- The least of them. -/
  | min
  /-- The greatest of them. -/
  | max
deriving DecidableEq

/-- A script that the store runs in one step. -/
inductive Script where
  /-- Stores the ids that own the values of a unique field under `dest`; with `ids`, only those of
  them in that sorted set, with their scores there. -/
  | resolveUnique (hash : String) (values : List String) (dest : String) (ids : Option String)
  /-- Deletes and writes the instances of a batch. -/
  | commit (batch : Batch)

/-- A command to the store. -/
inductive Command where
  /-- The text of a key. -/
  | get (key : String)
  /-- Sets the text of a key. -/
  | set (key value : String)
  /-- Deletes keys. -/
  | del (keys : List String)
  /-- Whether a key exists. -/
  | existsKey (key : String)
  /-- Lets a key expire after so many seconds. -/
  | expire (key : String) (seconds : Nat)
  /-- The seconds a key has left. -/
  | ttl (key : String)
  /-- Adds one to the integer of a key. -/
  | incr (key : String)
  /-- Adds members to a set. -/
  | sadd (key : String) (members : List String)
  /-- Removes members from a set. -/
  | srem (key : String) (members : List String)
  /-- The members of a set. -/
  | smembers (key : String)
  /-- The number of members of a set. -/
  | scard (key : String)
  /-- Whether a set has a member. -/
  | sismember (key member : String)
  /-- Stores the members that are in all sets. -/
  | sinterstore (dest : String) (keys : List String)
  /-- Stores the members that are in any set. -/
  | sunionstore (dest : String) (keys : List String)
  /-- Stores the members that are in the first set and in no other. -/
  | sdiffstore (dest : String) (keys : List String)
  /-- Adds members with scores to a sorted set. -/
  | zadd (key : String) (items : List (Double × String))
  /-- Removes members from a sorted set. -/
  | zrem (key : String) (members : List String)
  /-- The members between two ranks of a sorted set. -/
  | zrange (key : String) (start stop : Int) (reversed : Bool)
  /-- The number of members of a sorted set. -/
  | zcard (key : String)
  /-- The score of a member. -/
  | zscore (key member : String)
  /-- Stores the members that are in all sorted sets. -/
  | zinterstore (dest : String) (keys : List String) (weights : Option (List Double))
      (aggregate : Aggregate)
  /-- Stores the members that are in any sorted set. -/
  | zunionstore (dest : String) (keys : List String) (weights : Option (List Double))
      (aggregate : Aggregate)
  /-- Stores the members that are in the first sorted set and in no other. -/
  | zdiffstore (dest : String) (keys : List String)
  /-- Sets fields of a hash. -/
  | hset (key : String) (pairs : List (String × String))
  /-- A field of a hash. -/
  | hget (key field : String)
  /-- Deletes fields of a hash. -/
  | hdel (key : String) (fields : List String)
  /-- All fields of a hash. -/
  | hgetall (key : String)
  /-- Some fields of a hash. -/
  | hmget (key : String) (fields : List String)
  /-- Adds items at the end of a list. -/
  | rpush (key : String) (items : List String)
  /-- The items between two positions of a list. -/
  | lrange (key : String) (start stop : Int)
  /-- The number of items of a list. -/
  | llen (key : String)
  /-- Sorts the members of a key, by what a pattern leads to if there is one, and stores the list if
  so asked. -/
  | sort (key : String) (pattern? : Option String) (descending alpha : Bool) (dest : Option String)
  /-- Runs a script. -/
  | eval (script : Script)

def Command.name : Command → String
  | .get .. => "GET"
  | .set .. => "SET"
  | .del .. => "DEL"
  | .existsKey .. => "EXISTS"
  | .expire .. => "EXPIRE"
  | .ttl .. => "TTL"
  | .incr .. => "INCR"
  | .sadd .. => "SADD"
  | .srem .. => "SREM"
  | .smembers .. => "SMEMBERS"
  | .scard .. => "SCARD"
  | .sismember .. => "SISMEMBER"
  | .sinterstore .. => "SINTERSTORE"
  | .sunionstore .. => "SUNIONSTORE"
  | .sdiffstore .. => "SDIFFSTORE"
  | .zadd .. => "ZADD"
  | .zrem .. => "ZREM"
  | .zrange .. => "ZRANGE"
  | .zcard .. => "ZCARD"
  | .zscore .. => "ZSCORE"
  | .zinterstore .. => "ZINTERSTORE"
  | .zunionstore .. => "ZUNIONSTORE"
  | .zdiffstore .. => "ZDIFFSTORE"
  | .hset .. => "HSET"
  | .hget .. => "HGET"
  | .hdel .. => "HDEL"
  | .hgetall .. => "HGETALL"
  | .hmget .. => "HMGET"
  | .rpush .. => "RPUSH"
  | .lrange .. => "LRANGE"
  | .llen .. => "LLEN"
  | .sort .. => "SORT"
  | .eval .. => "EVAL"

end KeyedRecords
