import KeyedRecords.Json.Access
import KeyedRecords.Store.Command

/-!
# Documents of commands

A command is a list that begins with its name. Batches can be read; no plan holds one, so they are
written by name alone.
-/

namespace KeyedRecords

def Aggregate.ofName : String → Aggregate
  | "min" => .min
  | "max" => .max
  | _ => .sum

def Aggregate.name : Aggregate → String
  | .sum => "sum"
  | .min => "min"
  | .max => "max"

/-- The source of ids that a document describes. -/
def DeleteSource.ofJson (j : Json) : DeleteSource :=
  match j.get "key" with
  | .text name => .key name
  | _ => .ids (j.get "ids").asTexts

/-- The write that a document describes. -/
def InstanceWrite.ofJson (j : Json) : InstanceWrite :=
  { identity := (j.get "identity").asText, id := (j.get "id").asText?
    fields := (j.get "fields").asPairs, indexValues := (j.get "index_values").asPairs
    score := (j.get "score").asText?.bind Number.readDouble?
    expectedVersion := (j.get "expected_version").asInt? }

/-- The batch that a document describes. -/
def Batch.ofJson (j : Json) : Batch :=
  { model := (j.get "model").asText
    keys := .ofModel (j.get "namespace").asText (j.get "model").asText
    identity := (j.get "identity").asText
    indices := (j.get "indices").items.map fun p => ⟨(p.item 0).asText, (p.item 1).isTrue⟩
    ordered := (j.get "ordered").isTrue, autoId := (j.get "auto_id").isTrue
    versionField := (j.get "version_field").asText?, structures := (j.get "structures").asTexts
    writes := (j.get "writes").items.map .ofJson
    deletes := (j.get "deletes").items.map .ofJson }

/-- The weights that a document gives, if it gives any. -/
def weightsOfJson : Json → Option (List Double)
  | .list items => some (items.map Json.asDouble)
  | _ => none

/-- The command that a document describes. -/
def Command.ofJson (j : Json) : Command :=
  let s (i : Nat) := (j.item i).asText
  let l (i : Nat) := (j.item i).asTexts
  let n (i : Nat) := (j.item i).asInt
  let flag (i : Nat) := (j.item i).isTrue
  match s 0 with
  | "GET" => .get (s 1)
  | "SET" => .set (s 1) (s 2)
  | "DEL" => .del (l 1)
  | "EXISTS" => .existsKey (s 1)
  | "EXPIRE" => .expire (s 1) (j.item 2).asNat
  | "TTL" => .ttl (s 1)
  | "INCR" => .incr (s 1)
  | "SADD" => .sadd (s 1) (l 2)
  | "SREM" => .srem (s 1) (l 2)
  | "SMEMBERS" => .smembers (s 1)
  | "SCARD" => .scard (s 1)
  | "SISMEMBER" => .sismember (s 1) (s 2)
  | "SINTERSTORE" => .sinterstore (s 1) (l 2)
  | "SUNIONSTORE" => .sunionstore (s 1) (l 2)
  | "SDIFFSTORE" => .sdiffstore (s 1) (l 2)
  | "ZADD" => .zadd (s 1) ((j.item 2).items.map fun p => ((p.item 0).asDouble, (p.item 1).asText))
  | "ZREM" => .zrem (s 1) (l 2)
  | "ZRANGE" => .zrange (s 1) (n 2) (n 3) (flag 4)
  | "ZCARD" => .zcard (s 1)
  | "ZSCORE" => .zscore (s 1) (s 2)
  | "ZINTERSTORE" => .zinterstore (s 1) (l 2) (weightsOfJson (j.item 3)) (.ofName (s 4))
  | "ZUNIONSTORE" => .zunionstore (s 1) (l 2) (weightsOfJson (j.item 3)) (.ofName (s 4))
  | "ZDIFFSTORE" => .zdiffstore (s 1) (l 2)
  | "HSET" => .hset (s 1) (j.item 2).asPairs
  | "HGET" => .hget (s 1) (s 2)
  | "HDEL" => .hdel (s 1) (l 2)
  | "HGETALL" => .hgetall (s 1)
  | "HMGET" => .hmget (s 1) (l 2)
  | "RPUSH" => .rpush (s 1) (l 2)
  | "LRANGE" => .lrange (s 1) (n 2) (n 3)
  | "LLEN" => .llen (s 1)
  | "SORT" => .sort (s 1) (j.item 2).asText? (flag 3) (flag 4) (j.item 5).asText?
  | "RESOLVEUNIQUE" => .eval (.resolveUnique (s 1) (l 2) (s 3) (j.item 4).asText?)
  | _ => .eval (.commit (.ofJson (j.item 1)))

/-- A list that begins with a name. -/
def Json.tagged (name : String) (rest : List Json) : Json := .list (.text name :: rest)

/-- The arguments of commands that combine sorted sets. -/
def combinedArguments (dest : String) (keys : List String) (weights : Option (List Double))
    (aggregate : Aggregate) : List Json :=
  [.text dest, .ofTexts keys, .ofOption (.ofList Json.ofDouble) weights, .text aggregate.name]

/-- The document of a command that a plan can hold. -/
def Command.toJson (c : Command) : Json :=
  match c with
  | .expire key seconds => .tagged c.name [.text key, .ofNat seconds]
  | .sadd key members => .tagged c.name [.text key, .ofTexts members]
  | .sinterstore dest keys | .sunionstore dest keys | .sdiffstore dest keys
  | .zdiffstore dest keys => .tagged c.name [.text dest, .ofTexts keys]
  | .zinterstore dest keys weights aggregate | .zunionstore dest keys weights aggregate =>
    .tagged c.name (combinedArguments dest keys weights aggregate)
  | .sort key pattern? descending alpha dest =>
    .tagged c.name
      [.text key, .ofText? pattern?, .bool descending, .bool alpha, .ofText? dest]
  | .eval (.resolveUnique hash values dest ids) =>
    .tagged "RESOLVEUNIQUE" [.text hash, .ofTexts values, .text dest, .ofText? ids]
  | _ => .tagged c.name []

end KeyedRecords
