import KeyedRecords.Client.Basic
import KeyedRecords.Query.Lowering
import KeyedRecords.Slice

/-!
# Result sets

A result set is a plan together with whether its commands have been sent. They are sent once, in
front of the first read; later reads use the temporary keys until these expire. `refresh` sends them
again.
-/

namespace KeyedRecords

/-- A plan and whether it has been carried out. -/
structure ResultSet where
  layout : Layout
  plan : Plan
  /-- Whether the commands of the plan have been sent. -/
  materialized : Bool

namespace ResultSet

/-- An operation on a result set and a client. -/
abbrev Reading (α : Type) := Operation (ResultSet × Client) α

/-- An operation on the client alone. -/
def viaClient {α : Type} (op : Operation Client α) : Reading α :=
  Operation.on Prod.snd (fun c s => (s.1, c)) op

def current : Reading ResultSet := do return (← get).1

/-- Says whether the commands of the plan have been sent. -/
def setMaterialized (b : Bool) : Reading Unit :=
  modify fun (r, c) => ({ r with materialized := b }, c)

/-- Stops at the first reply that reports a failure. -/
def checkReplies {σ : Type} : List Reply → Operation σ Unit
  | [] => pure ()
  | reply :: rest => do
    discard (Operation.ofExcept reply.check)
    checkReplies rest

/-- The replies to reads, behind the commands of the plan if these have not been sent. -/
def run (reads : List Command) : Reading (List Reply) := do
  viaClient Client.checkpoint
  let r ← current
  let ahead := if r.materialized then [] else r.plan.commands
  let expected := ahead.length + reads.length
  let replies ← viaClient (Client.pipeline (ahead ++ reads))
  if replies.length ≠ expected then
    let sent := Number.intText expected
    let got := Number.intText replies.length
    throw (.failed (.protocol s!"pipeline of {sent} commands answered with {got} replies"))
  checkReplies (replies.take ahead.length)
  unless ahead.isEmpty do setMaterialized true
  return replies.drop ahead.length

def runOne (read : Command) : Reading Reply := do
  match ← run [read] with
  | reply :: _ => return reply
  | [] => throw (.failed (.protocol "missing reply to query read"))

/-- Sends the commands of the plan again. -/
def refresh : Reading Unit := do
  unless (← current).plan.commands.isEmpty do
    setMaterialized false
    discard (run [])

/-- The number of ids. -/
def count : Reading Nat := do
  let size (c : Command) : Reading Nat := do
    return (← Operation.ofExcept (← runOne c).asInt).toNat
  match (← current).plan.reader with
  | .empty => return 0
  | .set key => size (.scard key)
  | .sorted key _ => size (.zcard key)
  | .list key => size (.llen key)

/-- Whether an id is among the results. -/
def contains (id : String) : Reading Bool := do
  let plan := (← current).plan
  match plan.source with
  | none => return false
  | some key =>
    if plan.ordered then
      return (← Operation.ofExcept (← runOne (.zscore key id)).asDouble?).isSome
    else Operation.ofExcept (← runOne (.sismember key id)).asBool

/-- The ids that one read answers. -/
def readIds (read : Command) : Reading (List String) := do
  Operation.ofExcept (← runOne read).asList

/-- The ids of a half-open slice, in the order of the results. -/
def ids (start : Int) (stop : Option Int) : Reading (List String) := do
  match (← current).plan.reader with
  | .empty => return []
  | .set key => return Slice.slice (← readIds (.smembers key)) start stop
  | .sorted key reversed =>
    match Slice.toInclusive? start stop with
    | none => return []
    | some (first, last) => readIds (.zrange key first last reversed)
  | .list key =>
    match Slice.toInclusive? start stop with
    | none => return []
    | some (first, last) => readIds (.lrange key first last)

/-- The fields that are read if a projection asks for some: the identity first, and only once. -/
def projected (l : Layout) (fields : List String) : List String :=
  l.identity.name :: fields.filter (· != l.identity.name)

/-- The command that reads a record. -/
def recordCommand (l : Layout) (fields : Option (List String)) (id : String) : Command :=
  match fields with
  | some names => .hmget (l.keys.object id) names
  | none => .hgetall (l.keys.object id)

/-- The stored texts that a reply answers. -/
def storedPairs (fields : Option (List String)) (reply : Reply) :
    Except Error (List (String × String)) :=
  match fields with
  | some names => do
    return (names.zip (← reply.asOptional)).filterMap fun (name, value) => value.map (name, ·)
  | none => reply.asPairs

/-- The records of ids and their replies; an id without a record is passed over. -/
def readRecords (l : Layout) (fields : Option (List String)) :
    List (String × Reply) → Except Error (List (String × Record))
  | [] => .ok []
  | (id, reply) :: rest => do
    let pairs ← storedPairs fields reply
    if pairs.isEmpty then readRecords l fields rest
    else
      let record ← Record.ofHash l id pairs
      return (id, record) :: (← readRecords l fields rest)

/-- The records of ids, with some fields only if so asked. -/
def records (l : Layout) (ids : List String) (fields : Option (List String)) :
    Operation Client (List (String × Record)) := do
  if ids.isEmpty then return []
  let fields := fields.map (projected l)
  Client.checkpoint
  let replies ← Client.pipeline (ids.map (recordCommand l fields))
  if replies.length ≠ ids.length then
    let sent := Number.intText ids.length
    let got := Number.intText replies.length
    throw (.failed (.protocol s!"record fetch of {sent} ids answered with {got} replies"))
  Operation.ofExcept (readRecords l fields (ids.zip replies))

end ResultSet

end KeyedRecords
