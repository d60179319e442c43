import KeyedRecords.Client.Fault
import KeyedRecords.Store.Server

/-!
# Clients

A client talks to one server. It can be told to stop, and it hands out numbers that nothing has used
yet: for sessions, for transactions, and for the names of temporary keys and placeholders.
-/

namespace KeyedRecords

/-- The numbers that come next. -/
structure Supply where
  /-- The number of the next session. -/
  session : Nat
  /-- The number of the next transaction. -/
  transaction : Nat
  /-- The number of the next temporary key or placeholder. -/
  name : Nat
deriving DecidableEq

/-- The numbers before any is used. -/
def Supply.initial : Supply := ⟨1, 1, 1⟩

/-- The client's side of a store. -/
structure Client where
  /-- The server it talks to. -/
  server : Server
  /-- How the link to the server misbehaves. -/
  fault : Fault
  /-- Whether all further operations are to stop. -/
  cancelled : Bool
  /-- Numbers that nothing has used yet. -/
  supply : Supply

/-- Why an operation did not finish. -/
inductive Stop where
  | failed (e : Error)
  /-- It was told to stop. -/
  | cancelled

/-- An operation on a state of type `σ`; what it has changed before it stops stays changed. -/
abbrev Operation (σ α : Type) := ExceptT Stop (StateM σ) α

/-- A result that may be an error, as an operation. -/
def Operation.ofExcept {σ α : Type} : Except Error α → Operation σ α
  | .ok a => pure a
  | .error e => throw (.failed e)

/-- Runs an operation on a part of the state. -/
def Operation.on {σ τ α : Type} (part : σ → τ) (replace : τ → σ → σ) (op : Operation τ α) :
    Operation σ α :=
  ExceptT.mk fun s =>
    match (ExceptT.run op).run (part s) with
    | (result, t) => (result, replace t s)

namespace Client

/-- A client of a server, with a link that works. -/
def ofServer (server : Server) : Client := ⟨server, .none, false, .initial⟩

/-- The replies to a pipeline, as they reach the client. -/
def pipeline (commands : List Command) : Operation Client (List Reply) := do
  let client ← get
  match client.fault with
  | .disconnect => throw (.failed (.connection ⟨.disconnected, "gone", none⟩))
  | fault =>
    let (replies, server) := client.server.pipeline commands
    set { client with server }
    return fault.deliver replies

def execute (c : Command) : Operation Client Reply := do
  match (← pipeline [c]).getLast? with
  | some reply => return reply
  | none => throw (.failed (.protocol "empty reply to single command"))

/-- Stops if the client has been told to. -/
def checkpoint : Operation Client Unit := do
  if (← get).cancelled then throw .cancelled

/-- The number of a new session. -/
def newSession : Operation Client SessionId := do
  let client ← get
  let n := client.supply.session
  set { client with supply := { client.supply with session := n + 1 } }
  return ⟨n⟩

/-- The number of a new transaction. -/
def newTransaction : Operation Client TransactionId := do
  let client ← get
  let n := client.supply.transaction
  set { client with supply := { client.supply with transaction := n + 1 } }
  return ⟨n⟩

/-- Sets numbers aside for names; the first of them. -/
def reserveNames (count : Nat) : Operation Client Nat := do
  let client ← get
  let n := client.supply.name
  set { client with supply := { client.supply with name := n + count } }
  return n

/-- A placeholder that nothing has used yet. -/
def newPlaceholder : Operation Client IdentityKey := do
  return IdentityKey.placeholder (← reserveNames 1)

end Client

end KeyedRecords
