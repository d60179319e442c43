import KeyedRecords.Store.Reply

/-!
# Faulty links

A link between a client and a server can be made to misbehave on purpose, so that what a client does
with missing, additional or wrong replies can be tried out. The server still runs every command,
unless the link is down.
-/

namespace KeyedRecords

/-- A false report of what became of a batch. -/
inductive Forgery where
  /-- The last write is not mentioned. -/
  | dropWrite
  /-- The first write is said to be of an instance that no one sent. -/
  | ghost
  /-- The first write is mentioned in the place of the last. -/
  | twice
  /-- Every accepted write is said to have an id that is no number. -/
  | badId
  /-- Every accepted write is said to have another version. -/
  | versioned
  /-- Ids that no one asked to delete are said to be deleted. -/
  | deleted
deriving DecidableEq

/-- How a link misbehaves. -/
inductive Fault where
  | none
  /-- The server is not reached. -/
  | disconnect
  /-- The last reply is lost. -/
  | dropLast
  /-- All replies are lost. -/
  | dropAll
  /-- There is one reply too many. -/
  | extra
  /-- The reply at a position is replaced; negative positions count from the end. -/
  | replace (position : Int) (reply : Reply)
  /-- Reports on batches are false. -/
  | forge (how : Forgery)

namespace Forgery

/-- Another result for every accepted write. -/
def mapAccepted (f : WriteAck → WriteAck) (writes : List WriteReply) : List WriteReply :=
  writes.map fun w => { w with result := w.result.map f }

/-- The false report that is made of a true one. -/
def apply (how : Forgery) (r : BatchReply) : BatchReply :=
  match how with
  | .dropWrite => { r with writes := r.writes.dropLast }
  | .ghost =>
    match r.writes with
    | first :: rest => { r with writes := { first with identity := "new:ghost" } :: rest }
    | [] => r
  | .twice =>
    match r.writes.head? with
    | some first => { r with writes := r.writes.dropLast ++ [first] }
    | none => r
  | .badId => { r with writes := mapAccepted (fun ack => { ack with id := "bad" }) r.writes }
  | .versioned =>
    { r with writes := mapAccepted (fun ack => { ack with version := some 77 }) r.writes }
  | .deleted => { r with deleted := ["1", "extra", "1"] }

/-- False reports on batches; all other replies stay. -/
def applyReply (how : Forgery) : Reply → Reply
  | .commit r => .commit (how.apply r)
  | r => r

end Forgery

namespace Fault

/-- The replies with the one at a position replaced; nothing if there is none. -/
def replaceAt (replies : List Reply) (position : Int) (reply : Reply) : List Reply :=
  let index := if position < 0 then position + replies.length else position
  if index < 0 then replies else replies.set index.toNat reply

/-- The replies that reach the client. -/
def deliver (fault : Fault) (replies : List Reply) : List Reply :=
  match fault with
  | .none | .disconnect => replies
  | .dropLast => replies.dropLast
  | .dropAll => []
  | .extra => replies ++ [.nil]
  | .replace position reply => replaceAt replies position reply
  | .forge how => replies.map how.applyReply

end Fault

end KeyedRecords
