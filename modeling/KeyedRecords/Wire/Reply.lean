import KeyedRecords.Client.Basic
import KeyedRecords.Wire.Command
import KeyedRecords.Wire.Error

/-!
# Documents of replies

A reply is a list that begins with its kind. Faults of links are read from documents too, and
results of operations are written to them.
-/

namespace KeyedRecords

/-- The document of the result of a write. -/
def WriteReply.toJson (w : WriteReply) : Json :=
  match w.result with
  | .ok ack => .ofMembers [("identity", .text w.identity), ("id", .text ack.id),
      ("version", .ofInt? ack.version)]
  | .error e => .ofMembers [("identity", .text w.identity), ("error", e.toJson)]

def BatchReply.toJson (r : BatchReply) : Json := .ofMembers [
  ("writes", .ofList WriteReply.toJson r.writes), ("deleted", .ofTexts r.deleted),
  ("failed_deletes", .ofList (fun (id, e) => .list [.text id, e.toJson]) r.failedDeletes)]

def Reply.toJson : Reply → Json
  | .nil => .tagged "nil" []
  | .ok => .tagged "ok" []
  | .int n => .tagged "int" [.int n]
  | .float x => .tagged "float" [.ofDouble x]
  | .text s => .tagged "text" [.text s]
  | .list items => .tagged "list" [.ofTexts items]
  | .optional items => .tagged "optional" [.ofList Json.ofText? items]
  | .pairs items => .tagged "pairs" [.ofPairs items]
  | .error message => .tagged "error" [.text message]
  | .commit r => .tagged "commit" [r.toJson]

/-- The reply that a document describes; of a batch, only the deleted ids. -/
def Reply.ofJson (j : Json) : Reply :=
  let first := j.item 1
  match (j.item 0).asText with
  | "ok" => .ok
  | "int" => .int first.asInt
  | "float" => .float first.asDouble
  | "text" => .text first.asText
  | "list" => .list first.asTexts
  | "optional" => .optional (first.items.map Json.asText?)
  | "pairs" => .pairs first.asPairs
  | "error" => .error first.asText
  | "commit" => .commit { BatchReply.empty with deleted := first.asTexts }
  | _ => .nil

def Forgery.ofName : String → Forgery
  | "drop_write" => .dropWrite
  | "ghost" => .ghost
  | "twice" => .twice
  | "bad_id" => .badId
  | "versioned" => .versioned
  | _ => .deleted

/-- The fault that a document describes. -/
def Fault.ofJson (j : Json) : Fault :=
  match j with
  | .text "disconnect" => .disconnect
  | .text "drop_last" => .dropLast
  | .text "drop_all" => .dropAll
  | .text "extra" => .extra
  | .object _ =>
    if j.has "error_at" then .replace (j.get "error_at").asInt (.error (j.get "message").asText)
    else if j.has "ok_at" then .replace (j.get "ok_at").asInt .ok
    else .forge (.ofName (j.get "forge").asText)
  | _ => .none

/-- The document of what an operation answers, or why it stopped. -/
def Json.ofResult {α : Type} (f : α → Json) : Except Stop α → Json
  | .ok a => f a
  | .error (.failed e) => e.toJson
  | .error .cancelled => .object [("outcome", .text "Cancelled")]

end KeyedRecords
