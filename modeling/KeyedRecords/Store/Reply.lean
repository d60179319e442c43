import KeyedRecords.Commit.Batch

/-!
# Replies

What the store answers to a command. The accessors (`asInt` and the like) take what a command should
answer with; anything else is an error, which shows the reply.
-/

namespace KeyedRecords

/-- The answer to a command. -/
inductive Reply where
  /-- Nothing there. -/
  | nil
  /-- Done. -/
  | ok
  | int (n : Int)
  /-- A score. -/
  | float (x : Double)
  | text (s : String)
  /-- Texts. -/
  | list (items : List String)
  /-- Texts, some of them missing. -/
  | optional (items : List (Option String))
  /-- Fields and their texts. -/
  | pairs (items : List (String × String))
  /-- What became of a batch. -/
  | commit (reply : BatchReply)
  /-- The command failed. -/
  | error (message : String)

namespace Reply

/-- Two items as messages show a pair. -/
def shownPair (a b : String) : String := "(" ++ a ++ ", " ++ b ++ ")"

/-- A record as messages show it. -/
def shownFields (name : String) (fields : List (String × String)) : String :=
  name ++ " \x7b " ++ Text.joined ", " (fields.map fun (f, v) => f ++ ": " ++ v) ++ " \x7d"

/-- A refusal as messages show it. -/
def shownRefusal (e : BackendError) : String :=
  shownFields "BackendError"
    [("kind", e.problem.name), ("key", Text.optional (e.key.map Text.quoted)),
      ("message", Text.quoted e.message)]

/-- The result of a write as messages show it. -/
def shownResult : Except BackendError WriteAck → String
  | .ok ack =>
    let version := Text.optional (ack.version.map Number.intText)
    "Ok(" ++ shownFields "WriteAck" [("id", Text.quoted ack.id), ("version", version)] ++ ")"
  | .error e => "Err(" ++ shownRefusal e ++ ")"

/-- The reply to a batch as messages show it. -/
def shownBatch (r : BatchReply) : String :=
  shownFields "CommitReply"
    [("writes", Text.bracketed (r.writes.map fun w =>
        shownFields "WriteReply"
          [("identity", "IdentityKey(" ++ Text.quoted w.identity ++ ")"),
            ("result", shownResult w.result)])),
      ("deleted", Text.bracketed (r.deleted.map Text.quoted)),
      ("failed_deletes", Text.bracketed (r.failedDeletes.map fun (id, e) =>
        shownPair (Text.quoted id) (shownRefusal e)))]

/-- A reply as messages show it. -/
def shown : Reply → String
  | .nil => "Nil"
  | .ok => "Ok"
  | .int n => "Int(" ++ Number.intText n ++ ")"
  | .float x => "Float(" ++ Number.floatText .shown x ++ ")"
  | .text s => "Text(" ++ Text.quoted s ++ ")"
  | .list items => "List(" ++ Text.bracketed (items.map Text.quoted) ++ ")"
  | .optional items =>
    "Optional(" ++ Text.bracketed (items.map fun s => Text.optional (s.map Text.quoted)) ++ ")"
  | .pairs items =>
    let shown := items.map fun (f, v) => shownPair (Text.quoted f) (Text.quoted v)
    "Pairs(" ++ Text.bracketed shown ++ ")"
  | .commit r => "Commit(" ++ shownBatch r ++ ")"
  | .error m => "Error(" ++ Text.quoted m ++ ")"

/-- The error that a failed command reports. -/
def failure (message : String) : Error :=
  let problem :=
    if Text.startsWith message "WRONGTYPE" then BackendProblem.wrongType else .script
  .backend ⟨problem, none, message⟩

/-- The error of a reply that is not what its command should answer with. -/
def unexpected (r : Reply) (expected : String) : Error :=
  match r with
  | .error message => failure message
  | r => .protocol s!"expected {expected} reply, got {r.shown}"

/-- Anything but a failure. -/
def check : Reply → Except Error Reply
  | .error message => .error (failure message)
  | r => .ok r

def asInt : Reply → Except Error Int
  | .int n => .ok n
  | r => .error (r.unexpected "integer")

/-- An integer as a truth value. -/
def asBool (r : Reply) : Except Error Bool := r.asInt.map (· != 0)

/-- A score, if there is one. -/
def asDouble? : Reply → Except Error (Option Double)
  | .float x => .ok (some x)
  | .nil => .ok none
  | r => .error (r.unexpected "float")

/-- A text, if there is one. -/
def asText? : Reply → Except Error (Option String)
  | .text s => .ok (some s)
  | .nil => .ok none
  | r => .error (r.unexpected "text")

/-- Texts. -/
def asList : Reply → Except Error (List String)
  | .list items => .ok items
  | r => .error (r.unexpected "list")

/-- Texts, some of them missing. -/
def asOptional : Reply → Except Error (List (Option String))
  | .optional items => .ok items
  | r => .error (r.unexpected "optional list")

/-- Fields and their texts. -/
def asPairs : Reply → Except Error (List (String × String))
  | .pairs items => .ok items
  | r => .error (r.unexpected "pairs")

/-- What became of a batch. -/
def asCommit : Reply → Except Error BatchReply
  | .commit r => .ok r
  | r => .error (r.unexpected "commit")

end Reply

end KeyedRecords
