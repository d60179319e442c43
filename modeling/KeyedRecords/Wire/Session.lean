import KeyedRecords.Session.Commit
import KeyedRecords.Session.ScriptedHandler
import KeyedRecords.Wire.Reply
import KeyedRecords.Wire.Value

/-!
# Documents of instances and sessions

How instances, the state of a session and the events of a commit are written, and how scripted
handlers are read.
-/

namespace KeyedRecords

variable {α σ : Type}

/-- What the life cycle of an instance tells. -/
def Lifecycle.members (s : Lifecycle) : List (String × Json) := [
  ("persistent", .bool s.persistent), ("deleted", .bool s.deleted),
  ("session", .ofNat? (s.session.map (·.number)))]

def Instance.toJson (m : Model α) (i : Instance α) : Json := .ofMembers ([
  ("key", .text (i.identityKey m)), ("id", .ofText? (i.id? m)), ("record", (i.record m).toJson),
  ("version", .ofInt? (m.version i.value))] ++ i.state.members)

def Transaction.toJson (t : Transaction) : Json := .ofMembers [
  ("id", .ofNat t.id.number), ("session", .ofNat t.session.number),
  ("status", .text t.status.name), ("open", .bool t.isOpen), ("display", .text t.text)]

/-- The kinds of events, in the order in which they happen. -/
def EventKind.all : List EventKind := [.beforeCommit, .beforeDelete, .afterCommit, .afterDelete]

def EventKind.ofName (name : String) : EventKind :=
  (all.find? (·.name == name)).getD .afterDelete

/-- The document of what a session counts. -/
def Session.toJson (s : Session α σ) : Json := .ofMembers [
  ("session", .ofNat s.id.number), ("dirty", .ofNat s.dirtyCount),
  ("deletes", .ofNat s.pendingDeletes), ("tracked", .ofNat s.size),
  ("pending", .bool s.hasPending), ("in_transaction", .bool s.transaction.isSome),
  ("transaction", .ofOption Transaction.toJson s.transaction),
  ("handlers", .ofList (fun kind => .ofNat (s.handlers.ofKind kind).length) EventKind.all),
  ("auto_begin", .bool s.config.autoBegin), ("validate", .bool s.config.validate)]

/-- The document of what a session holds of a model. -/
def Tracker.toJson (t : Tracker α) : Json := .ofMembers [
  ("sizes", .ofList (fun p => .ofNat (t.held p).size) Partition.all), ("len", .ofNat t.size),
  ("empty", .bool (t.size == 0)), ("dirty", .ofTexts (t.dirty.map Prod.fst)),
  ("keys", .ofTexts (t.instances.map Prod.fst))]

/-- The act that a document describes. -/
def HandlerAct.ofJson (j : Json) : HandlerAct :=
  let s (i : Nat) := (j.item i).asText
  match s 0 with
  | "only" => .only (s 1)
  | "log" => .log
  | "set" => .set (s 1) (.ofJson (j.item 2))
  | "unset" => .unset (s 1)
  | "trim" => .trim (s 1)
  | "fail" => .fail (s 1)
  | _ => .failOnce (s 1)

/-- The document of an instance as handlers see it. -/
def EventInstance.toJson (i : EventInstance) : Json := .ofMembers [
  ("key", .text i.key), ("id", .ofText? i.id), ("record", i.record.toJson)]

/-- The document of an event that was written down. -/
def LogEntry.toJson (e : LogEntry) : Json := .ofMembers [
  ("event", .text e.event.kind.name), ("before", .bool e.event.kind.isBefore),
  ("model", .text e.event.layout.name), ("session", .ofNat e.event.session.number),
  ("tx", .ofNat e.event.transaction.number),
  ("instances", .ofList EventInstance.toJson e.instances)]

end KeyedRecords
