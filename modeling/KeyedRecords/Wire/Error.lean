import KeyedRecords.Error.Basic
import KeyedRecords.Json.Access

/-!
# Documents of errors and reports

An error is an object that names its type and carries its message; a commit error carries the whole
report.
-/

namespace KeyedRecords

/-- The document of broken rules. -/
def ValidationFailures.toJson (failures : ValidationFailures) : Json :=
  .ofList (fun (f : ValidationFailure) => .ofTexts [f.field, f.rule.name, f.message]) failures

/-- The broken rule that a document describes, if it is a single one. -/
def ValidationFailure.ofJson (j : Json) : ValidationFailure :=
  let s (i : Nat) := (j.item i).asText
  match s 0 with
  | "required" => .required (s 1)
  | "max_length" => .tooLong (s 1) (j.item 2).asNat (j.item 3).asNat
  | "pattern" => .mismatch (s 1) (s 2)
  | "custom" => .custom (s 1) (s 2)
  | _ => .whole (s 1)

mutual

/-- The broken rules that a document describes: one rule, or a collection. -/
def ValidationFailures.ofJson : Json → ValidationFailures
  | .list [.text "extend", .list steps] => allOfJson steps
  | j => [.ofJson j]

/-- The broken rules that documents describe. -/
def ValidationFailures.allOfJson : List Json → ValidationFailures
  | [] => []
  | j :: rest => ofJson j ++ allOfJson rest

end

/-- The document of a refusal. -/
def BackendError.toJson (e : BackendError) : Json := .ofMembers [
  ("kind", .text e.problem.name), ("key", .ofText? e.key), ("message", .text e.message)]

def CommitAction.name : CommitAction → String
  | .write => "Write"
  | .delete => "Delete"

/-- The document of the result for one instance, when `error` is that of its error. -/
def InstanceOutcome.toJson (error : Json) (o : InstanceOutcome Error) : Json := .ofMembers [
  ("model", .text o.model), ("key", .text o.key), ("id", .ofText? o.id),
  ("ok", .bool o.error.isNone), ("action", .text o.action.name), ("error", error)]

/-- The document of a report, when documents of its results and notifications are given. -/
def CommitReport.toJsonWith (r : CommitReport Error) (outcomes notifications : List Json) : Json :=
  .ofMembers [
    ("tx", .ofNat r.transaction.number), ("committed", .ofNat r.committed.length),
    ("failed", .ofNat r.failed.length), ("failure_count", .ofNat r.failed.length),
    ("success", .bool r.isSuccess), ("display", .text r.message), ("outcomes", .list outcomes),
    ("notifications", .list notifications)]

namespace Error

/-- What the type of an error is called. -/
def variantName : Error → String
  | .connection _ => "Connection"
  | .query _ => "Query"
  | .type _ => "Type"
  | .transaction _ => "Transaction"
  | .backend _ => "Backend"
  | .commit _ => "Commit"
  | .consistency _ => "Consistency"
  | .schema _ => "Schema"
  | .config _ => "Config"
  | .validation _ => "Validation"
  | .cancelled => "Cancelled"
  | .serialization _ => "Serde"
  | .custom _ => "Custom"

/-- What an error tells besides its type and message. -/
def members : Error → List (String × Json)
  | .connection e => [("kind", .text e.problem.name)]
  | .query e => [("kind", .text e.problem.name)]
  | .transaction e => [("kind", .text e.problem.name)]
  | .backend e => [("kind", .text e.problem.name), ("key", .ofText? e.key)]
  | .schema e => [("kind", .text e.problem.name)]
  | .validation failures => [("errors", ValidationFailures.toJson failures)]
  | _ => []

mutual

def toJson : Error → Json
  | .serialization _ => .object [("error", .text "Serde")]
  | .commit ⟨tx, outcomes, notifications⟩ =>
    let r : CommitReport Error := ⟨tx, outcomes, notifications⟩
    .ofMembers [("error", .text "Commit"), ("message", .text (Error.commit r).message),
      ("report", r.toJsonWith (outcomesToJson outcomes) (allToJson notifications))]
  | e =>
    .ofMembers ([("error", .text e.variantName), ("message", .text e.message)] ++ e.members)

/-- The documents of results for instances. -/
def outcomesToJson : List (InstanceOutcome Error) → List Json
  | [] => []
  | ⟨model, key, id, action, none⟩ :: rest =>
    InstanceOutcome.toJson .null ⟨model, key, id, action, none⟩ :: outcomesToJson rest
  | ⟨model, key, id, action, some e⟩ :: rest =>
    InstanceOutcome.toJson (toJson e) ⟨model, key, id, action, some e⟩ :: outcomesToJson rest

def allToJson : List Error → List Json
  | [] => []
  | e :: rest => toJson e :: allToJson rest

end

end Error

/-- One of several things, by its name; the last if the name is unknown. -/
def byName {α : Type} (name : α → String) (last : α) (all : List α) (s : String) : α :=
  (all.find? (name · == s)).getD last

/-- The result for one instance that a document describes. -/
def InstanceOutcome.ofJson (j : Json) : InstanceOutcome Error :=
  { model := (j.item 0).asText, key := (j.item 1).asText, id := none
    action := if (j.item 2).isTrue then .delete else .write
    error := (j.item 3).asText?.map Error.custom }

/-- The error that a document describes. -/
def Error.ofJson (j : Json) : Error :=
  let s (name : String) := (j.get name).asText
  let s? (name : String) := (j.get name).asText?
  let kind := s "kind"
  match s "variant" with
  | "Connection" =>
    .connection ⟨byName ConnectionProblem.name .unavailable ConnectionProblem.all kind, s "message",
      s? "source"⟩
  | "Query" =>
    .query ⟨byName QueryProblem.name .noProjection QueryProblem.all kind, s? "model", s? "field",
      s "message"⟩
  | "Type" => .type ⟨s "expected", s "actual", s? "field"⟩
  | "Transaction" =>
    .transaction ⟨byName TransactionProblem.name .notOpen TransactionProblem.all kind, s "message"⟩
  | "Backend" =>
    .backend ⟨byName BackendProblem.name .script BackendProblem.all kind, s? "key", s "message"⟩
  | "Commit" => .commit ⟨⟨1⟩, (j.get "outcomes").items.map .ofJson, []⟩
  | "Consistency" => .consistency (s "message")
  | "Schema" =>
    .schema ⟨byName SchemaProblem.name .invalid SchemaProblem.all kind, s "model", s "message"⟩
  | "Config" => .config (s "message")
  | "Validation" => .validation ((j.get "fields").asTexts.map ValidationFailure.required)
  | "Cancelled" => .cancelled
  | "Serde" => .serialization (s "message")
  | _ => .custom (s "message")

def CommitReport.toJson (r : CommitReport Error) : Json :=
  r.toJsonWith (Error.outcomesToJson r.outcomes) (Error.allToJson r.notifications)

/-- The document of a result that may be an error. -/
def Json.ofExcept {α : Type} (f : α → Json) : Except Error α → Json
  | .ok a => f a
  | .error e => e.toJson

/-- The document of a check that passes or fails. -/
def Json.ofCheck : Except Error Unit → Json := ofExcept fun _ => .text "ok"

end KeyedRecords
