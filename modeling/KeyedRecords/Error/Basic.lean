import KeyedRecords.Instance.Identity
import KeyedRecords.Validation.Failure

/-!
# Errors

One type for everything that can go wrong, by the part of the library that finds it. A commit that
failed for some instances carries its whole report, so errors and reports are defined together;
`Error.message` is the wording of each.
-/

namespace KeyedRecords

/-- Why a store could not be talked to. -/
inductive ConnectionProblem where
  /-- It was not reached. -/
  | connect
  /-- It went away during a pipeline. -/
  | disconnected
  /-- It cannot be used. -/
  | unavailable
deriving DecidableEq

/-- What a problem is called. -/
def ConnectionProblem.name : ConnectionProblem → String
  | .connect => "Connect"
  | .disconnected => "Disconnected"
  | .unavailable => "Unavailable"

/-- All of them. -/
def ConnectionProblem.all : List ConnectionProblem := [.connect, .disconnected, .unavailable]

/-- A store could not be talked to. -/
structure ConnectionError where
  /-- Why. -/
  problem : ConnectionProblem
  /-- What the caller is told. -/
  message : String
  /-- The message of the error behind it, if any. -/
  source : Option String

/-- What is wrong with a query. -/
inductive QueryProblem where
  /-- A criterion names a field that the model lacks. -/
  | unknownField
  /-- A criterion names a field without an index. -/
  | notIndexed
  /-- A criterion asks for a lookup that does not exist. -/
  | unsupportedLookup
  /-- The field to sort on cannot be sorted on. -/
  | ordering
  /-- A part of the query has no meaning. -/
  | malformed
  /-- Queries over two models were combined. -/
  | modelMismatch
  | noSearchEngine
  /-- A field to read is unknown, or none was named. -/
  | noProjection
deriving DecidableEq

/-- What a problem is called. -/
def QueryProblem.name : QueryProblem → String
  | .unknownField => "UnknownField"
  | .notIndexed => "NotIndexed"
  | .unsupportedLookup => "UnsupportedLookup"
  | .ordering => "Ordering"
  | .malformed => "Malformed"
  | .modelMismatch => "ModelMismatch"
  | .noSearchEngine => "NoSearchEngine"
  | .noProjection => "NoProjection"

/-- All of them. -/
def QueryProblem.all : List QueryProblem :=
  [.unknownField, .notIndexed, .unsupportedLookup, .ordering, .malformed, .modelMismatch,
    .noSearchEngine, .noProjection]

/-- A query cannot be built. -/
structure QueryError where
  /-- What is wrong. -/
  problem : QueryProblem
  /-- The model of the query. -/
  model : Option String
  /-- The field it is about. -/
  field : Option String
  /-- What the caller is told. -/
  message : String

/-- A value is not of the kind asked for. -/
structure TypeError where
  /-- The kind asked for. -/
  expected : String
  /-- What was there instead. -/
  actual : String
  /-- The field the value belongs to, if known. -/
  field : Option String

/-- How the life cycle of a transaction was misused. -/
inductive TransactionProblem where
  /-- The transaction has already been committed. -/
  | alreadyExecuted
  /-- A transaction is already open. -/
  | nestedNotSupported
  /-- The instance or query belongs to another session. -/
  | foreignSession
  /-- No transaction is open. -/
  | notOpen
deriving DecidableEq

/-- What a problem is called. -/
def TransactionProblem.name : TransactionProblem → String
  | .alreadyExecuted => "AlreadyExecuted"
  | .nestedNotSupported => "NestedNotSupported"
  | .foreignSession => "ForeignSession"
  | .notOpen => "NotOpen"

/-- All of them. -/
def TransactionProblem.all : List TransactionProblem :=
  [.alreadyExecuted, .nestedNotSupported, .foreignSession, .notOpen]

/-- A transaction was misused. -/
structure TransactionError where
  problem : TransactionProblem
  /-- What the caller is told. -/
  message : String

/-- Why the store refused something. -/
inductive BackendProblem where
  /-- A key holds another kind of value. -/
  | wrongType
  /-- A unique value belongs to another id. -/
  | uniqueViolation
  /-- The stored version is not the expected one. -/
  | versionConflict
  /-- An instance has no id and none is assigned. -/
  | missingId
  /-- A reply does not fit its command. -/
  | protocol
  /-- Anything else the store reports. -/
  | script
deriving DecidableEq

/-- What a problem is called. -/
def BackendProblem.name : BackendProblem → String
  | .wrongType => "WrongType"
  | .uniqueViolation => "UniqueViolation"
  | .versionConflict => "VersionConflict"
  | .missingId => "MissingId"
  | .protocol => "Protocol"
  | .script => "Script"

/-- All of them. -/
def BackendProblem.all : List BackendProblem :=
  [.wrongType, .uniqueViolation, .versionConflict, .missingId, .protocol, .script]

/-- The store refused a command or an instance. -/
structure BackendError where
  /-- Why. -/
  problem : BackendProblem
  /-- The key it is about, if known. -/
  key : Option String
  /-- What the caller is told. -/
  message : String
deriving DecidableEq

/-- What is wrong with the declaration of a model. -/
inductive SchemaProblem where
  /-- The model is not registered. -/
  | notRegistered
  /-- The declaration is not well formed. -/
  | invalid
deriving DecidableEq

/-- What a problem is called. -/
def SchemaProblem.name : SchemaProblem → String
  | .notRegistered => "NotRegistered"
  | .invalid => "Invalid"

/-- All of them. -/
def SchemaProblem.all : List SchemaProblem := [.notRegistered, .invalid]

/-- A model cannot be used. -/
structure SchemaError where
  /-- What is wrong. -/
  problem : SchemaProblem
  model : String
  /-- What the caller is told. -/
  message : String

/-- What a commit did with an instance. -/
inductive CommitAction where
  | write
  | delete
deriving DecidableEq

/-- The result of committing one instance, with errors of type `ε`. -/
structure InstanceOutcome (ε : Type) where
  /-- The model of the instance. -/
  model : String
  /-- The key under which the session knew it. -/
  key : IdentityKey
  /-- Its id, if it has one. -/
  id : Option String
  /-- What was to be done. -/
  action : CommitAction
  /-- Why it was not done. -/
  error : Option ε

/-- The results of one commit, with errors of type `ε`. -/
structure CommitReport (ε : Type) where
  transaction : TransactionId
  /-- One result for each instance. -/
  outcomes : List (InstanceOutcome ε)
  /-- The errors of handlers that ran after the commit. -/
  notifications : List ε

namespace CommitReport

variable {ε : Type}

/-- The report of a commit that has done nothing yet. -/
def empty (transaction : TransactionId) : CommitReport ε := ⟨transaction, [], []⟩

/-- The results without an error. -/
def committed (r : CommitReport ε) : List (InstanceOutcome ε) :=
  r.outcomes.filter fun o => o.error.isNone

/-- The results with an error. -/
def failed (r : CommitReport ε) : List (InstanceOutcome ε) :=
  r.outcomes.filter fun o => o.error.isSome

/-- Whether every instance was committed. -/
def isSuccess (r : CommitReport ε) : Bool := r.failed.isEmpty

end CommitReport

/-- Anything that can go wrong. -/
inductive Error where
  /-- The store could not be talked to. -/
  | connection (e : ConnectionError)
  /-- A query cannot be built. -/
  | query (e : QueryError)
  /-- A value is not of the kind asked for. -/
  | type (e : TypeError)
  /-- A transaction was misused. -/
  | transaction (e : TransactionError)
  /-- The store refused a command or an instance. -/
  | backend (e : BackendError)
  /-- Some instances of a commit failed. -/
  | commit (report : CommitReport Error)
  /-- Something that should never happen. -/
  | consistency (message : String)
  /-- A model cannot be used. -/
  | schema (e : SchemaError)
  /-- A configuration cannot be used. -/
  | config (message : String)
  /-- An instance broke rules. -/
  | validation (failures : ValidationFailures)
  /-- The operation was cancelled. -/
  | cancelled
  /-- A text is not a document. -/
  | serialization (message : String)
  /-- An error of the application. -/
  | custom (message : String)

/-- The message behind its model and field. -/
def QueryError.detail (e : QueryError) : String :=
  match e.model, e.field with
  | some model, some field => s!"{model}.{field}: {e.message}"
  | some model, none => s!"{model}: {e.message}"
  | none, _ => e.message

/-- What was asked for and what was found. -/
def TypeError.detail (e : TypeError) : String :=
  match e.field with
  | some field => s!"expected {e.expected} for field '{field}', found {e.actual}"
  | none => s!"expected {e.expected}, found {e.actual}"

/-- The message before its key. -/
def BackendError.detail (e : BackendError) : String :=
  match e.key with
  | some key => s!"{e.message} (key {key})"
  | none => e.message

/-- The message behind its model. -/
def SchemaError.detail (e : SchemaError) : String := s!"{e.model}: {e.message}"

/-- How many instances failed. -/
def CommitReport.detail {ε : Type} (r : CommitReport ε) : String :=
  let failed := Number.intText r.failed.length
  let all := Number.intText r.outcomes.length
  s!"{failed} of {all} instance(s) failed to commit"

namespace Error

/-- What the caller is told. -/
def message : Error → String
  | .connection e => s!"Connection error: {e.message}"
  | .query e => s!"Query error: {e.detail}"
  | .type e =>
    match e.field with
    | some field => s!"Type error in field '{field}': expected {e.expected}, found {e.actual}"
    | none => s!"Type error: expected {e.expected}, found {e.actual}"
  | .transaction e => s!"Transaction error: {e.message}"
  | .backend e => s!"Backend error: {e.detail}"
  | .commit r => s!"Commit error: {r.detail}"
  | .consistency m => s!"Consistency error: {m}"
  | .schema e => s!"Schema error: {e.detail}"
  | .config m => s!"Configuration error: {m}"
  | .validation failures => s!"Validation error: {ValidationFailures.message failures}"
  | .cancelled => "Operation cancelled"
  | .serialization m => s!"Serialization error: {m}"
  | .custom m => m

/-- The part of the message that says what happened, where an error has one of its own. -/
def detail : Error → String
  | .connection e => e.message
  | .query e => e.detail
  | .type e => e.detail
  | .transaction e => e.message
  | .backend e => e.detail
  | .commit r => r.detail
  | .schema e => e.detail
  | _ => ""

/-- The message of the error behind this one. -/
def source? : Error → Option String
  | .connection e => e.source
  | .validation failures => some (ValidationFailures.message failures)
  | _ => none

/-- Mistakes in the use of the library, which trying again cannot mend. -/
def isUsage : Error → Bool
  | .query _ | .transaction _ | .schema _ => true
  | _ => false

/-- Whether something happened that should never happen. -/
def isConsistency : Error → Bool
  | .consistency _ => true
  | _ => false

/-- Whether an instance broke rules. -/
def isValidation : Error → Bool
  | .validation _ => true
  | _ => false

/-- What is wrong with a query, if it is about one. -/
def queryProblem? : Error → Option QueryProblem
  | .query e => some e.problem
  | _ => none

/-- Why the store refused, if it did. -/
def backendProblem? : Error → Option BackendProblem
  | .backend e => some e.problem
  | _ => none

/-- How a transaction was misused, if one was. -/
def transactionProblem? : Error → Option TransactionProblem
  | .transaction e => some e.problem
  | _ => none

/-- Whether a unique value belongs to another id. -/
def isUniqueViolation (e : Error) : Bool := e.backendProblem? == some .uniqueViolation

/-- Whether the stored version is not the expected one. -/
def isVersionConflict (e : Error) : Bool := e.backendProblem? == some .versionConflict

/-- A reply does not fit its command. -/
def protocol (message : String) : Error := .backend ⟨.protocol, none, message⟩

/-- A type error becomes one about a field; other errors stay. -/
def inField (field : String) : Error → Error
  | .type e => .type { e with field := some field }
  | e => e

end Error

/-- Counts, and the failed instances with their errors. -/
def CommitReport.message (r : CommitReport Error) : String :=
  let failed := Number.intText r.failed.length
  let committed := Number.intText r.committed.length
  let details := r.failed.map fun o =>
    match o.error with
    | some e => s!"; {o.model}[{o.key}]: {e.message}"
    | none => ""
  s!"{r.transaction.text}: {committed} committed, {failed} failed" ++ String.join details

end KeyedRecords
