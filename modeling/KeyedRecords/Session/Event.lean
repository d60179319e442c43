import KeyedRecords.Model.Record
import KeyedRecords.Instance.Identity

/-!
# Events of a commit

Handlers run around a commit, once for each model with affected instances: before it, where an error
stops the commit and edits of records are written, and after it, where errors are only reported.
Handlers see records, not instances, and may change a state of the application of type `σ`.
-/

namespace KeyedRecords

/-- When a handler runs. -/
inductive EventKind where
  /-- Before instances are checked and written. -/
  | beforeCommit
  /-- Before deletes are sent. -/
  | beforeDelete
  /-- After instances have been written. -/
  | afterCommit
  /-- After instances have been deleted. -/
  | afterDelete
deriving DecidableEq

/-- What a kind of event is called. -/
def EventKind.name : EventKind → String
  | .beforeCommit => "before_commit"
  | .beforeDelete => "before_delete"
  | .afterCommit => "after_commit"
  | .afterDelete => "after_delete"

/-- Whether the commit is still to come. -/
def EventKind.isBefore : EventKind → Bool
  | .beforeCommit | .beforeDelete => true
  | .afterCommit | .afterDelete => false

/-- An affected instance as handlers see it. -/
structure EventInstance where
  /-- The key under which the session knows it. -/
  key : IdentityKey
  /-- Its id, if it has one. -/
  id : Option String
  /-- Its record; empty if only the id is known. -/
  record : Record

/-- What happens to the instances of one model. -/
structure CommitEvent where
  /-- When it happens. -/
  kind : EventKind
  layout : Layout
  /-- The session that commits. -/
  session : SessionId
  transaction : TransactionId

/-- A function that runs around a commit. It may edit the records of the instances. -/
abbrev Handler (σ : Type) := CommitEvent → ExceptT Error (StateM (List EventInstance × σ)) Unit

/-- The handlers of a session, in the order of registration. -/
structure Handlers (σ : Type) where
  /-- Those that run before instances are written. -/
  beforeCommit : List (Handler σ)
  /-- Those that run before deletes are sent. -/
  beforeDelete : List (Handler σ)
  /-- Those that run after instances have been written. -/
  afterCommit : List (Handler σ)
  /-- Those that run after instances have been deleted. -/
  afterDelete : List (Handler σ)

namespace Handlers

variable {σ : Type}

def empty : Handlers σ := ⟨[], [], [], []⟩

def ofKind (h : Handlers σ) : EventKind → List (Handler σ)
  | .beforeCommit => h.beforeCommit
  | .beforeDelete => h.beforeDelete
  | .afterCommit => h.afterCommit
  | .afterDelete => h.afterDelete

/-- One more handler. -/
def register (h : Handlers σ) (kind : EventKind) (handler : Handler σ) : Handlers σ :=
  match kind with
  | .beforeCommit => { h with beforeCommit := h.beforeCommit ++ [handler] }
  | .beforeDelete => { h with beforeDelete := h.beforeDelete ++ [handler] }
  | .afterCommit => { h with afterCommit := h.afterCommit ++ [handler] }
  | .afterDelete => { h with afterDelete := h.afterDelete ++ [handler] }

/-- Runs handlers up to the first error. -/
def runUntilError (event : CommitEvent) :
    List (Handler σ) → ExceptT Error (StateM (List EventInstance × σ)) Unit
  | [] => pure ()
  | handler :: rest => do
    handler event
    runUntilError event rest

/-- Runs all handlers, and collects their errors. -/
def runAll (event : CommitEvent) : List (Handler σ) → StateM (List EventInstance × σ) (List Error)
  | [] => return []
  | handler :: rest => do
    let result ← handler event
    let errors ← runAll event rest
    match result with
    | .ok () => return errors
    | .error e => return e :: errors

/-- Tells the handlers before a commit. Answers the instances with the edits that were made, unless
a handler stops the commit. -/
def fire (h : Handlers σ) (event : CommitEvent) (instances : List EventInstance) (app : σ) :
    Except Error (List EventInstance) × σ :=
  if instances.isEmpty then (.ok instances, app)
  else
    match (ExceptT.run (runUntilError event (h.ofKind event.kind))).run (instances, app) with
    | (.ok (), (edited, app)) => (.ok edited, app)
    | (.error e, (_, app)) => (.error e, app)

/-- Tells the handlers after a commit. Answers their errors. -/
def notify (h : Handlers σ) (event : CommitEvent) (instances : List EventInstance) (app : σ) :
    List Error × σ :=
  if instances.isEmpty then ([], app)
  else
    match (runAll event (h.ofKind event.kind)).run (instances, app) with
    | (errors, (_, app)) => (errors, app)

end Handlers

end KeyedRecords
