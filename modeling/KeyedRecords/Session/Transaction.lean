import KeyedRecords.Error.Basic

/-!
# Transactions

A transaction is open until its changes are sent, and finished when their results are known. It
sends its changes at most once.
-/

namespace KeyedRecords

/-- Where a transaction stands. -/
inductive TransactionStatus where
  /-- It accepts changes. -/
  | opened
  /-- Its changes have been sent. -/
  | executed
  /-- It is over. -/
  | finished
deriving DecidableEq

/-- What a status is called. -/
def TransactionStatus.name : TransactionStatus → String
  | .opened => "Open"
  | .executed => "Executed"
  | .finished => "Finished"

/-- A unit of work of a session. -/
structure Transaction where
  /-- Its number. -/
  id : TransactionId
  session : SessionId
  /-- Where it stands. -/
  status : TransactionStatus
deriving DecidableEq

namespace Transaction

/-- A transaction that accepts changes. -/
def start (id : TransactionId) (session : SessionId) : Transaction := ⟨id, session, .opened⟩

/-- Whether it accepts changes. -/
def isOpen (t : Transaction) : Bool := t.status = .opened

/-- A transaction that has sent its changes sends no more. -/
def alreadyExecuted (t : Transaction) : Error :=
  .transaction ⟨.alreadyExecuted, s!"{t.id.text} already executed"⟩

/-- Its changes are being sent. -/
def execute (t : Transaction) : Except Error Transaction :=
  if t.isOpen then .ok { t with status := .executed } else .error t.alreadyExecuted

/-- It is over. -/
def finish (t : Transaction) : Transaction := { t with status := .finished }

/-- A transaction as it is shown. -/
def text (t : Transaction) : String := s!"{t.id.text} ({t.session.text}, {t.status.name})"

end Transaction

end KeyedRecords
