import KeyedRecords.Session.Basic
import KeyedRecords.Session.Outcome

/-!
# Commits

A commit sends everything that is pending in one pipeline: for each model with work, the commands
that collect the ids to delete, and then one script. Handlers run before anything is sent and after
all results have been taken over. The commit succeeds if all instances did; otherwise its error
carries the whole report, and what failed stays pending.
-/

namespace KeyedRecords

/-- Runs an operation on each of several states in turn, each with an argument of its own, up to the
first that does not finish. -/
def Operation.each {τ β γ : Type} (f : γ → Operation τ β) : List γ → Operation (List τ) (List β)
  | [] => pure []
  | c :: rest => ExceptT.mk fun states =>
    match states with
    | [] => (.ok [], [])
    | t :: others =>
      match (ExceptT.run (f c)).run t with
      | (.error s, t) => (.error s, t :: others)
      | (.ok b, t) =>
        match (ExceptT.run (each f rest)).run others with
        | (.error s, others) => (.error s, t :: others)
        | (.ok bs, others) => (.ok (b :: bs), t :: others)

/-- What a failure means for the instances of a model that it concerns. -/
def Error.asRefusal : Error → BackendError
  | .backend e => e
  | e => ⟨.protocol, none, e.message⟩

namespace Session

variable {α σ β : Type}

/-- Opens a transaction. -/
def begin : Working α σ TransactionId := do
  let s ← current
  match s.transaction with
  | some open_ =>
    throw (.failed (.transaction ⟨.nestedNotSupported,
      s!"{open_.id.text} is already open in {s.id.text}"⟩))
  | none =>
    let id ← viaClient Client.newTransaction
    put { s with transaction := some (.start id s.id) }
    return id

/-- The transaction to commit, opened if there is none and the configuration says so. -/
def transactionToCommit : Working α σ TransactionId := do
  let s ← current
  match s.transaction with
  | some t => if t.isOpen then return t.id else throw (.failed t.alreadyExecuted)
  | none =>
    if s.config.autoBegin then begin
    else
      throw (.failed (.transaction ⟨.notOpen, s!"no transaction is open in {s.id.text}"⟩))

/-- The transaction is over, and the session has none. -/
def finish : Working α σ Unit := do
  put { ← current with transaction := none }

def viaTrackers (op : Operation (List (Tracker α)) β) : Working α σ β :=
  Operation.on (fun w => w.session.trackers)
    (fun trackers w => { w with session := { w.session with trackers } }) op

/-- Tells the handlers what is about to happen to instances of a model. Answers the instances with
the edits that were made. -/
def fire (tx : TransactionId) (kind : EventKind) (l : Layout) (instances : List EventInstance) :
    Working α σ (List EventInstance) := do
  let w ← get
  let (result, app) := w.session.handlers.fire ⟨kind, l, w.session.id, tx⟩ instances w.app
  set { w with app }
  Operation.ofExcept result

/-- Tells the handlers what has happened to instances of a model. Answers their errors. -/
def notify (tx : TransactionId) (kind : EventKind) (l : Layout) (instances : List EventInstance) :
    Working α σ (List Error) := do
  let w ← get
  let (errors, app) := w.session.handlers.notify ⟨kind, l, w.session.id, tx⟩ instances w.app
  set { w with app }
  return errors

/-- Tells the handlers what is about to happen, model by model. Answers the edited instances. -/
def fireAll (tx : TransactionId) : List (Tracker α) → Working α σ (List (List EventInstance))
  | [] => return []
  | t :: rest => do
    let edited ← fire tx .beforeCommit t.layout t.writeEvents
    discard (fire tx .beforeDelete t.layout t.deleteEvents)
    return edited :: (← fireAll tx rest)

/-- Tells the handlers what has happened, model by model. Answers their errors. -/
def notifyAll (tx : TransactionId) : List (Layout × Applied) → Working α σ (List Error)
  | [] => return []
  | (l, applied) :: rest => do
    let written ← notify tx .afterCommit l applied.written
    let deleted ← notify tx .afterDelete l applied.deleted
    return written ++ deleted ++ (← notifyAll tx rest)

/-- What each model contributes to the commit. -/
def prepareAll : List (Tracker α) → Working α σ (List Prepared)
  | [] => return []
  | t :: rest => do
    let w ← get
    let s := w.session
    let p ← Operation.ofExcept (t.prepare s.id s.config.validate
      s.catalog.config.lifetimeSeconds w.client.supply.name)
    -- the next model must not use the same names
    discard (viaClient (Client.reserveNames p.names))
    return p :: (← prepareAll rest)

/-- The commands for one model, if it has work. -/
def commandsFor (p : Prepared) : List Command :=
  if p.hasBatch then p.preamble ++ [.eval (.commit p.batch)] else []

/-- What the store says of the contribution of one model. -/
structure Answer where
  /-- The contribution. -/
  prepared : Prepared
  /-- The reply to its script. -/
  reply : Except BackendError BatchReply
  /-- Why the ids to delete could not be collected, if so. -/
  deleteFailure : Option BackendError

/-- The first failure among replies. -/
def firstFailure (replies : List Reply) : Option BackendError :=
  replies.findSome? fun reply =>
    match reply.check with
    | .error e => some e.asRefusal
    | .ok _ => none

/-- The answer to the contribution of one model, at the head of the replies. -/
def answerOf (p : Prepared) (replies : List Reply) : Answer :=
  if !p.hasBatch then ⟨p, .ok .empty, none⟩
  else
    let reply := match replies[p.preamble.length]? with
      | some reply => reply.asCommit.mapError Error.asRefusal
      | none => .error (Error.consistency "commit reply missing").asRefusal
    ⟨p, reply, firstFailure (replies.take p.preamble.length)⟩

/-- The answers to the contributions of all models, in their order. -/
def answers : List Prepared → List Reply → List Answer
  | [], _ => []
  | p :: rest, replies =>
    answerOf p replies :: answers rest (replies.drop (commandsFor p).length)

/-- Sends commands; the transaction is over if the link fails. -/
def send (commands : List Command) : Working α σ (List Reply) := do
  if commands.isEmpty then return []
  try viaClient (Client.pipeline commands)
  catch stop =>
    finish
    throw stop

/-- The changes of the transaction are being sent. -/
def execute : Working α σ Unit := do
  let s ← current
  match s.transaction with
  | some t =>
    let t ← Operation.ofExcept t.execute
    put { s with transaction := some t }
  | none => pure ()

/-- The changes of the transaction have been sent. -/
def settle : Working α σ Unit := do
  let s ← current
  put { s with transaction := s.transaction.map Transaction.finish }

/-- Takes over the answers to all models; the transaction is over if one of them makes no sense. -/
def applyAll (found : List Answer) : Working α σ (List Applied) := do
  let apply (a : Answer) : Tracker.Tracking α Applied :=
    Tracker.applyReply a.prepared a.reply a.deleteFailure
  try viaTrackers (Operation.each apply found)
  catch stop =>
    finish
    throw stop

/-- Tells the handlers before a commit, and takes over what they edited. -/
def absorbEdits (tx : TransactionId) : Working α σ Unit := do
  let edits ← fireAll tx (← current).trackers
  discard (viaTrackers (Operation.each Tracker.absorb edits))

/-- Sends everything that is pending in one pipeline. -/
def commit : Working α σ (CommitReport Error) := do
  let tx ← transactionToCommit
  viaClient Client.checkpoint
  -- a handler may still stop the commit
  absorbEdits tx
  let prepared ← prepareAll (← current).trackers
  -- from here on the store may have been changed
  execute
  let commands := prepared.flatMap commandsFor
  let replies ← send commands
  settle
  if replies.length ≠ commands.length then
    finish
    let sent := Number.intText commands.length
    let got := Number.intText replies.length
    throw (.failed (.protocol s!"commit pipeline sent {sent} commands but got {got} replies"))
  -- each model finds its replies in the order in which its commands were sent
  let applied ← applyAll (answers prepared replies)
  let layouts := (← current).trackers.map (·.layout)
  let notifications ← notifyAll tx (layouts.zip applied)
  finish
  let report : CommitReport Error := ⟨tx, applied.flatMap (·.outcomes), notifications⟩
  if report.isSuccess then return report else throw (.failed (.commit report))

/-- Runs an operation in a transaction and commits what it has changed. If it does not finish, all
pending changes are dropped. -/
def withTransaction (op : Working α σ β) : Working α σ (β × CommitReport Error) := do
  discard begin
  let value ← try op
    catch stop =>
      put (← current).rollback
      throw stop
  return (value, ← commit)

end Session

end KeyedRecords
