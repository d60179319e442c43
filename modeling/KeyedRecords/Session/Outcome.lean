import KeyedRecords.Session.Preparation

/-!
# Applying the results of a commit

The reply to a batch is taken over instance by instance: what was written becomes loaded under its
id, what was deleted is forgotten, and what was refused stays pending. Each gets a line in the
report.
-/

namespace KeyedRecords

/-- The instances of one model that a commit has changed, and the lines of its report. -/
structure Applied where
  /-- The lines of the report. -/
  outcomes : List (InstanceOutcome Error)
  /-- The instances that were written. -/
  written : List EventInstance
  /-- The instances that were deleted. -/
  deleted : List EventInstance

/-- A commit with no changes in this model. -/
def Applied.empty : Applied := ⟨[], [], []⟩

/-- How far the deletes of a commit have been taken over. -/
structure DeleteTally where
  /-- The ids that were deleted and have not been taken over. -/
  removed : Members
  /-- The ids that were refused and have not been taken over. -/
  refused : Table BackendError
  /-- The ids that are to be deleted at the next commit. -/
  retry : List String
  /-- What has been taken over. -/
  applied : Applied

namespace Tracker

variable {α : Type}

/-- A line about a write. -/
def writeOutcome (t : Tracker α) (key : IdentityKey) (id : Option String) (error : Option Error) :
    InstanceOutcome Error :=
  ⟨t.layout.name, key, id, .write, error⟩

/-- A line about a delete. -/
def deleteOutcome (t : Tracker α) (key : IdentityKey) (id : Option String)
    (error : Option Error) : InstanceOutcome Error :=
  ⟨t.layout.name, key, id, .delete, error⟩

/-- The lines about instances that did not pass their checks. -/
def invalidOutcomes (t : Tracker α) (p : Prepared) : List (InstanceOutcome Error) :=
  p.invalid.map fun (key, id, failures) => t.writeOutcome key id (some (.validation failures))

/-- The lines about deletes that all failed for one reason. -/
def failedDeletes (t : Tracker α) (p : Prepared) (e : BackendError) :
    List (InstanceOutcome Error) :=
  p.deletes.map fun d => t.deleteOutcome d.key d.id (some (.backend e))

/-- The lines about a batch that failed as a whole. -/
def failedBatch (t : Tracker α) (p : Prepared) (e : BackendError) : List (InstanceOutcome Error) :=
  (p.batch.writes.map fun w => t.writeOutcome w.identity w.id (some (.backend e))) ++
    t.failedDeletes p e

/-- The instance as it is after a write that the store accepted. -/
def acknowledge (m : Model α) (ack : WriteAck) (i : Instance α) : Except Error (Instance α) := do
  let value ← m.withPrimaryKey ack.id i.value
  let value := match ack.version with
    | some version => m.withVersion version value
    | none => value
  return ⟨value, i.state.markPersistent⟩

/-- Takes over the result of one write. -/
def applyWrite (applied : Applied) (w : WriteReply) : Tracking α Applied := do
  match ← pop w.identity with
  | none =>
    let t ← get
    fail (.consistency
      s!"commit reply names {t.layout.name} instance {w.identity} which the session does not hold")
  | some (p, i) =>
    let t ← get
    let keep (id : Option String) (e : Error) : Tracking α Applied := do
      set (t.put p w.identity i)
      let line := t.writeOutcome w.identity id (some e)
      return { applied with outcomes := applied.outcomes ++ [line] }
    match w.result with
    | .error e => keep (i.id? t.model) (.backend e)
    | .ok ack =>
      match acknowledge t.model ack i with
      | .error e => keep (some ack.id) e
      | .ok i =>
        -- what the session held under the new key gives way
        discard (pop ack.id)
        modify (·.put .loaded ack.id i)
        return { applied with
          outcomes := applied.outcomes ++ [t.writeOutcome w.identity (some ack.id) none]
          written := applied.written ++ [⟨ack.id, some ack.id, i.record t.model⟩] }

/-- Takes over the results of writes one by one. -/
def applyWrites (applied : Applied) : List WriteReply → Tracking α Applied
  | [] => return applied
  | w :: rest => do applyWrites (← applyWrite applied w) rest

/-- Takes over that an instance was deleted. -/
def applyDeleted (tally : DeleteTally) (d : EventInstance) : Tracking α DeleteTally := do
  let t ← get
  let applied := { tally.applied with
    outcomes := tally.applied.outcomes ++ [t.deleteOutcome d.key d.id none]
    deleted := tally.applied.deleted ++ [d] }
  return { tally with applied }

/-- Takes over that a delete was refused. -/
def applyRefused (tally : DeleteTally) (d : EventInstance) (e : BackendError) :
    Tracking α DeleteTally := do
  let t ← get
  let line := t.deleteOutcome d.key d.id (some (.backend e))
  return { tally with
    applied := { tally.applied with outcomes := tally.applied.outcomes ++ [line] } }

/-- Takes over the result of one delete that the session asked for. A refused delete of a held
instance stays with the instance; one of a mere id is to be tried again. -/
def applyDelete (tally : DeleteTally) (d : EventInstance) : Tracking α DeleteTally := do
  match d.id.bind fun id => (tally.refused[id]?).map (id, ·) with
  | some (id, e) =>
    -- the session still plans to delete an instance that it holds
    let retry := if (← get).deleted.contains d.key then tally.retry else tally.retry ++ [id]
    applyRefused { tally with refused := tally.refused.erase id, retry } d e
  | none =>
    discard (pop d.key)
    let removed := match d.id with
      | some id => tally.removed.erase id
      | none => tally.removed
    applyDeleted { tally with removed } d

/-- Takes over the results of deletes one by one. -/
def applyDeletes (tally : DeleteTally) : List EventInstance → Tracking α DeleteTally
  | [] => return tally
  | d :: rest => do applyDeletes (← applyDelete tally d) rest

/-- Takes over that an id was deleted which only a query matched. -/
def applyMatched (tally : DeleteTally) (id : String) : Tracking α DeleteTally := do
  let t ← get
  let record := match ← pop id with
    | some (_, i) => i.record t.model
    | none => .empty
  applyDeleted tally ⟨id, some id, record⟩

/-- Takes over ids that were deleted and which only queries matched. -/
def applyAllMatched (tally : DeleteTally) : List String → Tracking α DeleteTally
  | [] => return tally
  | id :: rest => do applyAllMatched (← applyMatched tally id) rest

/-- Takes over ids that were refused and which only queries matched. They are to be tried again. -/
def applyAllRefused (tally : DeleteTally) : List (String × BackendError) → Tracking α DeleteTally
  | [] => return tally
  | (id, e) :: rest => do
    let tally ← applyRefused { tally with retry := tally.retry ++ [id] } ⟨id, some id, .empty⟩ e
    applyAllRefused tally rest

/-- Takes over what became of the deletes, and what is to be deleted next time. -/
def settleDeletes (p : Prepared) (applied : Applied) (r : BatchReply) : Tracking α Applied := do
  let tally : DeleteTally :=
    { removed := Members.insertAll ∅ r.deleted, refused := Table.insertAll ∅ r.failedDeletes
      retry := [], applied }
  let tally ← applyDeletes tally p.deletes
  let tally ← applyAllMatched tally tally.removed.toList
  let tally ← applyAllRefused tally tally.refused.toList
  modify fun t => { t with deleteIds := tally.retry, deleteQueries := [] }
  return tally.applied

/-- Takes over the reply to a batch. If the ids to delete could not be collected, all deletes stay
pending. -/
def applyReply (p : Prepared) (reply : Except BackendError BatchReply)
    (deleteFailure : Option BackendError) : Tracking α Applied := do
  let t ← get
  let applied : Applied := { Applied.empty with outcomes := t.invalidOutcomes p }
  match reply with
  | .error e => return { applied with outcomes := applied.outcomes ++ t.failedBatch p e }
  | .ok r =>
    if r.writes.length ≠ p.batch.writes.length then
      let sent := Number.intText p.batch.writes.length
      let got := Number.intText r.writes.length
      fail (.consistency s!"{t.layout.name} commit sent {sent} writes but got {got} replies")
    let applied ← applyWrites applied r.writes
    match deleteFailure with
    | some e => return { applied with outcomes := applied.outcomes ++ t.failedDeletes p e }
    | none => settleDeletes p applied r

end Tracker

end KeyedRecords
