import KeyedRecords.Commit.Batch
import KeyedRecords.Query.Lowering
import KeyedRecords.Session.Event
import KeyedRecords.Session.Tracker

/-!
# Preparing a commit

What a tracker contributes to a commit is worked out without changing it: the instances to write, as
far as they pass their checks, and the commands that collect the ids to delete under one key. Edits
that handlers made of records are taken over before that.
-/

namespace KeyedRecords

/-- What one model contributes to a commit. -/
structure Prepared where
  /-- The instances to write, and where the ids to delete come from. -/
  batch : Batch
  /-- The commands that collect the ids to delete. -/
  preamble : List Command
  /-- The number of temporary keys that the commands create. -/
  names : Nat
  /-- The instances that did not pass their checks. -/
  invalid : List (IdentityKey × Option String × ValidationFailures)
  /-- The deletes that are about known ids. -/
  deletes : List EventInstance

/-- Whether there is something to send. -/
def Prepared.hasBatch (p : Prepared) : Bool := !p.batch.isEmpty

namespace Tracker

variable {α : Type}

/-- An instance as handlers see it. -/
def eventInstance (t : Tracker α) (key : IdentityKey) (i : Instance α) : EventInstance :=
  ⟨key, i.id? t.model, i.record t.model⟩

/-- The instances to write, as handlers see them. -/
def writeEvents (t : Tracker α) : List EventInstance :=
  t.dirty.map fun (key, i) => t.eventInstance key i

/-- The deletes about known ids, as handlers see them: instances first, then mere ids. -/
def deleteEvents (t : Tracker α) : List EventInstance :=
  (t.deleted.toList.map fun (key, i) => t.eventInstance key i) ++
    t.deleteIds.map fun id => ⟨id, some id, .empty⟩

/-- The write of an instance, or the rules it breaks if rules are to be checked. -/
def prepareWrite (t : Tracker α) (validate : Bool) (key : IdentityKey) (i : Instance α) :
    Except ValidationFailures InstanceWrite := do
  if validate then i.validate t.model
  let expected := t.layout.versionField.map fun _ => (t.model.version i.value).getD 0
  return .ofRecord t.layout key (i.record t.model) expected

/-- The tree of all that is to be deleted. -/
def deleteTree (t : Tracker α) (session : SessionId) : Tree :=
  let origin : Origin := ⟨t.layout, some session⟩
  let ids := t.deleteEvents.filterMap fun d => d.id.map Value.text
  .unionOf origin (.selection origin t.layout.identity.name ids :: t.deleteQueries)

/-- The plan for the ids to delete; none if nothing is. -/
def deletePlan (t : Tracker α) (session : SessionId) (lifetime n : Nat) :
    Except Error (Option Plan) :=
  let tree := t.deleteTree session
  if tree.isEmpty then .ok none else (tree.lower none lifetime n).map some

/-- What the tracker contributes to a commit, with temporary names from the `n`-th on. -/
def prepare (t : Tracker α) (session : SessionId) (validate : Bool) (lifetime n : Nat) :
    Except Error Prepared := do
  let tried := t.dirty.map fun (key, i) => (key, i, t.prepareWrite validate key i)
  let writes := tried.filterMap fun (_, _, result) => result.toOption
  let invalid := tried.filterMap fun (key, i, result) =>
    match result with
    | .error failures => some (key, i.id? t.model, failures)
    | .ok _ => none
  let plan ← t.deletePlan session lifetime n
  -- the script reads the ids to delete from under one key
  let source := (plan.bind (·.source)).toList
  return {
    batch := { Batch.ofLayout t.layout with writes, deletes := source.map DeleteSource.key }
    preamble := (plan.map (·.commands)).getD []
    names := (plan.map (·.temporaries.length)).getD 0
    invalid
    deletes := t.deleteEvents }

/-- The instance that the edited record of an instance stands for. Its id must stay. -/
def rebuild (t : Tracker α) (i : Instance α) (edited : EventInstance) :
    Except Error (Instance α) := do
  let id := i.id? t.model
  let value ← t.model.ofRecord (id.getD "") edited.record
  if t.model.primaryKey value = id then return { i with value }
  else
    throw (.consistency
      s!"a before-commit handler changed the id of {t.layout.name} instance {edited.key}")

/-- Takes over the edit of one instance that is to be written. -/
def absorbOne (edited : EventInstance) : Tracking α Unit := do
  let t ← get
  let absorbIn (p : Partition) : Tracking α Unit :=
    match (t.held p)[edited.key]? with
    | none => pure ()
    | some i =>
      if i.record t.model == edited.record then pure ()
      else do
        let i ← Operation.ofExcept (t.rebuild i edited)
        set (t.put p edited.key i)
  match t.partitionOf edited.key with
  | some .added => absorbIn .added
  | some .modified => absorbIn .modified
  -- only what is to be written takes edits
  | some .loaded | some .deleted | none => pure ()

/-- Takes over the edits of instances one by one. -/
def absorb : List EventInstance → Tracking α Unit
  | [] => pure ()
  | edited :: rest => do
    absorbOne edited
    absorb rest

end Tracker

end KeyedRecords
