import KeyedRecords.Store.Command
import KeyedRecords.Store.Keyspace
import KeyedRecords.Text.Quoted

/-!
# The commit script

Commits a batch: deletes first, then writes, one instance after another. Each instance is checked
before anything of it is touched (`checkDelete`, `checkWrite`); an instance that is refused leaves
the key space as it was, and the next one goes on from there.
-/

namespace KeyedRecords

/-- A change of the key space for one instance, which may be refused. -/
abbrev Attempt (α : Type) := ExceptT BackendError (StateM Keyspace) α

/-- A failed command as a refusal. -/
def CommandFault.refusal (e : CommandFault) : BackendError := ⟨.wrongType, none, e.message⟩

/-- A step whose failure refuses the instance. -/
def Step.attempt {α : Type} (s : Step α) : Attempt α :=
  ExceptT.mk do return (← ExceptT.run s).mapError CommandFault.refusal

namespace CommitScript

/-- The kind of the collections of a batch. -/
def memberKind (b : Batch) : DataKind := if b.ordered then .sortedSet else .set

/-- A key holds nothing, or a value of the kind expected. -/
def expectKind (ks : Keyspace) (key : String) (kind : DataKind) : Except BackendError Unit :=
  match ks.kind? key with
  | none => .ok ()
  | some found =>
    if found = kind then .ok ()
    else .error ⟨.wrongType, some key,
      s!"{wrongTypeText}: expected {kind.name}, found {found.name}"⟩

/-- The key that holds the entry of an indexed value, and the kind it should have. -/
def entryKey (b : Batch) (spec : IndexSpec) (value : String) : String × DataKind :=
  if spec.unique then (b.keys.unique spec.field, .hash)
  else (b.keys.index spec.field value, memberKind b)

/-- Enters an id into a collection. -/
def addMember (b : Batch) (key : String) (score : Double) (id : String) : Step Unit := do
  if b.ordered then discard (Step.addScored key [(score, id)])
  else discard (Step.addMembers key [id])

/-- Takes an id out of a collection. -/
def removeMember (b : Batch) (key id : String) : Step Unit := do
  if b.ordered then discard (Step.removeScored key [id])
  else discard (Step.removeMembers key [id])

/-- Takes an id out of the entry of an indexed value. -/
def unlink (b : Batch) (spec : IndexSpec) (value id : String) : Step Unit := do
  if spec.unique then
    let hash := b.keys.unique spec.field
    let owners := (← Step.read (·.hash? hash)).getD ∅
    -- by now the value may belong to another instance
    if owners[value]? = some id then discard (Step.removeFields hash [value])
  else removeMember b (b.keys.index spec.field value) id

/-- Runs a step for each item in turn. -/
def each {α : Type} (f : α → Step Unit) : List α → Step Unit
  | [] => pure ()
  | a :: rest => do
    f a
    each f rest

/-- Runs a check for each item in turn. -/
def checkEach {α : Type} (f : α → Except BackendError Unit) : List α → Except BackendError Unit
  | [] => .ok ()
  | a :: rest => do
    f a
    checkEach f rest

/-- The stored record of an instance. -/
def stored (ks : Keyspace) (b : Batch) (id : String) :
    Except BackendError (Option (Table String)) := do
  let object := b.keys.object id
  expectKind ks object .hash
  (ks.hash? object).mapError CommandFault.refusal

/-- Everything that can refuse a delete. Answers the record that would be deleted. -/
def checkDelete (ks : Keyspace) (b : Batch) (id : String) :
    Except BackendError (Option (Table String)) := do
  expectKind ks b.keys.ids (memberKind b)
  let record ← stored ks b id
  match record with
  -- without a record there are no entries to check
  | none => return none
  | some fields =>
    b.indices |> checkEach fun spec =>
      match fields[spec.field]? with
      | some value =>
        let (key, kind) := entryKey b spec value
        expectKind ks key kind
      | none => .ok ()
    return record

/-- Deletes an instance with its entries and containers. Answers whether there was a record. -/
def deleteOne (b : Batch) (id : String) (record : Option (Table String)) : Step Bool := do
  -- the id leaves the collection of all ids even if it has no record
  removeMember b b.keys.ids id
  match record with
  | none => return false
  | some fields =>
    b.indices |> each fun spec =>
      match fields[spec.field]? with
      | some value => unlink b spec value id
      | none => pure ()
    discard (Step.delete (b.keys.object id :: b.structures.map (b.keys.container id)))
    return true

/-- What a write has learned while it was checked. -/
structure Checked where
  /-- The stored record. -/
  record : Option (Table String)
  /-- The version to store. -/
  version : Option Int

/-- The stored text of a field, if there is a record with that field. -/
def oldValue? (record : Option (Table String)) (field : String) : Option String :=
  record.bind fun fields => fields[field]?

/-- The keys that a write touches for one index hold what they should. -/
def checkIndex (ks : Keyspace) (b : Batch) (w : InstanceWrite) (record : Option (Table String))
    (spec : IndexSpec) : Except BackendError Unit := do
  match w.indexValue? spec.field with
  | some value =>
    let (key, kind) := entryKey b spec value
    expectKind ks key kind
  | none => pure ()
  match oldValue? record spec.field with
  | some value =>
    let (key, kind) := entryKey b spec value
    expectKind ks key kind
  | none => pure ()

/-- A unique value belongs to nobody, or to the instance itself. -/
def checkUnique (ks : Keyspace) (b : Batch) (w : InstanceWrite) (spec : IndexSpec) :
    Except BackendError Unit := do
  match w.indexValue? spec.field with
  | none => return
  | some value =>
    let hash := b.keys.unique spec.field
    let owners := (← (ks.hash? hash).mapError CommandFault.refusal).getD ∅
    match owners[value]? with
    | none => return
    | some owner =>
      if some owner = w.id then return
      else throw ⟨.uniqueViolation, some hash,
        s!"{spec.field}={value} already belongs to id {owner}"⟩

/-- The stored version is the expected one. Answers the next. Versions are integers of 64 bits, so
behind the greatest they start over with the least. -/
def checkVersion (b : Batch) (w : InstanceWrite) (record : Option (Table String)) :
    Except BackendError (Option Int) := do
  match b.versionField with
  | none => return none
  | some field =>
    let object := w.id.map b.keys.object
    let current ← match oldValue? record field with
      -- what has no version yet stands at zero
      | none => pure (0 : Int64)
      | some raw =>
        match Number.readInt64? raw with
        | some n => pure n
        | none => throw ⟨.script, object, s!"stored version {Text.quoted raw} is not an integer"⟩
    let expected := w.expectedVersion.getD 0
    if current.toInt = expected then return some (current + 1).toInt
    else
      let e := Number.intText expected
      let c := Number.intText current.toInt
      throw ⟨.versionConflict, object, s!"expected version {e}, stored version is {c}"⟩

/-- Everything that can refuse a write, but for a counter that is no integer. -/
def checkWrite (ks : Keyspace) (b : Batch) (w : InstanceWrite) : Except BackendError Checked := do
  if w.id.isNone && !b.autoId then
    throw ⟨.missingId, none, s!"{b.model} instance has no id and the model does not assign ids"⟩
  expectKind ks b.keys.ids (memberKind b)
  let record ← match w.id with
    | some id => stored ks b id
    -- an instance without an id has no record, and asks the counter for one
    | none => do
      expectKind ks b.keys.counter .string
      pure none
  checkEach (checkIndex ks b w record) b.indices
  checkEach (checkUnique ks b w) (b.indices.filter (·.unique))
  let version ← checkVersion b w record
  return ⟨record, version⟩

/-- The fields to store: the id first, and the next version in the place of the old. -/
def storedFields (b : Batch) (w : InstanceWrite) (version : Option Int) (id : String) :
    List (String × String) :=
  let fields :=
    match b.versionField, version with
    | some field, some next =>
      w.fields.filter (fun (f, _) => f != field) ++ [(field, Number.intText next)]
    | _, _ => w.fields
  (b.identity, id) :: fields

/-- Takes the id out of the entries of values that change. -/
def unlinkOld (b : Batch) (w : InstanceWrite) (record : Option (Table String)) (id : String) :
    Step Unit :=
  b.indices |> each fun spec =>
    match oldValue? record spec.field with
    | some old => if w.indexValue? spec.field = some old then pure () else unlink b spec old id
    | none => pure ()

/-- Enters the id under its values. -/
def linkNew (b : Batch) (w : InstanceWrite) (score : Double) (id : String) : Step Unit :=
  b.indices |> each fun spec =>
    match w.indexValue? spec.field with
    | none => pure ()
    | some value =>
      if spec.unique then discard (Step.setFields (b.keys.unique spec.field) [(value, id)])
      else addMember b (b.keys.index spec.field value) score id

/-- Writes an instance that has been checked. The counter is touched first, so that one that is no
integer fails before anything is written. -/
def writeOne (b : Batch) (w : InstanceWrite) (checked : Checked) : Attempt WriteAck := do
  let id ← match w.id with
    | some id => pure id
    | none => Number.intText <$> (Step.increment b.keys.counter).attempt
  Step.attempt do
    unlinkOld b w checked.record id
    let object := b.keys.object id
    -- fields that the new record lacks must not stay
    discard (Step.delete [object])
    discard (Step.setFields object (storedFields b w checked.version id))
    let score := w.score.getD .zero
    addMember b b.keys.ids score id
    linkNew b w score id
  return ⟨id, checked.version⟩

/-- Checks and writes an instance. -/
def tryWrite (b : Batch) (w : InstanceWrite) : Attempt WriteAck := do
  match checkWrite (← get) b w with
  | .error e => throw e
  | .ok checked => writeOne b w checked

/-- The ids that sources name. -/
def idsOf : List DeleteSource → Step (List String)
  | [] => return []
  | .ids ids :: rest => return ids ++ (← idsOf rest)
  | .key key :: rest => do
    let ids ← Step.read (·.members key)
    return ids ++ (← idsOf rest)

/-- Deletes instances one after another. Answers the ids deleted and the ids refused. -/
def deleteAll (b : Batch) : List String → Step (List String × List (String × BackendError))
  | [] => return ([], [])
  | id :: rest => do
    match checkDelete (← get) b id with
    | .error e =>
      let (deleted, failed) ← deleteAll b rest
      return (deleted, (id, e) :: failed)
    | .ok record =>
      let found ← deleteOne b id record
      let (deleted, failed) ← deleteAll b rest
      return (if found then id :: deleted else deleted, failed)

/-- Writes instances one after another. -/
def writeAll (b : Batch) : List InstanceWrite → Step (List WriteReply)
  | [] => return []
  | w :: rest => do
    -- a refusal is a result here, and the other writes are tried all the same
    let result ← (monadLift (ExceptT.run (tryWrite b w)) : Step (Except BackendError WriteAck))
    return ⟨w.identity, result⟩ :: (← writeAll b rest)

/-- Commits a batch. -/
def run (b : Batch) : Step BatchReply := do
  -- an id that several sources name is deleted once
  let doomed := (← idsOf b.deletes).eraseDups
  let (deleted, failedDeletes) ← deleteAll b doomed
  let writes ← writeAll b b.writes
  return ⟨writes, deleted, failedDeletes⟩

end CommitScript

end KeyedRecords
