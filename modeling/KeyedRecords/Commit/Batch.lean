import KeyedRecords.Model.Record

/-!
# Batches

A `Batch` is what one model contributes to a commit: the ids to delete and the instances to write,
with all that the store has to know of the model to keep its indexes. A `BatchReply` says what
became of each of them.
-/

namespace KeyedRecords

/-- A field of which the store keeps an index. -/
structure IndexSpec where
  field : String
  /-- Whether a value belongs to one id at most. -/
  unique : Bool
deriving DecidableEq

structure InstanceWrite where
  /-- The key under which the session knows it. -/
  identity : IdentityKey
  /-- Its id; without one the store assigns it. -/
  id : Option String
  /-- The stored texts of its fields, besides the identity. -/
  fields : List (String × String)
  /-- The stored texts of its indexed fields. -/
  indexValues : List (String × String)
  /-- Its place in the sorted collections. -/
  score : Option Double
  /-- The version it was read with. -/
  expectedVersion : Option Int

namespace InstanceWrite

/-- The write of a record. -/
def ofRecord (l : Layout) (identity : IdentityKey) (r : Record) (expectedVersion : Option Int) :
    InstanceWrite :=
  { identity
    id := (r.get? l.identity.name).bind l.identity.kind.encode
    fields := r.toHash l
    indexValues := l.indexedFields.filterMap fun f => do
      let value ← r.get? f.name
      let raw ← f.kind.encode value
      return (f.name, raw)
    score := r.score l
    expectedVersion }

/-- The stored text of an indexed field. -/
def indexValue? (w : InstanceWrite) (field : String) : Option String := w.indexValues.lookup field

end InstanceWrite

/-- Where the ids to delete come from. -/
inductive DeleteSource where
  /-- Ids given one by one. -/
  | ids (ids : List String)
  /-- The members of a key. -/
  | key (key : String)
deriving DecidableEq

/-- What one model contributes to a commit. -/
structure Batch where
  /-- The name of the model. -/
  model : String
  keys : ModelKeys
  /-- Its identity field, under which the id is stored too. -/
  identity : String
  /-- The fields of which indexes are kept. -/
  indices : List IndexSpec
  /-- Whether the collections are sorted. -/
  ordered : Bool
  /-- Whether the store assigns ids. -/
  autoId : Bool
  /-- The field that counts versions. -/
  versionField : Option String
  /-- The structured containers of an instance. -/
  structures : List String
  writes : List InstanceWrite
  /-- The ids to delete. -/
  deletes : List DeleteSource

namespace Batch

/-- A batch without instances. -/
def ofLayout (l : Layout) : Batch :=
  { model := l.name, keys := l.keys, identity := l.identity.name
    indices := l.indexedFields.map fun f => ⟨f.name, f.unique⟩
    ordered := l.isOrdered, autoId := l.autoId, versionField := l.versionField
    structures := l.structures, writes := [], deletes := [] }

/-- Whether there is nothing to do. -/
def isEmpty (b : Batch) : Bool := b.writes.isEmpty && b.deletes.isEmpty

end Batch

/-- What the store says of an accepted write. -/
structure WriteAck where
  id : String
  /-- The version that is stored now. -/
  version : Option Int
deriving DecidableEq

/-- What the store says of one write. -/
structure WriteReply where
  /-- The key under which the session knows the instance. -/
  identity : IdentityKey
  /-- Its id and version, or why it was refused. -/
  result : Except BackendError WriteAck

/-- What the store says of a batch. -/
structure BatchReply where
  /-- One result for each write. -/
  writes : List WriteReply
  /-- The ids whose records were deleted. -/
  deleted : List String
  /-- The ids whose deletion was refused, and why. -/
  failedDeletes : List (String × BackendError)

/-- The reply to a batch without instances. -/
def BatchReply.empty : BatchReply := ⟨[], [], []⟩

end KeyedRecords
