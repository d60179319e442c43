import KeyedRecords.Client.Basic
import KeyedRecords.Instance.Basic
import KeyedRecords.Query.Tree
import KeyedRecords.Store.Data

/-!
# Trackers

A tracker holds what a session knows of one model: instances by identity key, in four partitions,
and deletes that are not about instances it holds. A key is meant to be in one partition at most;
`Tracker.pop` reports it if not.
-/

namespace KeyedRecords

/-- What a session knows of an instance. -/
inductive Partition where
  /-- It was added and has never been stored. -/
  | added
  /-- It is stored and was added again. -/
  | modified
  /-- It was read from the store. -/
  | loaded
  /-- It is stored and is to be deleted. -/
  | deleted
deriving DecidableEq

namespace Partition

/-- The partitions, in their order. -/
def all : List Partition := [.added, .modified, .loaded, .deleted]

/-- What a partition is called. -/
def name : Partition → String
  | .added => "New"
  | .modified => "Modified"
  | .loaded => "Loaded"
  | .deleted => "Deleted"

end Partition

/-- What a session knows of one model. -/
structure Tracker (α : Type) where
  model : Model α
  /-- What the catalog knows of it. -/
  layout : Layout
  /-- Instances that have never been stored. -/
  added : Table (Instance α)
  /-- Stored instances that were added again. -/
  modified : Table (Instance α)
  /-- Instances read from the store. -/
  loaded : Table (Instance α)
  /-- Stored instances that are to be deleted. -/
  deleted : Table (Instance α)
  deleteIds : List String
  /-- Queries whose results are to be deleted. -/
  deleteQueries : List Tree

namespace Tracker

variable {α : Type}

/-- A tracker without instances. -/
def empty (model : Model α) (layout : Layout) : Tracker α :=
  { model, layout, added := ∅, modified := ∅, loaded := ∅, deleted := ∅, deleteIds := []
    deleteQueries := [] }

def held (t : Tracker α) : Partition → Table (Instance α)
  | .added => t.added
  | .modified => t.modified
  | .loaded => t.loaded
  | .deleted => t.deleted

/-- Replaces the instances of a partition. -/
def setHeld (t : Tracker α) (p : Partition) (instances : Table (Instance α)) : Tracker α :=
  match p with
  | .added => { t with added := instances }
  | .modified => { t with modified := instances }
  | .loaded => { t with loaded := instances }
  | .deleted => { t with deleted := instances }

/-- Puts an instance into a partition. -/
def put (t : Tracker α) (p : Partition) (key : IdentityKey) (i : Instance α) : Tracker α :=
  t.setHeld p ((t.held p).insert key i)

/-- Takes an instance out of a partition. -/
def drop (t : Tracker α) (p : Partition) (key : IdentityKey) : Tracker α :=
  t.setHeld p ((t.held p).erase key)

/-- The first partition that has a key. -/
def partitionOf (t : Tracker α) (key : IdentityKey) : Option Partition :=
  Partition.all.find? fun p => (t.held p).contains key

def get? (t : Tracker α) (key : IdentityKey) : Option (Instance α) :=
  Partition.all.findSome? fun p => (t.held p)[key]?

/-- All instances with their keys, partition by partition. -/
def instances (t : Tracker α) : List (IdentityKey × Instance α) :=
  Partition.all.flatMap fun p => (t.held p).toList

/-- The instances that are to be written. -/
def dirty (t : Tracker α) : List (IdentityKey × Instance α) := t.added.toList ++ t.modified.toList

/-- The number of instances. -/
def size (t : Tracker α) : Nat := (Partition.all.map fun p => (t.held p).size).foldr (· + ·) 0

/-- The number of instances that are to be written. -/
def dirtyCount (t : Tracker α) : Nat := t.added.size + t.modified.size

/-- The number of deletes that are to be sent. -/
def pendingDeletes (t : Tracker α) : Nat :=
  t.deleted.size + t.deleteIds.length + t.deleteQueries.length

/-- An operation on a tracker. -/
abbrev Tracking (α β : Type) := Operation (Tracker α) β

/-- An operation fails. -/
def fail {β : Type} (e : Error) : Tracking α β := throw (.failed e)

/-- Takes a key out of partitions, when `found` is what earlier partitions had. -/
def popFrom (key : IdentityKey) (found : Option (Partition × Instance α)) :
    List Partition → Tracking α (Option (Partition × Instance α))
  | [] => return found
  | p :: rest => do
    let t ← get
    match (t.held p)[key]? with
    | none => popFrom key found rest
    | some i =>
      -- all partitions are looked at, so that a key held twice is noticed
      set (t.drop p key)
      match found with
      | some (first, _) =>
        fail (.consistency
          s!"{t.layout.name} instance {key} held by both {first.name} and {p.name}")
      | none => popFrom key (some (p, i)) rest

/-- Takes a key out of the partition that has it. -/
def pop (key : IdentityKey) : Tracking α (Option (Partition × Instance α)) :=
  popFrom key none Partition.all

/-- Holds an instance as one that is to be written. -/
def add (i : Instance α) : Tracking α IdentityKey := do
  let key := i.identityKey (← get).model
  discard (pop key)
  let p := if i.state.persistent then Partition.modified else .added
  modify (·.put p key { i with state := i.state.clearDeleted })
  return key

/-- Holds a stored instance as one that is to be deleted. -/
def putDeleted (key : IdentityKey) (i : Instance α) : Tracking α Unit := do
  let state ← Operation.ofExcept i.state.markDeleted
  modify (·.put .deleted key { i with state })

/-- Plans to delete a stored instance; one that has never been stored is forgotten. Answers whether
there is something to delete. -/
def delete (i : Instance α) : Tracking α Bool := do
  let key := i.identityKey (← get).model
  let i := match ← pop key with
    | some (_, held) => held
    | none => i
  if i.state.persistent then
    putDeleted key i
    return true
  else return false

/-- Plans to delete an id that no stored instance is held under. -/
def addDeleteId (id : String) : Tracking α Unit :=
  modify fun t => if t.deleteIds.contains id then t else { t with deleteIds := t.deleteIds ++ [id] }

/-- Plans to delete what is stored under an id. -/
def deleteId (id : String) : Tracking α Unit := do
  match ← pop id with
  | none => addDeleteId id
  | some (p, i) =>
    if i.state.persistent then putDeleted id i
    else
      modify (·.put p id i)
      addDeleteId id

/-- Plans to delete what a tree matches when the commit is sent. -/
def deleteMatching (tree : Tree) : Tracking α Unit := do
  let t ← get
  let asked := tree.origin.layout.keys
  if asked ≠ t.layout.keys then
    fail (.consistency s!"delete query over {asked.base} queued on {t.layout.keys.base}")
  unless tree.isEmpty do set { t with deleteQueries := t.deleteQueries ++ [tree] }

/-- Forgets an instance, and hands it back without its session. -/
def expunge (key : IdentityKey) : Tracking α (Option (Instance α)) := do
  match ← pop key with
  | some (_, i) => return some { i with state := i.state.detach }
  | none => return none

/-- Holds an instance that was read. If its key is held already, that instance is handed back. -/
def markLoaded (i : Instance α) : Tracking α (Instance α) := do
  let t ← get
  let key := i.identityKey t.model
  match t.get? key with
  | some held => return held
  | none =>
    set (t.put .loaded key i)
    return i

end Tracker

end KeyedRecords
