import KeyedRecords.Error.Basic

/-!
# Life cycle of an instance

Whether an instance is stored, whether it is to be deleted, and which session it belongs to. Only
a stored instance can be marked for deletion.
-/

namespace KeyedRecords

/-- Where an instance stands. -/
structure Lifecycle where
  /-- Whether it is stored. -/
  persistent : Bool
  /-- Whether it is to be deleted. -/
  deleted : Bool
  /-- The session it belongs to. -/
  session : Option SessionId
  /-- Its key as long as it is not stored. -/
  placeholder : IdentityKey
deriving DecidableEq

namespace Lifecycle

/-- An instance made by the application. -/
def fresh (placeholder : IdentityKey) : Lifecycle := ⟨false, false, none, placeholder⟩

/-- An instance read from the store. -/
def loaded (placeholder : IdentityKey) : Lifecycle := { fresh placeholder with persistent := true }

/-- The key of an instance that has the given id. -/
def identityKey (s : Lifecycle) (id : Option String) : IdentityKey :=
  match id with
  | some id => if s.persistent then id else s.placeholder
  | none => s.placeholder

/-- The instance has been stored. -/
def markPersistent (s : Lifecycle) : Lifecycle := { s with persistent := true, deleted := false }

/-- The instance is to be deleted. -/
def markDeleted (s : Lifecycle) : Except Error Lifecycle :=
  if s.persistent then .ok { s with deleted := true }
  else .error (.consistency "cannot mark a non-persistent instance deleted")

/-- The instance is not to be deleted after all. -/
def clearDeleted (s : Lifecycle) : Lifecycle := { s with deleted := false }

/-- The instance is gone from the store, and may be added again as a new one. -/
def markRemoved (s : Lifecycle) : Lifecycle :=
  { s with persistent := false, deleted := false, session := none }

/-- A session claims the instance. -/
def bind (s : Lifecycle) (session : SessionId) : Except Error Lifecycle :=
  match s.session with
  | some owner =>
    if owner = session then .ok { s with session := some session }
    else .error (.transaction ⟨.foreignSession,
      s!"instance belongs to {owner.text}, not {session.text}"⟩)
  | none => .ok { s with session := some session }

/-- The session lets go of the instance. -/
def detach (s : Lifecycle) : Lifecycle := { s with session := none }

end Lifecycle

end KeyedRecords
