import KeyedRecords.Instance.Lifecycle
import KeyedRecords.Model.Basic
import KeyedRecords.Validation.Check

/-!
# Instances

An instance is a value of a model together with where it stands.
-/

namespace KeyedRecords

/-- A value and where it stands. -/
structure Instance (α : Type) where
  value : α
  /-- Where it stands. -/
  state : Lifecycle

namespace Instance

variable {α : Type}

def id? (m : Model α) (i : Instance α) : Option String := m.primaryKey i.value

/-- The key under which a session knows an instance. -/
def identityKey (m : Model α) (i : Instance α) : IdentityKey := i.state.identityKey (i.id? m)

def record (m : Model α) (i : Instance α) : Record := m.toRecord i.value

/-- Checks an instance by the rules of its fields and its own. -/
def validate (m : Model α) (i : Instance α) : Except ValidationFailures Unit :=
  (i.record m).validate m.schema.fields (m.ownFailures i.value)

end Instance

end KeyedRecords
