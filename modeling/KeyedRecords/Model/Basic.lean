import KeyedRecords.Model.Record
import KeyedRecords.Validation.Failure

/-!
# Models

A model says how the values of a type are kept: their declaration, how they become records and come
back from them, and which rules of their own they have.
-/

namespace KeyedRecords

/-- How the values of a type are kept. -/
structure Model (α : Type) where
  /-- The declaration of the model. -/
  schema : Schema
  /-- The id of a value, if it has one. -/
  primaryKey : α → Option String
  /-- The value with an id that the store has assigned. -/
  withPrimaryKey : String → α → Except Error α
  /-- The record of a value, identity included. -/
  toRecord : α → Record
  /-- The value of a record; the id is empty as long as there is none. -/
  ofRecord : String → Record → Except Error α
  /-- The version of a value, if its model counts versions. -/
  version : α → Option Int
  /-- The value with another version, as far as it can hold it. -/
  withVersion : Int → α → α
  /-- The rules of the application that a value breaks. -/
  ownFailures : α → ValidationFailures

/-- What tells the model from others. -/
def Model.tag {α : Type} (m : Model α) : ModelTag := m.schema.toModelTag

end KeyedRecords
