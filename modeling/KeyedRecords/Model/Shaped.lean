import KeyedRecords.Model.Basic

/-!
# Models of records

A model whose values are records with declared fields, each in a shape. `ShapedModel.model` gives
all that a `Model` needs.
-/

namespace KeyedRecords

/-- A declared field and the values that it can hold. -/
structure ShapedField where
  field : Field
  /-- The values. -/
  shape : FieldShape

def ShapedField.plain (name : String) (shape : FieldShape) : ShapedField :=
  ⟨{ Field.plain name shape.kind with nullable := shape.nullable }, shape⟩

/-- The declaration of a model of records. -/
structure ShapedModel where
  /-- What tells the model from others. -/
  tag : ModelTag
  fields : List ShapedField
  /-- The rules of the application that a record breaks. -/
  ownFailures : Record → ValidationFailures

namespace ShapedModel

variable (m : ShapedModel)

/-- The declaration. -/
def schema : Schema := { m.tag with fields := m.fields.map (·.field) }

def identity? : Option ShapedField := m.fields.find? (·.field.primaryKey)

def version? : Option ShapedField := m.fields.find? (·.field.version)

/-- The id in a record; an empty one counts as none. -/
def primaryKey (r : Record) : Option String := do
  let f ← m.identity?
  let raw ← f.field.kind.encode (← r.get? f.field.name)
  if raw.isEmpty then none else some raw

/-- The record with another id. -/
def withPrimaryKey (id : String) (r : Record) : Except Error Record :=
  match m.identity? with
  | none => .ok r
  | some f => do
    let value ← f.shape.read (← f.field.kind.decode id)
    return r.set f.field.name value

/-- The values of declared fields in their shapes. -/
def readFields (r : Record) : List ShapedField → Except Error (List (String × Value))
  | [] => .ok []
  | f :: rest => do
    let value ← r.read f.field.name f.shape
    return (f.field.name, value) :: (← readFields r rest)

/-- The record with all declared fields and no others, in their shapes; the id is taken over if the
record has none. -/
def ofRecord (id : String) (r : Record) : Except Error Record := do
  let r : Record := ⟨← readFields r m.fields⟩
  if !id.isEmpty && (m.primaryKey r).isNone then m.withPrimaryKey id r else return r

def version (r : Record) : Option Int := do
  let f ← m.version?
  match ← r.get? f.field.name with
  | .int n => some n.toInt
  | _ => none

/-- The record with another version, if its field can hold it. -/
def withVersion (version : Int) (r : Record) : Record :=
  match m.version?, Number.toInt64? version with
  | some f, some n =>
    match f.shape.read (.int n) with
    | .ok value => r.set f.field.name value
    | .error _ => r
  | _, _ => r

def model : Model Record :=
  { schema := m.schema, primaryKey := m.primaryKey, withPrimaryKey := m.withPrimaryKey
    toRecord := id, ofRecord := m.ofRecord, version := m.version, withVersion := m.withVersion
    ownFailures := m.ownFailures }

end ShapedModel

end KeyedRecords
