import KeyedRecords.Field.Shape
import KeyedRecords.Model.Layout

/-!
# Records

A record holds the values of the fields of one instance, each field once, in the order in which they
were first set. `toHash` and `ofHash` lead from records to what the store holds and back.
-/

namespace KeyedRecords

/-- The values of the fields of one instance. -/
structure Record where
  /-- Names and values. -/
  entries : List (String × Value)
deriving BEq

namespace Record

/-- Replaces the value of a name in place, or adds it at the end. -/
def setEntry (name : String) (value : Value) : List (String × Value) → List (String × Value)
  | [] => [(name, value)]
  | (n, v) :: rest => if n = name then (n, value) :: rest else (n, v) :: setEntry name value rest

/-- A record without fields. -/
def empty : Record := ⟨[]⟩

/-- Sets a field. -/
def set (r : Record) (name : String) (value : Value) : Record :=
  ⟨setEntry name value r.entries⟩

/-- Sets fields one after another. -/
def ofList (entries : List (String × Value)) : Record :=
  entries.foldl (fun r (name, value) => r.set name value) empty

/-- The value of a field, if it is set. -/
def get? (r : Record) (name : String) : Option Value := r.entries.lookup name

/-- Whether a field is set. -/
def contains (r : Record) (name : String) : Bool := (r.get? name).isSome

/-- The names of the fields that are set. -/
def names (r : Record) : List String := r.entries.map (·.1)

/-- A record without one of its fields. -/
def erase (r : Record) (name : String) : Record := ⟨r.entries.eraseP (·.1 == name)⟩

/-- The value of a field in a shape; a field that is not set has the default of the shape. -/
def read (r : Record) (name : String) (shape : FieldShape) : Except Error Value :=
  match r.get? name with
  | none => .ok shape.default
  | some v => (shape.read v).mapError (Error.inField name)

/-- The stored texts of the fields besides the identity; null is not stored. -/
def toHash (l : Layout) (r : Record) : List (String × String) :=
  (l.fields.filter fun f => !f.primaryKey).filterMap fun f => do
    let value ← r.get? f.name
    let raw ← f.kind.encode value
    return (f.name, raw)

/-- Adds stored texts to a record. Names that the model lacks, and the identity, are passed over. -/
def addPairs (l : Layout) : Record → List (String × String) → Except Error Record
  | r, [] => .ok r
  | r, (name, raw) :: rest =>
    match l.field? name with
    | none => addPairs l r rest
    | some f =>
      if f.primaryKey then addPairs l r rest
      else do
        let value ← (f.kind.decode raw).mapError (Error.inField name)
        addPairs l (r.set name value) rest

/-- The record that an id and stored texts stand for. -/
def ofHash (l : Layout) (id : String) (pairs : List (String × String)) : Except Error Record := do
  let identity ← l.identity.kind.decode id
  addPairs l (empty.set l.identity.name identity) pairs

/-- The number by which a record takes its place in the sorted collections of its model. -/
def score (l : Layout) (r : Record) : Option Double := do
  let order ← l.defaultOrdering
  let f ← l.field? order.field
  return ((r.get? f.name).bind f.kind.score).getD .zero

end Record

end KeyedRecords
