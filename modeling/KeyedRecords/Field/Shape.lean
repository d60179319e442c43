import KeyedRecords.Field.Kind

/-!
# Shapes of fields

The shape of a field is the set of values that an instance can hold in it. `read` takes a value of
a record into a shape, converting where nothing is lost; what does not fit is an error.
-/

namespace KeyedRecords

/-- The values that an instance can hold in a field. -/
inductive FieldShape where
  /-- Truth values. -/
  | bool
  /-- Integers of 64 bits. -/
  | int64
  /-- Integers of 32 bits. -/
  | int32
  /-- Natural numbers of 32 bits. -/
  | nat32
  /-- Doubles. -/
  | float64
  /-- Floating-point numbers of 32 bits. -/
  | float32
  | text
  | bytes
  | json
  /-- The values of another shape, or none. -/
  | optional (shape : FieldShape)
deriving DecidableEq

namespace FieldShape

/-- How the values of a shape are stored. -/
def kind : FieldShape → FieldKind
  | .bool => .bool
  | .int64 | .int32 | .nat32 => .int
  | .float64 | .float32 => .float
  | .text => .text
  | .bytes => .bytes
  | .json => .json
  | .optional shape => shape.kind

/-- Whether null is a value of the shape. -/
def nullable : FieldShape → Bool
  | .optional _ => true
  | _ => false

/-- The value of a field that no one has set. -/
def default : FieldShape → Value
  | .bool => .bool false
  | .int64 | .int32 | .nat32 => .int 0
  | .float64 | .float32 => .float .zero
  | .text => .text ""
  | .bytes => .bytes []
  | .json => .json .null
  | .optional _ => .null

/-- A value is not of the shape expected. -/
def mismatch (expected : String) (value : Value) : Error :=
  .type ⟨expected, value.kindName, none⟩

/-- An integer does not fit the shape expected. -/
def outOfRange (expected : String) (n : Int64) : Error :=
  .type ⟨expected, s!"integer {Number.intText n.toInt} out of range", none⟩

/-- The value of a shape that a value of a record stands for. -/
def read : FieldShape → Value → Except Error Value
  | .bool, .bool b => .ok (.bool b)
  | .bool, .int n => .ok (.bool (n != 0))
  | .bool, v => .error (mismatch "bool" v)
  | .int64, .int n => .ok (.int n)
  | .int64, .bool b => .ok (.int (Value.ofFlag b))
  | .int64, v => .error (mismatch "i64" v)
  | .int32, .int n =>
    if -2147483648 ≤ n.toInt ∧ n.toInt ≤ 2147483647 then .ok (.int n)
    else .error (outOfRange "i32" n)
  | .int32, .bool b => .ok (.int (Value.ofFlag b))
  | .int32, v => .error (mismatch "i32" v)
  | .nat32, .int n =>
    if 0 ≤ n.toInt ∧ n.toInt ≤ 4294967295 then .ok (.int n)
    else .error (outOfRange "u32" n)
  | .nat32, v => .error (mismatch "u32" v)
  | .float64, .float x => .ok (.float x)
  | .float64, .int n => .ok (.float (.ofInt n.toInt))
  | .float64, v => .error (mismatch "f64" v)
  | .float32, .float x => .ok (.float x.narrow)
  | .float32, .int n => .ok (.float (Double.ofInt n.toInt).narrow)
  -- all but null is read as a double first, and refused as one
  | .float32, .null => .error (mismatch "f32" .null)
  | .float32, v => .error (mismatch "f64" v)
  | .text, .text s => .ok (.text s)
  | .text, v => .error (mismatch "String" v)
  | .bytes, .bytes data => .ok (.bytes data)
  | .bytes, .text s => .ok (.bytes (Text.Utf8.encode s))
  | .bytes, v => .error (mismatch "Vec<u8>" v)
  | .json, .json document => .ok (.json document)
  | .json, .text s =>
    match Json.read? s with
    | some document => .ok (.json document)
    | none => .error (.serialization "invalid document")
  | .json, v => .error (mismatch "JSON" v)
  | .optional _, .null => .ok .null
  | .optional shape, v => shape.read v

end FieldShape

end KeyedRecords
