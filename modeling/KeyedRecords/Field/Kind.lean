import KeyedRecords.Error.Basic
import KeyedRecords.Text.Quoted
import KeyedRecords.Value

/-!
# Kinds of fields

The store holds texts only. The kind of a field decides how its values become texts (`encode`), how
texts become values again (`decode`), and whether a value can order a sorted collection (`score`).
-/

namespace KeyedRecords

/-- How the values of a field are stored. -/
inductive FieldKind where
  /-- Truth values. -/
  | bool
  | int
  /-- Doubles. -/
  | float
  | text
  | bytes
  | json
deriving DecidableEq

namespace FieldKind

/-- What a kind is called in messages. -/
def name : FieldKind → String
  | .bool => "bool"
  | .int => "int"
  | .float => "float"
  | .text => "text"
  | .bytes => "bytes"
  | .json => "json"

/-- Kinds whose values are numbers. -/
def isNumeric : FieldKind → Bool
  | .bool | .int | .float => true
  | .text | .bytes | .json => false

/-- Kinds that can be sorted on and indexed. -/
def isScalar : FieldKind → Bool
  | .json => false
  | _ => true

/-- The stored text of a value; null has none. -/
def encode (kind : FieldKind) : Value → Option String
  | .null => none
  | .bool b => some (if b then "1" else "0")
  | .int n => some (Number.intText n.toInt)
  | .float x => some (Number.floatText .plain x)
  | .text s => some s
  | .bytes data =>
    match kind with
    | .bytes => some (Text.Hex.encode data)
    | _ => some (Text.Utf8.decode data)
  | .json document =>
    match kind, document with
    -- a text in a text field is stored without quotes
    | .text, .text s => some s
    | _, _ => some document.write

/-- A stored text is not one of the kind expected. -/
def mismatch (expected raw : String) : Error := .type ⟨expected, Text.quoted raw, none⟩

/-- The value of a stored text. -/
def decode (kind : FieldKind) (raw : String) : Except Error Value :=
  match kind with
  | .bool =>
    if raw = "1" ∨ raw = "true" then .ok (.bool true)
    else if raw = "0" ∨ raw = "false" ∨ raw = "" then .ok (.bool false)
    else .error (mismatch "bool" raw)
  | .int =>
    match Number.readInt64? raw with
    | some n => .ok (.int n)
    | none => .error (mismatch "int" raw)
  | .float =>
    match Number.readDouble? raw with
    | some x => .ok (.float x)
    | none => .error (mismatch "float" raw)
  | .text => .ok (.text raw)
  | .bytes =>
    match Text.Hex.decode? raw with
    | some data => .ok (.bytes data)
    | none => .error (mismatch "hex bytes" raw)
  | .json =>
    match Json.read? raw with
    | some document => .ok (.json document)
    | none => .error (mismatch "json" raw)

/-- The number by which a value orders a sorted collection. -/
def score (kind : FieldKind) (value : Value) : Option Double :=
  if kind.isNumeric then value.asDouble? else none

end FieldKind

end KeyedRecords
