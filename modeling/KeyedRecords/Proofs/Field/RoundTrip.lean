import KeyedRecords.Field.Kind
import KeyedRecords.Proofs.Number.Integer
import KeyedRecords.Proofs.Number.RoundTrip
import KeyedRecords.Proofs.Text.Hex

/-!
# Values and their stored texts

A value of the kind of its field comes back from its stored text (`FieldKind.decode_encode`). That a
document comes back from its text is a property of the document here (`Value.Survives`); a double
comes back unless it is no number (`Value.survives_float`).
-/

namespace KeyedRecords

namespace Value

/-- A value is one of the values that a kind of field is made for. -/
inductive OfKind : Value → FieldKind → Prop
  | bool (b : Bool) : OfKind (.bool b) .bool
  | int (n : Int64) : OfKind (.int n) .int
  | float (x : Double) : OfKind (.float x) .float
  | text (s : String) : OfKind (.text s) .text
  | bytes (data : List UInt8) : OfKind (.bytes data) .bytes
  | json (document : Json) : OfKind (.json document) .json

theorem OfKind.isNull {v : Value} {kind : FieldKind} (h : v.OfKind kind) : v.isNull = false := by
  cases h <;> rfl

/-- A double or a document is read back from the text that is written of it. -/
def Survives : Value → Prop
  | .float x => Number.readDouble? (Number.floatText .plain x) = some x
  | .json document => Json.read? document.write = some document
  | _ => True

/-- Every double survives that is a number. -/
theorem survives_float {x : Double} (h : x.isNaN = false) : (float x).Survives := by
  show Number.readDouble? _ = _
  rw [Number.readDouble?_floatText, h]
  rfl

end Value

/-- A value of the kind of its field is read back from its stored text. -/
theorem FieldKind.decode_encode {kind : FieldKind} {v : Value} (hkind : v.OfKind kind)
    (h : v.Survives) : ∃ raw, kind.encode v = some raw ∧ kind.decode raw = .ok v := by
  cases hkind with
  | bool b => cases b <;> exact ⟨_, rfl, rfl⟩
  | int n =>
    refine ⟨_, rfl, ?_⟩
    simp only [decode, Number.readInt64?_toInt]
  | float x =>
    refine ⟨_, rfl, ?_⟩
    have hread : Number.readDouble? (Number.floatText .plain x) = some x := h
    simp only [decode, hread]
  | text s => exact ⟨s, rfl, rfl⟩
  | bytes data =>
    refine ⟨_, rfl, ?_⟩
    simp only [decode, Text.Hex.decode?_encode]
  | json document =>
    refine ⟨_, rfl, ?_⟩
    have hread : Json.read? document.write = some document := h
    simp only [decode, hread]

end KeyedRecords
