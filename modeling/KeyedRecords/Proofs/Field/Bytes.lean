import KeyedRecords.Field.Kind
import KeyedRecords.Proofs.Text.Hex

/-!
# Stored bytes

Bytes are stored as hexadecimal digits. A text of digits is read as the bytes that are stored as
this text in lower case, and all bytes that are stored can be read again. Besides, a plus sign is
taken where a byte begins, in the place of a digit; apart from that, nothing but digits is read as
bytes (`FieldKind.decode_bytes_iff`).
-/

namespace KeyedRecords.FieldKind

/-- A text is read as bytes if it is readable as hexadecimal text. -/
theorem decode_bytes_eq_ok_iff {raw : String} {v : Value} :
    bytes.decode raw = .ok v ↔ ∃ data, Text.Hex.decode? raw = some data ∧ v = .bytes data := by
  simp only [decode]
  cases Text.Hex.decode? raw with
  | none => simp
  | some data => simp [eq_comm]

/-- Bytes are stored as hexadecimal text. -/
theorem encode_bytes (data : List UInt8) :
    bytes.encode (.bytes data) = some (Text.Hex.encode data) := rfl

/-- What is read as bytes is an even number of hexadecimal digits, except that a plus sign may stand
in the place of the first digit of a byte. Digits are read as the bytes that are stored as the same
digits in lower case, and stored bytes are read back. -/
theorem decode_bytes_iff (raw : String) (data : List UInt8) :
    ((∃ v, bytes.decode raw = .ok v) ↔ Text.Hex.Readable raw) ∧
      (Text.Hex.IsHex raw ↔ Text.Hex.Readable raw ∧ '+' ∉ raw.toList) ∧
      (∀ v, Text.Hex.IsHex raw → bytes.decode raw = .ok v → bytes.encode v = some raw.toLower) ∧
      ∃ stored, bytes.encode (.bytes data) = some stored ∧
        bytes.decode stored = .ok (.bytes data) := by
  refine ⟨?_, Text.Hex.isHex_iff raw, fun v hraw h => ?_, ?_⟩
  · rw [← Text.Hex.isSome_decode?_iff, Option.isSome_iff_exists]
    simp only [decode_bytes_eq_ok_iff]
    constructor
    · rintro ⟨_, read, hread, rfl⟩
      exact ⟨read, hread⟩
    · rintro ⟨read, hread⟩
      exact ⟨_, read, hread, rfl⟩
  · obtain ⟨read, hread, rfl⟩ := decode_bytes_eq_ok_iff.mp h
    rw [encode_bytes, Text.Hex.encode_of_decode? hraw hread]
  · exact ⟨_, encode_bytes data,
      decode_bytes_eq_ok_iff.mpr ⟨data, Text.Hex.decode?_encode data, rfl⟩⟩

/-- A plus sign and a digit are read as a byte, though they are no hexadecimal text; the byte is
stored as another text. -/
theorem decode_bytes_plus :
    bytes.decode "+f" = .ok (.bytes [15]) ∧ ¬Text.Hex.IsHex "+f" ∧
      bytes.encode (.bytes [15]) = some "0f" := by
  have hread : Text.Hex.decode? "+f" = some [15] := by
    rw [Text.Hex.decode?_eq_readPairs?]
    rfl
  refine ⟨decode_bytes_eq_ok_iff.mpr ⟨[15], hread, rfl⟩, fun h => ?_, rfl⟩
  exact ((Text.Hex.isHex_iff "+f").mp h).2 (by decide)

end KeyedRecords.FieldKind
