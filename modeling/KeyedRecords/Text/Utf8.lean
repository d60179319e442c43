/-!
# Bytes as UTF-8

`encode` gives the bytes of a text. `decode` reads any bytes: each longest run of bytes that begins
a character without completing it, and each byte that cannot begin one, reads as the replacement
character.
-/

namespace KeyedRecords.Text.Utf8

/-- The bytes of a text. -/
def encode (s : String) : List UInt8 := s.toUTF8.toList

/-- Stands for bytes that are no character. -/
def replacement : Char := Char.ofNat 0xfffd

/-- What the first byte of a character promises: its share of the code point, the bounds of the
second byte, and how many bytes follow. -/
structure Lead where
  /-- The bits the first byte contributes. -/
  bits : Nat
  /-- Least second byte. -/
  low : Nat
  /-- Greatest second byte. -/
  high : Nat
  /-- Number of bytes that follow. -/
  more : Nat

/-- The promise of a byte, if it can begin a character. -/
def lead? (b : Nat) : Option Lead :=
  if b < 0x80 then some ⟨b, 0, 0, 0⟩
  else if b < 0xc2 then none
  else if b < 0xe0 then some ⟨b - 0xc0, 0x80, 0xbf, 1⟩
  else if b = 0xe0 then some ⟨0, 0xa0, 0xbf, 2⟩
  else if b = 0xed then some ⟨0xd, 0x80, 0x9f, 2⟩
  else if b < 0xf0 then some ⟨b - 0xe0, 0x80, 0xbf, 2⟩
  else if b = 0xf0 then some ⟨0, 0x90, 0xbf, 3⟩
  else if b < 0xf4 then some ⟨b - 0xf0, 0x80, 0xbf, 3⟩
  else if b = 0xf4 then some ⟨4, 0x80, 0x8f, 3⟩
  else none

/-- Reads `more` further bytes of a character, the first of them within the bounds given. Answers
the character, or the replacement if one is missing, and the bytes left over. -/
def continueChar (bits low high : Nat) : Nat → List UInt8 → Char × List UInt8
  | 0, rest => (Char.ofNat bits, rest)
  | _ + 1, [] => (replacement, [])
  | more + 1, b :: rest =>
    if low ≤ b.toNat ∧ b.toNat ≤ high then
      continueChar (bits * 64 + (b.toNat - 0x80)) 0x80 0xbf more rest
    else (replacement, b :: rest)

/-- Reading on never gives bytes back. -/
theorem continueChar_length_le (bits low high more : Nat) (bytes : List UInt8) :
    (continueChar bits low high more bytes).2.length ≤ bytes.length := by
  induction more generalizing bits low high bytes with
  | zero => simp [continueChar]
  | succ more ih =>
    cases bytes with
    | nil => simp [continueChar]
    | cons b rest =>
      simp only [continueChar]
      split
      · exact Nat.le_succ_of_le (ih _ _ _ _)
      · exact Nat.le_refl _

/-- The characters that bytes stand for. -/
def decodeList : List UInt8 → List Char
  | [] => []
  | b :: rest =>
    match lead? b.toNat with
    | none => replacement :: decodeList rest
    | some lead =>
      let next := continueChar lead.bits lead.low lead.high lead.more rest
      next.1 :: decodeList next.2
termination_by bytes => bytes.length
decreasing_by
  · simp
  · exact Nat.lt_succ_of_le (continueChar_length_le _ _ _ _ _)

/-- The text that bytes stand for. -/
def decode (bytes : List UInt8) : String := String.ofList (decodeList bytes)

end KeyedRecords.Text.Utf8
