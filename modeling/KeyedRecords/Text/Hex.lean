/-!
# Bytes as hexadecimal text

Two lower-case digits a byte. Reading cuts a text into pieces of two bytes, each of which is read as
a number: digits of both cases, and a plus sign in front of them. A cut inside a character fails.
-/

namespace KeyedRecords.Text.Hex

/-- The digit of a number below sixteen. -/
def digit (n : Nat) : Char :=
  if n < 10 then Char.ofNat ('0'.toNat + n) else Char.ofNat ('a'.toNat + (n - 10))

/-- The number a digit stands for. -/
def digitValue? (c : Char) : Option Nat :=
  if '0' ≤ c ∧ c ≤ '9' then some (c.toNat - '0'.toNat)
  else if 'a' ≤ c ∧ c ≤ 'f' then some (c.toNat - 'a'.toNat + 10)
  else if 'A' ≤ c ∧ c ≤ 'F' then some (c.toNat - 'A'.toNat + 10)
  else none

/-- The two digits of a byte. -/
def pair (b : UInt8) : List Char := [digit (b.toNat / 16), digit (b.toNat % 16)]

/-- The text of a list of bytes. -/
def encode (bytes : List UInt8) : String := String.ofList (bytes.flatMap pair)

/-- The number that digits stand for when read behind a number already read. -/
def readDigits? : Nat → List Char → Option Nat
  | n, [] => some n
  | n, c :: rest => do readDigits? (16 * n + (← digitValue? c)) rest

/-- The text without a plus sign in front. -/
def withoutPlus : List Char → List Char
  | '+' :: rest => rest
  | cs => cs

/-- The byte that digits stand for, at least one of them, with or without a plus sign. -/
def readByte? (cs : List Char) : Option UInt8 :=
  match withoutPlus cs with
  | [] => none
  | c :: rest =>
    (readDigits? 0 (c :: rest)).bind fun n => if n < 256 then some (UInt8.ofNat n) else none

/-- The characters behind the first `n` bytes, unless these end inside a character. -/
def dropBytes? : Nat → List Char → Option (List Char)
  | 0, cs => some cs
  | _ + 1, [] => none
  | n + 1, c :: rest => if c.utf8Size ≤ n + 1 then dropBytes? (n + 1 - c.utf8Size) rest else none

/-- The characters of the first `n` bytes, unless these end inside a character. -/
def takeBytes? : Nat → List Char → Option (List Char)
  | 0, _ => some []
  | _ + 1, [] => none
  | n + 1, c :: rest =>
    if c.utf8Size ≤ n + 1 then (takeBytes? (n + 1 - c.utf8Size) rest).map (c :: ·) else none

/-- The characters from one byte to another, unless one of the two lies inside a character. -/
def slice? (start stop : Nat) (cs : List Char) : Option (List Char) :=
  (dropBytes? start cs).bind (takeBytes? (stop - start))

/-- The bytes a text stands for, two bytes of text for each. -/
def decode? (s : String) : Option (List UInt8) :=
  if s.utf8ByteSize % 2 = 0 then
    (List.range (s.utf8ByteSize / 2)).mapM fun i =>
      (slice? (2 * i) (2 * i + 2) s.toList).bind readByte?
  else none

/-- The digits of a number, most significant first, as many as asked for. -/
def digits : Nat → Nat → List Char
  | 0, _ => []
  | width + 1, n => digits width (n / 16) ++ [digit (n % 16)]

/-- The digits of a number without leading zeros; zero has one digit. -/
def natural (n : Nat) : String :=
  let ds := (digits 16 n).dropWhile (· == '0')
  String.ofList (if ds.isEmpty then ['0'] else ds)

end KeyedRecords.Text.Hex
