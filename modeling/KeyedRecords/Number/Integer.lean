/-!
# Integers as decimal text

Reading takes an optional sign and at least one digit. Numbers of the store are those of 64 bits
with sign; `readInt64?` refuses any other.
-/

namespace KeyedRecords.Number

/-- The number a decimal digit stands for. -/
def digitValue? (c : Char) : Option Nat :=
  if '0' ≤ c ∧ c ≤ '9' then some (c.toNat - '0'.toNat) else none

/-- The number that digits stand for when read behind a number already read. -/
def readDigits? : Nat → List Char → Option Nat
  | n, [] => some n
  | n, c :: rest => do readDigits? (10 * n + (← digitValue? c)) rest

/-- The number that one or more digits stand for. -/
def readNat? : List Char → Option Nat
  | [] => none
  | cs => readDigits? 0 cs

/-- The integer that an optional sign and digits stand for. -/
def readIntList? : List Char → Option Int
  | '-' :: rest => (readNat? rest).map fun n => -(n : Int)
  | '+' :: rest => (readNat? rest).map fun n => (n : Int)
  | cs => (readNat? cs).map fun n => (n : Int)

/-- The integer that a text stands for. -/
def readInt? (s : String) : Option Int := readIntList? s.toList

/-- Whether an integer is one of 64 bits with sign. -/
def fitsInt64 (n : Int) : Bool := -9223372036854775808 ≤ n && n ≤ 9223372036854775807

/-- An integer as one of 64 bits, if it fits. -/
def toInt64? (n : Int) : Option Int64 := if fitsInt64 n then some (Int64.ofInt n) else none

/-- The integer of 64 bits that a text stands for. -/
def readInt64? (s : String) : Option Int64 := (readInt? s).bind toInt64?

/-- The decimal digits of a number, most significant first. -/
def decimalDigits (n : Nat) : List Char :=
  if n < 10 then [Char.ofNat ('0'.toNat + n)]
  else decimalDigits (n / 10) ++ [Char.ofNat ('0'.toNat + n % 10)]

/-- The decimal text of an integer. -/
def intText (n : Int) : String :=
  match n with
  | .ofNat n => String.ofList (decimalDigits n)
  | .negSucc n => String.ofList ('-' :: decimalDigits (n + 1))

end KeyedRecords.Number
