import KeyedRecords.Number.Double

/-!
# Doubles as exact numbers

A finite double is a whole number times a power of two (`Double.parts`), and every fraction of whole
numbers has a nearest double (`nearest`); of two equally near ones it is the one whose last bit is
zero. Both directions work on the bits of the double in exact arithmetic.
-/

namespace KeyedRecords

/-- A double, taken apart. -/
inductive Binary64 where
  /-- Not a number. -/
  | nan
  /-- An infinity, negative if so said. -/
  | infinite (negative : Bool)
  /-- The number `mantissa * 2 ^ exponent` with its sign. -/
  | finite (negative : Bool) (mantissa : Nat) (exponent : Int)

def Double.parts (x : Double) : Binary64 :=
  let bits := x.bits.toNat
  let negative := bits / Nat.pow 2 63 == 1
  let field : Nat := bits / Nat.pow 2 52 % Nat.pow 2 11
  let fraction : Nat := bits % Nat.pow 2 52
  if field == 2047 then if fraction == 0 then .infinite negative else .nan
  else if field == 0 then .finite negative fraction (-1074)
  else .finite negative (fraction + Nat.pow 2 52) ((field : Int) - 1075)

/-- The least whole number that is not less than a double; zero for one that has none. -/
def Double.roundUp (x : Double) : Nat :=
  match x.parts with
  | .finite false mantissa exponent =>
    let den := Nat.pow 2 (-exponent).toNat
    (mantissa * Nat.pow 2 exponent.toNat + (den - 1)) / den
  | _ => 0

namespace Number

/-- The quotient rounded to the nearest whole number, a half to the even one. -/
def roundHalfEven (num den : Nat) : Nat :=
  let q := num / den
  let twice := 2 * (num % den)
  if twice < den then q
  else if den < twice then q + 1
  else q + q % 2

/-- The exponent at which `num / den` has 53 bits before the point, or the least exponent. -/
def binaryExponent (num den : Nat) : Int :=
  let guess : Int := (Nat.log2 num : Int) - (Nat.log2 den : Int) - 52
  -- the guess is right or one too great
  let scaledNum := num * Nat.pow 2 (-guess).toNat
  let scaledDen := den * Nat.pow 2 guess.toNat * Nat.pow 2 52
  let e := if scaledNum < scaledDen then guess - 1 else guess
  if e < -1074 then -1074 else e

/-- The bits of the double nearest to the positive fraction `num / den`. -/
def nearestBits (num den : Nat) : Nat :=
  let e := binaryExponent num den
  let mantissa := roundHalfEven (num * Nat.pow 2 (-e).toNat) (den * Nat.pow 2 e.toNat)
  let bits := mantissa + (e + 1074).toNat * Nat.pow 2 52
  if bits < Double.infinityBits then bits else Double.infinityBits

/-- The double nearest to `num / den`, with a sign. -/
def nearest (negative : Bool) (num den : Nat) : Double :=
  .ofParts negative (if num == 0 then 0 else nearestBits num den)

end Number

/-- The double nearest to an integer. -/
def Double.ofInt (n : Int) : Double := Number.nearest (n < 0) n.natAbs 1

end KeyedRecords
