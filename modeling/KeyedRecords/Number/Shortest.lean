import KeyedRecords.Number.Binary64

/-!
# Shortest decimals

The fewest decimal digits from which the nearest double is the given one (`shortest`), and of those
digit strings the one nearest to it. Which of two equally near ones is taken is a parameter.
-/

namespace KeyedRecords.Number

/-- A positive number `0.d₁d₂...dₙ * 10 ^ point`. -/
structure Decimal where
  /-- The digits, most significant first, the last of them not zero. -/
  digits : List Nat
  /-- The position of the decimal point, counted from before the first digit. -/
  point : Int

/-- Which of two equally near decimals is taken. -/
inductive Tie where
  /-- The greater. -/
  | up
  /-- The one with the even last digit. -/
  | even
deriving DecidableEq

/-- The decimal digits of a number, most significant first. -/
def digitsOf (n : Nat) : List Nat :=
  if n < 10 then [n] else digitsOf (n / 10) ++ [n % 10]

/-- A positive whole number times a power of ten, without trailing zeros. -/
def Decimal.ofScaled (n : Nat) (scale : Int) : Decimal :=
  let digits := digitsOf n
  { digits := (digits.reverse.dropWhile (· == 0)).reverse, point := digits.length + scale }

/-- The reals that round to a double, as fractions over a common denominator. -/
structure Rounding where
  /-- Least numerator. -/
  low : Nat
  /-- Numerator of the double itself. -/
  value : Nat
  /-- Greatest numerator. -/
  high : Nat
  /-- The common denominator. -/
  den : Nat
  /-- Whether the two ends round to the double as well. -/
  closed : Bool

/-- The reals that round to `mantissa * 2 ^ exponent`. Below a power of two the doubles lie twice as
densely. -/
def Rounding.ofBinary (mantissa : Nat) (exponent : Int) : Rounding :=
  let up := Nat.pow 2 exponent.toNat
  let den := 4 * Nat.pow 2 (-exponent).toNat
  let below := if mantissa == Nat.pow 2 52 && exponent != -1074 then 1 else 2
  { low := (4 * mantissa - below) * up
    value := 4 * mantissa * up
    high := (4 * mantissa + 2) * up
    den := den
    closed := mantissa % 2 == 0 }

/-- Whether `n * 10 ^ scale` rounds to the double. -/
def Rounding.contains (r : Rounding) (n : Nat) (scale : Int) : Bool :=
  let x := n * Nat.pow 10 scale.toNat * r.den
  let unit := Nat.pow 10 (-scale).toNat
  if r.closed then r.low * unit ≤ x && x ≤ r.high * unit
  else r.low * unit < x && x < r.high * unit

/-- The number of digits before the point of a positive fraction, negative for leading zeros
after it. -/
def decimalPoint (num den : Nat) : Int :=
  if den ≤ num then ((digitsOf (num / den)).length : Int)
  else 1 - ((digitsOf ((den - 1) / num)).length : Int)

/-- The decimal with `count` digits that rounds to the double, if there is one; of two, the nearer
to the double. -/
def Rounding.withDigits? (r : Rounding) (tie : Tie) (point : Int) (count : Nat) :
    Option Decimal :=
  let scale := point - count
  let num := r.value * Nat.pow 10 (-scale).toNat
  let den := r.den * Nat.pow 10 scale.toNat
  let down := num / den
  let downFits := down != 0 && r.contains down scale
  let upFits := r.contains (down + 1) scale
  let twice := 2 * (num % den)
  -- of two that round to the double, the nearer one is taken
  let takeUp :=
    upFits && (!downFits || den < twice ||
      (twice == den && (tie == .up || down % 2 == 1)))
  if takeUp then some (.ofScaled (down + 1) scale)
  else if downFits then some (.ofScaled down scale)
  else none

/-- The first of `count, count + 1, ...` digits that suffice, trying at most `tries` counts. -/
def Rounding.search (r : Rounding) (tie : Tie) (point : Int) : Nat → Nat → Decimal
  | 0, _ => .ofScaled r.value 0
  | tries + 1, count => (r.withDigits? tie point count).getD (r.search tie point tries (count + 1))

/-- The shortest decimal that reads back as `mantissa * 2 ^ exponent`. Seventeen digits always
suffice. -/
def shortest (tie : Tie) (mantissa : Nat) (exponent : Int) : Decimal :=
  let r := Rounding.ofBinary mantissa exponent
  r.search tie (decimalPoint r.value r.den) 17 1

end KeyedRecords.Number
