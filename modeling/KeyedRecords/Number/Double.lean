/-!
# Doubles

A double is given by its 64 bits. A double that is no number has a sign too: arithmetic hands it on,
and it decides on which side of all numbers the double has its place (`Double.totalKey`).
-/

namespace KeyedRecords

/-- A floating-point number of 64 bits. -/
structure Double where
  /-- Sign, exponent and fraction. -/
  bits : UInt64

namespace Double

/-- The double with the given sign bit and the bits of its absolute value. -/
def ofParts (negative : Bool) (magnitude : Nat) : Double :=
  ⟨UInt64.ofNat (magnitude + if negative then Nat.pow 2 63 else 0)⟩

/-- The bits of positive infinity. -/
def infinityBits : Nat := 2047 * Nat.pow 2 52

def infinity (negative : Bool) : Double := ofParts negative infinityBits

/-- The double of a sign that is no number. -/
def nan (negative : Bool) : Double := ofParts negative (infinityBits + Nat.pow 2 51)

def zero : Double := ⟨0⟩

def ofFloat (x : Float) : Double := ⟨x.toBits⟩

def one : Double := ⟨0x3FF0000000000000⟩

/-- A double as a `Float`, of which a single one is no number. -/
def toFloat (x : Double) : Float := Float.ofBits x.bits

instance : Inhabited Double := ⟨zero⟩

/-- The bits of the absolute value of a double. -/
def magnitude (x : Double) : Nat := x.bits.toNat % Nat.pow 2 63

/-- Whether a double is no number. -/
def isNaN (x : Double) : Bool := infinityBits < x.magnitude

/-- Equality of numbers: both zeros are equal, and what is no number equals nothing. -/
instance : BEq Double :=
  ⟨fun a b => !a.isNaN && (a.bits == b.bits || (a.magnitude == 0 && b.magnitude == 0))⟩

/-- Whether one double is less than another, as numbers are. -/
def less (a b : Double) : Bool := a.toFloat < b.toFloat

/-- An operation on doubles. An operand that is no number is the result; a result that is no number
where the operands are is negative. -/
def lift (f : Float → Float → Float) (a b : Double) : Double :=
  if a.isNaN then a
  else if b.isNaN then b
  else
    let x := f a.toFloat b.toFloat
    if x.isNaN then nan true else ofFloat x

/-- The sum of two doubles. -/
def add : Double → Double → Double := lift (· + ·)

/-- The product of two doubles. -/
def mul : Double → Double → Double := lift (· * ·)

/-- The less of two doubles; anything before one that is no number. -/
def min (a b : Double) : Double :=
  if a.isNaN then b else if b.isNaN then a else if b.less a then b else a

/-- The greater of two doubles; anything before one that is no number. -/
def max (a b : Double) : Double :=
  if a.isNaN then b else if b.isNaN then a else if a.less b then b else a

/-- The nearest double that fits into 32 bits. -/
def narrow (x : Double) : Double := if x.isNaN then x else ofFloat x.toFloat.toFloat32.toFloat

/-- The place of a double in the total order of doubles: by sign, then by absolute value, with those
that are no numbers beyond the infinities. -/
def totalKey (x : Double) : Int :=
  let bits := x.bits.toNat
  if bits < Nat.pow 2 63 then (bits : Int) else (Nat.pow 2 63 : Int) - 1 - (bits : Int)

end Double

end KeyedRecords
