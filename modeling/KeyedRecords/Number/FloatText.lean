import KeyedRecords.Number.Integer
import KeyedRecords.Number.Shortest

/-!
# Doubles as text

A `FloatStyle` says how the shortest decimal of a double is laid out. Three styles are in use:
`plain` in stored values and scores, `shown` in messages, and `document` inside JSON documents.
-/

namespace KeyedRecords.Number

/-- How a double is written. -/
structure FloatStyle where
  /-- Which of two equally near shortest decimals is written. -/
  tie : Tie
  /-- Whether a whole number gets `.0`. -/
  pointZero : Bool
  /-- Whether a number whose point has this position is written without an exponent. -/
  positional : Int → Bool
  /-- Whether an exponent always has a sign and at least two digits. -/
  fullExponent : Bool

/-- Stored form: no exponent, whole numbers without a point. -/
def FloatStyle.plain : FloatStyle := ⟨.up, false, fun _ => true, false⟩

/-- Form in messages: an exponent from `1e16` on and below `1e-4`. -/
def FloatStyle.shown : FloatStyle := ⟨.up, true, fun point => -4 < point && point ≤ 16, false⟩

/-- Form in documents: an exponent from `1e+16` on and below `1e-05`. -/
def FloatStyle.document : FloatStyle := ⟨.even, true, fun point => -5 < point && point ≤ 16, true⟩

def digitChar (d : Nat) : Char := Char.ofNat ('0'.toNat + d)

/-- A decimal without exponent. -/
def Decimal.positional (d : Decimal) (pointZero : Bool) : List Char :=
  let digits := d.digits.map digitChar
  if d.point ≤ 0 then
    '0' :: '.' :: (List.replicate (-d.point).toNat '0' ++ digits)
  else
    let before := d.point.toNat
    if digits.length ≤ before then
      digits ++ List.replicate (before - digits.length) '0' ++
        if pointZero then ['.', '0'] else []
    else digits.take before ++ '.' :: digits.drop before

/-- An exponent, with a sign and two digits at least if so asked. -/
def exponentText (full : Bool) (e : Int) : List Char :=
  if full then
    let digits := decimalDigits e.natAbs
    (if e < 0 then '-' else '+') :: (if digits.length < 2 then '0' :: digits else digits)
  else (intText e).toList

/-- A decimal with one digit before the point and an exponent. -/
def Decimal.scientific (d : Decimal) (fullExponent : Bool) : List Char :=
  let digits := d.digits.map digitChar
  let fraction := if digits.length ≤ 1 then [] else '.' :: digits.drop 1
  digits.take 1 ++ fraction ++ 'e' :: exponentText fullExponent (d.point - 1)

def floatText (style : FloatStyle) (x : Double) : String :=
  match x.parts with
  | .nan => "NaN"
  | .infinite negative => if negative then "-inf" else "inf"
  | .finite negative mantissa exponent =>
    let sign := if negative then ['-'] else []
    let body :=
      if mantissa == 0 then if style.pointZero then ['0', '.', '0'] else ['0']
      else
        let d := shortest style.tie mantissa exponent
        if style.positional d.point then d.positional style.pointZero
        else d.scientific style.fullExponent
    String.ofList (sign ++ body)

/-- A number read as digits and a power of ten. -/
structure Scientific where
  /-- The digits as one whole number. -/
  significand : Nat
  /-- The power of ten. -/
  exponent : Int

/-- The leading digits, and what follows them. -/
def spanDigits (cs : List Char) : List Char × List Char :=
  (cs.takeWhile Char.isDigit, cs.dropWhile Char.isDigit)

/-- Digits with an optional point among or beside them, and an optional exponent; at least one
digit, and nothing behind. -/
def readScientific? (cs : List Char) : Option Scientific := do
  let (whole, rest) := spanDigits cs
  let (fraction, rest) :=
    match rest with
    | '.' :: rest => spanDigits rest
    | rest => ([], rest)
  let significand ← readNat? (whole ++ fraction)
  let exponent ←
    match rest with
    | [] => some 0
    | c :: rest => if c = 'e' ∨ c = 'E' then readIntList? rest else none
  return ⟨significand, exponent - fraction.length⟩

/-- The double nearest to a number read. Exponents beyond all doubles are settled by size alone. -/
def Scientific.nearest (s : Scientific) (negative : Bool) : Double :=
  let size := s.exponent + (digitsOf s.significand).length
  if s.significand == 0 ∨ size < -330 then .ofParts negative 0
  else if 310 < size then .infinity negative
  else
    let num := s.significand * Nat.pow 10 s.exponent.toNat
    Number.nearest negative num (Nat.pow 10 (-s.exponent).toNat)

/-- The double that a text without sign stands for. -/
def readMagnitude? (negative : Bool) (cs : List Char) : Option Double :=
  let word := cs.map Char.toLower
  if word = "inf".toList ∨ word = "infinity".toList then some (.infinity negative)
  else if word = "nan".toList then some (.nan negative)
  else (readScientific? cs).map (·.nearest negative)

/-- The double that a text stands for. -/
def readDouble? (s : String) : Option Double :=
  match s.toList with
  | '-' :: rest => readMagnitude? true rest
  | '+' :: rest => readMagnitude? false rest
  | cs => readMagnitude? false cs

end KeyedRecords.Number
