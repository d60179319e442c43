import KeyedRecords.Json.Basic
import KeyedRecords.Number.FloatText

/-!
# Numbers of documents

A number is read into a significand of 64 bits and a power of ten. Digits that the significand has
no room for count towards the power in front of the point and are dropped behind it. The value is
the significand as a double, scaled by one power of ten at a time.
-/

namespace KeyedRecords.Json

/-- Greatest significand. -/
def maxSignificand : Nat := Nat.pow 2 64 - 1

/-- Greatest exponent that can be written. -/
def maxExponent : Int := (Nat.pow 2 31 : Int) - 1

/-- A significand under construction. -/
structure Significand where
  /-- The digits so far. -/
  value : Nat
  /-- The power of ten they are scaled by. -/
  exponent : Int
  /-- Whether a digit found no room. -/
  full : Bool

/-- One more digit in front of the point. -/
def Significand.whole (s : Significand) (d : Nat) : Significand :=
  if s.full ∨ maxSignificand < 10 * s.value + d then
    { s with exponent := s.exponent + 1, full := true }
  else { s with value := 10 * s.value + d }

/-- One more digit behind the point. -/
def Significand.fraction (s : Significand) (d : Nat) : Significand :=
  if s.full ∨ maxSignificand < 10 * s.value + d then { s with full := true }
  else { s with value := 10 * s.value + d, exponent := s.exponent - 1 }

/-- `10 ^ 308`, the greatest power of ten among the doubles. -/
def greatestPower : Nat := 308

/-- A positive double scaled by a power of ten, in steps of at most `10 ^ 308`; none if the result
is too great. `steps` bounds the number of divisions. -/
def scale (exponent : Int) : Nat → Float → Option Float
  | 0, f => some f
  | steps + 1, f =>
    if exponent.natAbs ≤ greatestPower then
      let power := (Number.nearest false (Nat.pow 10 exponent.natAbs) 1).toFloat
      if 0 ≤ exponent then
        let g := f * power
        if g.isInf then none else some g
      else some (f / power)
    else if f == 0.0 then some f
    else if 0 ≤ exponent then none
    else
      let greatest := (Number.nearest false (Nat.pow 10 greatestPower) 1).toFloat
      scale (exponent + greatestPower) steps (f / greatest)

/-- The double that a significand and a power of ten stand for. After four steps down nothing is
left of any significand. -/
def floatOfParts (negative : Bool) (significand : Nat) (exponent : Int) : Option Float :=
  let f := (Number.nearest false significand 1).toFloat
  (scale exponent 4 f).map fun f => if negative then -f else f

/-- The digits of an exponent and what follows them, with its sign. -/
def readExponent? (cs : List Char) : Option (Bool × List Char × List Char) :=
  let (negative, rest) :=
    match cs with
    | '-' :: rest => (true, rest)
    | '+' :: rest => (false, rest)
    | rest => (false, rest)
  match Number.spanDigits rest with
  | ([], _) => none
  | (digits, rest) => some (negative, digits, rest)

/-- A double with an exponent behind it. -/
def withExponent (negative : Bool) (s : Significand) (cs : List Char) :
    Option (Json × List Char) := do
  let (down, digits, rest) ← readExponent? cs
  let e ← Number.readNat? digits
  if maxExponent < e then
    -- only nothing scaled up, or anything scaled down, has a value
    if s.value ≠ 0 ∧ !down then none
    else return (.float (if negative then -0.0 else 0.0), rest)
  else
    let exponent := if down then s.exponent - e else s.exponent + e
    return (.float (← floatOfParts negative s.value exponent), rest)

/-- What may follow the digits of a number in front of the point. -/
def afterWhole (negative : Bool) (s : Significand) (cs : List Char) :
    Option (Json × List Char) :=
  match cs with
  | '.' :: rest =>
    match Number.spanDigits rest with
    | ([], _) => none
    | (digits, rest) =>
      let digits := digits.filterMap Number.digitValue?
      -- whether digits still fit is found out anew
      let s := digits.foldl Significand.fraction { s with full := false }
      match rest with
      | 'e' :: rest | 'E' :: rest => withExponent negative s rest
      | rest => (floatOfParts negative s.value s.exponent).map fun x => (.float x, rest)
  | 'e' :: rest | 'E' :: rest => withExponent negative s rest
  | rest =>
    if s.full then (floatOfParts negative s.value s.exponent).map fun x => (.float x, rest)
    else if !negative then some (.int s.value, rest)
    -- a negative zero is a double, and so is what lies below all integers
    else if s.value = 0 ∨ Nat.pow 2 63 < s.value then
      some (.float (Number.nearest true s.value 1).toFloat, rest)
    else some (.int (-(s.value : Int)), rest)

/-- A number at the front of a text, and what follows it. A leading zero stands alone. -/
def readNumber? (cs : List Char) : Option (Json × List Char) :=
  let (negative, rest) :=
    match cs with
    | '-' :: rest => (true, rest)
    | rest => (false, rest)
  match Number.spanDigits rest with
  | ([], _) => none
  | ('0' :: _ :: _, _) => none
  | (digits, rest) =>
    afterWhole negative
      ((digits.filterMap Number.digitValue?).foldl Significand.whole ⟨0, 0, false⟩) rest

end KeyedRecords.Json
