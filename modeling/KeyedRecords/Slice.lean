/-!
# Slices

Three ways to say which part of a list is meant: a half-open slice with an optional end
(`sliceRange`), the bounds of the store, whose end is included (`inclusiveRange`), and the passage
from the first to the second (`toInclusive?`). Negative positions count from the end.
-/

namespace KeyedRecords.Slice

/-- The least position that can be written. -/
def leastPosition : Int := -9223372036854775808

/-- The bounds with included end of a half-open slice; none if the slice is empty whatever the
length. -/
def toInclusive? (start : Int) : Option Int → Option (Int × Int)
  | none => some (start, -1)
  | some stop => if stop = 0 then none else some (start, max (stop - 1) leastPosition)

/-- A position counted from the end if it is negative, cut to the length. -/
def clamp (length position : Int) : Int :=
  if position < 0 then max (length + position) 0 else min position length

/-- The first position of a half-open slice, and the one behind its last. -/
def sliceRange (length : Nat) (start : Int) (stop : Option Int) : Nat × Nat :=
  let first := clamp length start
  let last := (stop.map (clamp length)).getD length
  if last ≤ first then (0, 0) else (first.toNat, last.toNat)

/-- The first and the last position of bounds with included end; none if nothing lies between. -/
def inclusiveRange (length : Nat) (start stop : Int) : Option (Nat × Nat) :=
  let n : Int := length
  let first := if start < 0 then max (n + start) 0 else start
  let last := if stop < 0 then n + stop else min stop (n - 1)
  if n = 0 ∨ last < first ∨ n ≤ first then none else some (first.toNat, last.toNat)

/-- The items of a half-open slice. -/
def slice {α : Type} (items : List α) (start : Int) (stop : Option Int) : List α :=
  let (first, last) := sliceRange items.length start stop
  (items.drop first).take (last - first)

/-- The items between bounds with included end. -/
def between {α : Type} (items : List α) (start stop : Int) : List α :=
  match inclusiveRange items.length start stop with
  | some (first, last) => (items.drop first).take (last + 1 - first)
  | none => []

end KeyedRecords.Slice
