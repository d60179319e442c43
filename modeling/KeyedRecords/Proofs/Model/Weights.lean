import KeyedRecords.Proofs.Model.Record
import KeyedRecords.Proofs.Number.RoundTrip
import KeyedRecords.Store.Sorting

/-!
# The weights of values

A value has a score, by which it takes its place in the sorted collections, and its stored text has
a weight, which is the number that a sort by the field reads. For all numbers but one kind of them
the two are equal (`FieldKind.reads_of_isNumber`): a double that is no number is stored as a word,
and the word is read as the one that is positive.
-/

namespace KeyedRecords

/-- A value that is a number, or none; of the doubles that are no numbers, only the one that is read
from a text counts. -/
def Value.IsNumber : Value → Prop
  | .null | .bool _ | .int _ => True
  | .float x => x.isNaN = true → x = .nan false
  | .text _ | .bytes _ | .json _ => False

namespace FieldKind

variable {kind : FieldKind} {v : Value}

/-- The stored text of a value is read as the number by which the value is ordered. -/
def Reads (kind : FieldKind) (v : Value) : Prop :=
  ∀ raw, kind.encode v = some raw → Number.readDouble? raw = some ((kind.score v).getD .zero)

/-- A value without a text has no score either. -/
theorem score_of_encode_none (h : kind.encode v = none) : kind.score v = none := by
  cases v with
  | null => simp [score, Value.asDouble?]
  | bytes data => cases kind <;> cases h
  | json document => cases kind <;> cases document <;> cases h
  | _ => cases h

/-- The stored texts of numbers are read as their scores. -/
theorem reads_of_isNumber (hkind : kind.isNumeric = true) (h : v.IsNumber) : kind.Reads v := by
  have hscore : kind.score v = v.asDouble? := if_pos hkind
  intro raw hraw
  rw [hscore]
  cases v with
  | null => cases hraw
  | bool b =>
    cases hraw
    cases b with
    | false => exact congrArg some (congrArg Double.mk (by decide +kernel))
    | true => exact congrArg some (congrArg Double.mk (by decide +kernel))
  | int n =>
    cases hraw
    have hlow := n.le_toInt
    have hhigh := n.toInt_lt
    exact Number.readDouble?_intText (by omega)
  | float x =>
    cases hraw
    refine (Number.readDouble?_floatText x).trans (congrArg some ?_)
    split
    next hnan => exact (h hnan).symm
    next => rfl
  | text s => exact absurd h id
  | bytes data => exact absurd h id
  | json document => exact absurd h id

end FieldKind

/-- A text weighs a number just if it is read as the number. -/
theorem Keyspace.numericWeight_some_iff {raw : String} {x : Double} :
    numericWeight (some raw) = .ok x ↔ Number.readDouble? raw = some x := by
  cases hread : Number.readDouble? raw with
  | none => simp [numericWeight, hread]
  | some y => simp [numericWeight, hread]

/-- The text of an integer weighs the nearest double. -/
theorem Keyspace.numericWeight_intText {n : Int} (h : n.natAbs < 2 ^ 64) :
    numericWeight (some (Number.intText n)) = .ok (.ofInt n) :=
  numericWeight_some_iff.mpr (Number.readDouble?_intText h)

namespace Record

/-- The stored text of a field weighs what the field scores just if the value of the field is read
as its score. -/
theorem numericWeight_text?_iff (r : Record) (f : Field) :
    Keyspace.numericWeight (r.text? f) = .ok (((r.get? f.name).bind f.kind.score).getD .zero) ↔
      ∀ v, r.get? f.name = some v → f.kind.Reads v := by
  unfold text?
  cases hvalue : r.get? f.name with
  | none => exact iff_of_true rfl fun v hv => nomatch hv
  | some v =>
    rw [Option.bind_some, Option.bind_some]
    cases hraw : f.kind.encode v with
    | none =>
      rw [FieldKind.score_of_encode_none hraw]
      refine iff_of_true rfl fun v' hv' raw hraw' => ?_
      obtain rfl := Option.some.inj hv'
      rw [hraw] at hraw'
      cases hraw'
    | some raw =>
      rw [Keyspace.numericWeight_some_iff]
      constructor
      · intro hread v' hv' raw' hraw'
        obtain rfl := Option.some.inj hv'
        obtain rfl := Option.some.inj (hraw.symm.trans hraw')
        exact hread
      · exact fun hreads => hreads v rfl raw hraw

end Record

end KeyedRecords
