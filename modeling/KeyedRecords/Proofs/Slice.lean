import KeyedRecords.Number.Integer
import KeyedRecords.Slice

/-!
# What slices have

A slice has the items whose positions lie within its bounds (`Slice.covered`), however it is cut:
by a half-open range, or by bounds with included end that stand for it (`Slice.slices_agree`). No
bound of 64 bits leads to a position outside the list, and no sum on the way there is too great for
a word of 64 bits: the ranges are the same when every sum is checked (`Slice.Checked`). With no
bounds or with the widest ones, all of the list is meant.
-/

namespace KeyedRecords.Slice

variable {α : Type}

/-- Where a bound lies in a list of a length; a negative one counts from the end. -/
def bound (length : Nat) (position : Int) : Int :=
  if position < 0 then length + position else position

theorem bound_of_neg {length : Nat} {position : Int} (h : position < 0) :
    bound length position = length + position := if_pos h

theorem bound_of_nonneg {length : Nat} {position : Int} (h : 0 ≤ position) :
    bound length position = position := if_neg (Int.not_lt.mpr h)

/-- The items of a half-open slice, picked one by one: an item belongs to it if it lies not before
the start, and before the end if there is one. -/
def covered (items : List α) (start : Int) (stop : Option Int) : List α :=
  (items.zipIdx.filter fun (_, i) =>
    bound items.length start ≤ i && stop.all fun s => i < bound items.length s).map Prod.fst

/-- Items picked by their positions, the first of which is `k`, lie between two of them. -/
theorem map_filter_zipIdx (items : List α) (first last k : Nat) :
    ((items.zipIdx k).filter fun (_, i) => first ≤ i && i < last).map Prod.fst =
      (items.take (last - k)).drop (first - k) := by
  induction items generalizing k with
  | nil => simp
  | cons a rest ih =>
    rw [List.zipIdx_cons, List.filter_cons]
    by_cases hlast : k < last
    · have htake : last - k = last - (k + 1) + 1 := by omega
      by_cases hfirst : first ≤ k
      · have hdrop : first - k = 0 := by omega
        have hdrop' : first - (k + 1) = 0 := by omega
        simp [hfirst, hlast, ih, htake, hdrop, hdrop']
      · have hdrop : first - k = first - (k + 1) + 1 := by omega
        simp [hfirst, ih, htake, hdrop]
    · have htake : last - k = 0 := by omega
      have htake' : last - (k + 1) = 0 := by omega
      simp [hlast, ih, htake, htake']

/-- What a slice covers lies between two positions, wherever these can be read off its bounds. -/
theorem covered_eq {items : List α} {start : Int} {stop : Option Int} (first last : Nat)
    (h : ∀ i : Nat, i < items.length → ((bound items.length start ≤ i ∧
      ∀ s, stop = some s → (i : Int) < bound items.length s) ↔ first ≤ i ∧ i < last)) :
    covered items start stop = (items.drop first).take (last - first) := by
  rw [← List.drop_take]
  refine Eq.trans ?_ (map_filter_zipIdx items first last 0)
  unfold covered
  congr 1
  refine List.filter_congr fun x hx => ?_
  have hi : x.2 < items.length := by simpa using List.snd_lt_of_mem_zipIdx hx
  rw [Bool.eq_iff_iff]
  simpa [Option.all_eq_true] using h x.2 hi

/-- A slice has the items that it covers. -/
theorem slice_eq_covered (items : List α) (start : Int) (stop : Option Int) :
    slice items start stop = covered items start stop := by
  have hrange : covered items start stop =
      (items.drop (sliceRange items.length start stop).1).take
        ((sliceRange items.length start stop).2 - (sliceRange items.length start stop).1) := by
    refine covered_eq _ _ fun i hi => ?_
    unfold sliceRange clamp bound
    cases stop with
    | none =>
      simp only [Option.map_none, Option.getD_none]
      grind
    | some s =>
      simp only [Option.map_some, Option.getD_some]
      grind
  rw [hrange]
  rfl

theorem clamp_nonneg (length : Nat) (position : Int) : 0 ≤ clamp length position := by
  unfold clamp
  split <;> omega

theorem clamp_le (length : Nat) (position : Int) : clamp length position ≤ length := by
  unfold clamp
  split <;> omega

/-- A half-open range lies in the list. -/
theorem sliceRange_le (length : Nat) (start : Int) (stop : Option Int) :
    (sliceRange length start stop).1 ≤ (sliceRange length start stop).2 ∧
      (sliceRange length start stop).2 ≤ length := by
  have hlast : (stop.map (clamp length)).getD length ≤ length := by
    cases stop with
    | none => exact Int.le_refl _
    | some s => exact clamp_le length s
  have hfirst := clamp_nonneg length start
  unfold sliceRange
  dsimp only
  split <;> dsimp only <;> omega

/-- Bounds with included end have nothing between them if no position lies there. -/
theorem inclusiveRange_eq_none {length : Nat} {start last : Int}
    (h : inclusiveRange length start last = none) (i : Nat) (hi : i < length) :
    ¬(bound length start ≤ i ∧ (i : Int) ≤ bound length last) := by
  unfold inclusiveRange at h
  unfold bound
  by_cases hstart : start < 0 <;> by_cases hlast : last < 0 <;>
    simp only [hstart, hlast, if_true, if_false] at h ⊢ <;>
    split at h <;> first | omega | cases h

/-- The positions between bounds with included end are those of the list that lie there. -/
theorem inclusiveRange_eq_some {length : Nat} {start last : Int} {range : Nat × Nat}
    (h : inclusiveRange length start last = some range) :
    range.1 ≤ range.2 ∧ range.2 < length ∧ ∀ i : Nat, i < length →
      ((bound length start ≤ i ∧ (i : Int) ≤ bound length last) ↔ range.1 ≤ i ∧ i ≤ range.2) := by
  unfold inclusiveRange at h
  unfold bound
  by_cases hstart : start < 0 <;> by_cases hlast : last < 0
  all_goals
    simp only [hstart, hlast, if_true, if_false, Option.ite_none_left_eq_some] at h ⊢
    obtain ⟨hbounds, hrange⟩ := h
    obtain rfl := Option.some.inj hrange
    refine ⟨by omega, by omega, fun i hi => ?_⟩
    omega

/-- Between the bounds that a half-open slice becomes, there are the items that it covers. -/
theorem between_eq_covered {items : List α} (hlength : items.length < 9223372036854775808) (start : Int)
    (stop : Option Int) :
    ((toInclusive? start stop).elim [] fun bounds => between items bounds.1 bounds.2) =
      covered items start stop := by
  -- an included end is where the last item lies
  have hbetween : ∀ last, (∀ i : Nat, i < items.length → ((i : Int) ≤ bound items.length last ↔
      ∀ s, stop = some s → (i : Int) < bound items.length s)) →
      between items start last = covered items start stop := by
    intro last hlast
    unfold between
    cases hrange : inclusiveRange items.length start last with
    | none =>
      rw [covered_eq 0 0 fun i hi => ?_]
      · simp
      · have hnone := inclusiveRange_eq_none hrange i hi
        rw [hlast i hi] at hnone
        simpa using hnone
    | some range =>
      obtain ⟨-, -, hiff⟩ := inclusiveRange_eq_some hrange
      rw [covered_eq range.1 (range.2 + 1) fun i hi => ?_]
      rw [← hlast i hi, hiff i hi, Nat.lt_succ_iff]
  unfold toInclusive?
  split
  next =>
    refine hbetween (-1) fun i hi => ?_
    simp [bound]
    omega
  next s =>
    split
    next h =>
      rw [covered_eq 0 0 fun i hi => ?_]
      · rfl
      · simp [bound, h]
    next hs =>
      show between items start (max (s - 1) leastPosition) = _
      have hleast : leastPosition = -9223372036854775808 := rfl
      refine hbetween _ fun i hi => ?_
      simp only [Option.some.injEq, forall_eq']
      rcases Int.lt_or_le s 0 with hneg | hpos
      · -- a bound that no list reaches may stand for a lesser one
        rw [bound_of_neg hneg, bound_of_neg (by omega)]
        omega
      · rw [bound_of_nonneg hpos, bound_of_nonneg (by omega)]
        omega

theorem fitsInt64_iff {n : Int} : Number.fitsInt64 n = true ↔ leastPosition ≤ n ∧ n < 9223372036854775808 := by
  rw [Number.fitsInt64, Bool.and_eq_true, decide_eq_true_iff, decide_eq_true_iff]
  exact and_congr_right fun _ => by omega

/-- The bounds that a half-open slice becomes fit a word if its own bounds do. -/
theorem toInclusive?_fits {start : Int} {stop : Option Int} {bounds : Int × Int}
    (hstart : Number.fitsInt64 start) (hstop : ∀ s, stop = some s → Number.fitsInt64 s)
    (h : toInclusive? start stop = some bounds) :
    Number.fitsInt64 bounds.1 ∧ Number.fitsInt64 bounds.2 := by
  unfold toInclusive? at h
  split at h
  next =>
    cases h
    exact ⟨hstart, rfl⟩
  next s =>
    split at h
    next => cases h
    next =>
      cases h
      have hs := fitsInt64_iff.mp (hstop s rfl)
      exact ⟨hstart, fitsInt64_iff.mpr ⟨by omega, by unfold leastPosition; omega⟩⟩

namespace Checked

/-- A number, if a word of 64 bits holds it. -/
def word? (n : Int) : Option Int := if Number.fitsInt64 n then some n else none

/-- `Slice.clamp` in words. -/
def clamp (length position : Int) : Option Int :=
  if position < 0 then (word? (length + position)).map (max · 0) else some (min position length)

/-- `Slice.sliceRange` in words; a position is not negative. -/
def sliceRange (length : Nat) (start : Int) (stop : Option Int) : Option (Nat × Nat) := do
  let n ← word? length
  let first ← clamp n start
  let last ← stop.elim (some n) (clamp n)
  if last ≤ first then return (0, 0) else return (← first.toNat?, ← last.toNat?)

/-- `Slice.inclusiveRange` in words; a position is not negative. -/
def inclusiveRange (length : Nat) (start stop : Int) : Option (Option (Nat × Nat)) := do
  let n ← word? length
  let first ← (if start < 0 then (word? (n + start)).map (max · 0) else some start)
  let last ← (if stop < 0 then word? (n + stop) else (word? (n - 1)).map (min stop))
  if n = 0 ∨ last < first ∨ n ≤ first then return none
  else return some (← first.toNat?, ← last.toNat?)

theorem toNat?_eq {n : Int} (h : 0 ≤ n) : n.toNat? = some n.toNat :=
  Int.mem_toNat?.mpr (Int.toNat_of_nonneg h).symm

theorem word?_eq {n : Int} (hleast : leastPosition ≤ n) (hgreatest : n < 9223372036854775808) :
    word? n = some n := if_pos (fitsInt64_iff.mpr ⟨hleast, hgreatest⟩)

variable {length : Nat} (hlength : length < 9223372036854775808)
include hlength

theorem word?_length : word? length = some (length : Int) :=
  word?_eq (by unfold leastPosition; omega) (by omega)

/-- Counted from the end, a position stays a word. -/
theorem word?_add {position : Int} (hposition : leastPosition ≤ position) (hneg : position < 0) :
    word? (length + position) = some (length + position) :=
  word?_eq (by omega) (by omega)

theorem clamp_eq {position : Int} (hposition : leastPosition ≤ position) :
    clamp length position = some (Slice.clamp length position) := by
  unfold clamp Slice.clamp
  split
  next hneg => rw [word?_add hlength hposition hneg, Option.map_some]
  next => rfl

/-- No sum on the way to a half-open range is too great for a word. -/
theorem sliceRange_eq {start : Int} {stop : Option Int} (hstart : leastPosition ≤ start)
    (hstop : ∀ s, stop = some s → leastPosition ≤ s) :
    sliceRange length start stop = some (Slice.sliceRange length start stop) := by
  have hword := word?_length hlength
  have hlast : stop.elim (some (length : Int)) (clamp length) =
      some ((stop.map (Slice.clamp length)).getD length) := by
    cases stop with
    | none => rfl
    | some s => exact clamp_eq hlength (hstop s rfl)
  unfold sliceRange Slice.sliceRange
  simp only [hword, clamp_eq hlength hstart, hlast, Option.bind_eq_bind, Option.bind_some]
  have hfirst := clamp_nonneg length start
  split
  next => rfl
  next hlt => rw [toNat?_eq hfirst, toNat?_eq (by omega)]; rfl

/-- Nor is one on the way to bounds with included end. -/
theorem inclusiveRange_eq {start last : Int} (hstart : leastPosition ≤ start)
    (hlast : leastPosition ≤ last) :
    inclusiveRange length start last = some (Slice.inclusiveRange length start last) := by
  have hword := word?_length hlength
  have hbefore : word? ((length : Int) - 1) = some ((length : Int) - 1) :=
    word?_eq (by unfold leastPosition; omega) (by omega)
  have hfirst : (if start < 0 then (word? (length + start)).map (max · 0) else some start) =
      some (if start < 0 then max (length + start) 0 else start) := by
    split
    next hneg => rw [word?_add hlength hstart hneg, Option.map_some]
    next => rfl
  have hend : (if last < 0 then word? (length + last)
      else (word? ((length : Int) - 1)).map (min last)) =
      some (if last < 0 then length + last else min last (length - 1)) := by
    split
    next hneg => rw [word?_add hlength hlast hneg]
    next => rw [hbefore, Option.map_some]
  unfold inclusiveRange Slice.inclusiveRange
  simp only [hword, hfirst, hend, Option.bind_eq_bind, Option.bind_some]
  have hnonneg : 0 ≤ if start < 0 then max (length + start) 0 else start := by split <;> omega
  generalize (if start < 0 then max (length + start) 0 else start) = first at hnonneg ⊢
  generalize (if last < 0 then length + last else min last ((length : Int) - 1)) = behind
  split
  next => rfl
  next hbounds => rw [toNat?_eq hnonneg, toNat?_eq (by omega)]; rfl

end Checked

/-- A half-open slice of a list whose length a word of 64 bits holds is the same whether it is cut at
once or by bounds with included end: it has the items whose positions lie within its bounds. All
positions on the way are those of the list or the one behind it, and words of 64 bits hold all
sums. -/
theorem slices_agree (items : List α) (hlength : items.length < 9223372036854775808) (start : Int64)
    (stop : Option Int64) :
    let first := start.toInt
    let last := stop.map Int64.toInt
    let range := sliceRange items.length first last
    (toInclusive? first last).elim [] (fun bounds => between items bounds.1 bounds.2) =
        slice items first last ∧
      slice items first last = covered items first last ∧
      (range.1 ≤ range.2 ∧ range.2 ≤ items.length) ∧
      Checked.sliceRange items.length first last = some range ∧
      ∀ bounds, toInclusive? first last = some bounds →
        Number.fitsInt64 bounds.1 ∧ Number.fitsInt64 bounds.2 ∧
        Checked.inclusiveRange items.length bounds.1 bounds.2 =
          some (inclusiveRange items.length bounds.1 bounds.2) ∧
        ∀ positions, inclusiveRange items.length bounds.1 bounds.2 = some positions →
          positions.1 ≤ positions.2 ∧ positions.2 < items.length := by
  intro first last range
  have hfits : ∀ n : Int64, Number.fitsInt64 n.toInt := fun n =>
    fitsInt64_iff.mpr ⟨n.le_toInt, n.toInt_lt⟩
  have hlast : ∀ s, last = some s → Number.fitsInt64 s := by
    intro s hs
    obtain ⟨n, -, rfl⟩ := Option.map_eq_some_iff.mp hs
    exact hfits n
  have hchecked := Checked.sliceRange_eq hlength start.le_toInt
    fun s hs => (fitsInt64_iff.mp (hlast s hs)).1
  refine ⟨?_, slice_eq_covered .., sliceRange_le .., hchecked, fun bounds hbounds => ?_⟩
  · rw [slice_eq_covered, between_eq_covered hlength]
  · obtain ⟨hstart, hend⟩ := toInclusive?_fits (hfits start) hlast hbounds
    refine ⟨hstart, hend, Checked.inclusiveRange_eq hlength (fitsInt64_iff.mp hstart).1
      (fitsInt64_iff.mp hend).1, fun positions hpositions => ?_⟩
    obtain ⟨hle, hlt, -⟩ := inclusiveRange_eq_some hpositions
    exact ⟨hle, hlt⟩

/-- The least bound there is lies in front of every list: a slice up to it is empty, and one from it
on begins with the first item. -/
theorem slices_agree_least :
    ["a", "b"].length < 9223372036854775808 ∧
      (toInclusive? Int64.minValue.toInt (some Int64.minValue.toInt)).elim []
        (fun bounds => between ["a", "b"] bounds.1 bounds.2) = [] ∧
      slice ["a", "b"] Int64.minValue.toInt (some (-1 : Int64).toInt) = ["a"] := by
  have hlength : ["a", "b"].length < 9223372036854775808 := by decide
  refine ⟨hlength, ?_, ?_⟩
  · have hagree := slices_agree _ hlength .minValue (some .minValue)
    exact hagree.1.trans (hagree.2.1.trans (by decide +kernel))
  · exact (slices_agree _ hlength .minValue (some (-1))).2.1.trans (by decide +kernel)

/-- A list that is longer than any word says is noticed. -/
example : Checked.sliceRange 9223372036854775808 0 none = none := by decide

/-- A slice without bounds is the whole list. -/
theorem slice_all (items : List α) : slice items 0 none = items := by
  have hrange : sliceRange items.length 0 none = (0, items.length) := by
    have hclamp : clamp items.length 0 = 0 := by
      unfold clamp
      split <;> omega
    unfold sliceRange
    rw [hclamp]
    simp only [Option.map_none, Option.getD_none]
    split
    next hempty =>
      have hlength : items.length = 0 := by omega
      rw [hlength]
    next => rfl
  unfold slice
  rw [hrange]
  simp

/-- From the first item to the last, there is the whole list. -/
theorem between_all (items : List α) : between items 0 (-1) = items := by
  cases items with
  | nil => rfl
  | cons a rest =>
    have hrange : inclusiveRange (a :: rest).length 0 (-1) = some (0, rest.length) := by
      unfold inclusiveRange
      simp only [List.length_cons, Int.reduceLT, if_false, Int.reduceNeg, if_true,
        Option.ite_none_left_eq_some]
      constructor
      · omega
      · simp only [Option.some.injEq, Prod.mk.injEq]
        omega
    unfold between
    rw [hrange]
    simp

end KeyedRecords.Slice
