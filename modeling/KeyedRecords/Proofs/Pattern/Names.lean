import KeyedRecords.Proofs.Pattern.Avoidance
import KeyedRecords.Text.Identifier

/-!
# The names that the pattern of names matches

The names that may become parts of keys are those that a pattern matches. They are the identifiers
(`isKeyName_eq_isIdentifier`): copies of a set of characters run over just those stretches of a text
whose characters are all in the set.
-/

namespace KeyedRecords

namespace Pattern

variable {text : Array Char} {s : CharSet}

/-- The characters of a stretch of a text are all in a set. -/
def Covers (text : Array Char) (s : CharSet) (i j : Nat) : Prop :=
  ∀ k, i ≤ k → k < j → (text[k]?).any s.contains = true

theorem Covers.succ {i j : Nat} (h : Covers text s i j)
    (hj : (text[j]?).any s.contains = true) : Covers text s i (j + 1) := by
  intro k hi hk
  rcases Nat.lt_succ_iff_lt_or_eq.mp hk with hk | rfl
  · exact h k hi hk
  · exact hj

/-- A match of one character ends behind it. -/
theorem mem_ends_one {starts : List Nat} {j : Nat} :
    j ∈ ends text (.one s) starts ↔
      ∃ i ∈ starts, (text[i]?).any s.contains = true ∧ i + 1 = j := by
  simp [ends, and_assoc]

/-- What is reached in some steps is reached in more. -/
theorem mem_within_of_mem {step : List Nat → List Nat} (n : Nat) {starts : List Nat} {i : Nat}
    (hi : i ∈ starts) : i ∈ within step n starts := by
  induction n generalizing starts with
  | zero => exact hi
  | succ n ih =>
    apply ih
    rw [List.mem_eraseDups]
    exact List.mem_append_left _ hi

/-- A stretch of a set is run over by copies of the set, if there are enough of them. -/
theorem mem_within_of_covers {n m : Nat} (hm : m ≤ n) {starts : List Nat} {i : Nat}
    (hi : i ∈ starts) (h : Covers text s i (i + m)) :
    i + m ∈ within (ends text (.one s)) n starts := by
  induction m generalizing n starts i with
  | zero => exact mem_within_of_mem n hi
  | succ m ih =>
    obtain ⟨n, rfl⟩ : ∃ n', n = n' + 1 := ⟨n - 1, by omega⟩
    have hnext : i + 1 ∈ (starts ++ ends text (.one s) starts).eraseDups := by
      rw [List.mem_eraseDups]
      apply List.mem_append_right
      exact mem_ends_one.mpr ⟨i, hi, h i (Nat.le_refl i) (by omega), rfl⟩
    have hrest : Covers text s (i + 1) (i + 1 + m) :=
      fun k hk hkm => h k (by omega) (by omega)
    rw [show i + (m + 1) = i + 1 + m by omega, within]
    exact ih (by omega) hnext hrest

/-- Copies of a set run over just those stretches of a text whose characters are in the set. -/
theorem mem_ends_times_one {starts : List Nat} {j : Nat} :
    j ∈ ends text (.times 0 none (.one s)) starts ↔
      ∃ i ∈ starts, i ≤ j ∧ Covers text s i j := by
  have hends : ends text (.times 0 none (.one s)) starts =
      within (ends text (.one s)) (text.size + 1) starts := by
    simp [ends, after]
  rw [hends]
  constructor
  · -- one more copy runs over one more character of the set
    refine within_preserves (P := fun j => ∃ i ∈ starts, i ≤ j ∧ Covers text s i j) ?_ _ ?_ j
    · intro reached hreached k hk
      obtain ⟨k, hstart, hchar, rfl⟩ := mem_ends_one.mp hk
      obtain ⟨i, hi, hik, hcovers⟩ := hreached k hstart
      exact ⟨i, hi, Nat.le_succ_of_le hik, hcovers.succ hchar⟩
    · intro i hi
      exact ⟨i, hi, Nat.le_refl i, fun _ h h' => absurd h' (Nat.not_lt.mpr h)⟩
  · rintro ⟨i, hi, hij, hcovers⟩
    obtain ⟨m, rfl⟩ := Nat.exists_eq_add_of_le hij
    refine mem_within_of_covers ?_ hi hcovers
    -- the last character of the stretch lies in the text
    rcases Nat.eq_zero_or_pos m with rfl | hm
    · exact Nat.zero_le _
    · have hlast := hcovers (i + m - 1) (by omega) (by omega)
      have hlt : i + m - 1 < text.size := by
        apply Nat.lt_of_not_le
        intro hge
        rw [Array.getElem?_eq_none hge] at hlast
        cases hlast
      omega

/-- A stretch up to the end of a text is one of a set if all characters there are in the set. -/
theorem covers_tail_iff {c : Char} {rest : List Char} :
    (∃ j, rest.length + 1 ≤ j ∧ Covers (c :: rest).toArray s 1 j) ↔
      ∀ d ∈ rest, s.contains d = true := by
  have hrest : ∀ k, (c :: rest).toArray[k + 1]? = rest[k]? := by simp
  constructor
  · rintro ⟨j, hj, hcovers⟩ d hd
    obtain ⟨k, hk, rfl⟩ := List.getElem_of_mem hd
    have hchar := hcovers (k + 1) (by omega) (by omega)
    rwa [hrest, List.getElem?_eq_getElem hk] at hchar
  · intro h
    refine ⟨rest.length + 1, Nat.le_refl _, fun k hk hlt => ?_⟩
    obtain ⟨k, rfl⟩ := Nat.exists_eq_add_of_le' hk
    have hlt : k < rest.length := by omega
    rw [hrest, List.getElem?_eq_getElem hlt]
    exact h _ (List.getElem_mem hlt)

end Pattern

open Pattern

/-- A range of one character holds that character. -/
theorem contains_single {c d : Char} : (CharSet.single d).contains c = true ↔ c = d := by
  rw [CharSet.single, CharSet.contains, Bool.and_eq_true, decide_eq_true_eq, decide_eq_true_eq]
  exact ⟨fun h => Char.le_antisymm h.2 h.1, fun h => h ▸ ⟨Char.le_refl _, Char.le_refl _⟩⟩

/-- The letters are two ranges of characters. -/
theorem isAlpha_iff {c : Char} :
    c.isAlpha = true ↔ ('A' ≤ c ∧ c ≤ 'Z') ∨ ('a' ≤ c ∧ c ≤ 'z') := by
  have hranges : c.isAlpha =
      (decide ('A' ≤ c ∧ c ≤ 'Z') || (decide ('a' ≤ c) && decide (c ≤ 'z'))) := rfl
  simp [hranges]

/-- The digits are one range of characters. -/
theorem isDigit_iff {c : Char} : c.isDigit = true ↔ '0' ≤ c ∧ c ≤ '9' := by
  have hrange : c.isDigit = (decide ('0' ≤ c) && decide (c ≤ '9')) := rfl
  simp [hrange]

/-- Names begin as identifiers do. -/
theorem contains_nameStart (c : Char) : nameStart.contains c = Text.startsIdentifier c := by
  rw [Bool.eq_iff_iff]
  simp [nameStart, CharSet.contains, contains_single, CharSet.none, Text.startsIdentifier,
    isAlpha_iff]

/-- They go on as identifiers do. -/
theorem contains_nameRest (c : Char) : nameRest.contains c = Text.continuesIdentifier c := by
  rw [Bool.eq_iff_iff]
  simp [nameRest, CharSet.contains, contains_single, CharSet.none, Text.continuesIdentifier,
    Char.isAlphanum, isAlpha_iff, isDigit_iff]

/-- The names that may become parts of keys are the identifiers. -/
theorem isKeyName_eq_isIdentifier (name : String) : isKeyName name = Text.isIdentifier name := by
  have hbody : ∀ text, ends text nameBody [0] =
      ends text (.times 0 none (.one nameRest)) (ends text (.one nameStart) [0]) := fun _ => rfl
  rw [Bool.eq_iff_iff, isKeyName_iff, hbody]
  simp only [mem_ends_times_one, mem_ends_one, List.mem_singleton]
  unfold Text.isIdentifier
  cases name.toList with
  | nil =>
    constructor
    · rintro ⟨_, ⟨_, ⟨_, rfl, hchar, rfl⟩, -⟩, -⟩
      cases hchar
    · rintro ⟨⟩
  | cons c rest =>
    rw [Bool.and_eq_true, ← contains_nameStart, List.all_eq_true]
    simp only [← contains_nameRest]
    constructor
    · rintro ⟨j, ⟨_, ⟨_, rfl, hchar, rfl⟩, -, hcovers⟩, hj⟩
      exact ⟨hchar, covers_tail_iff.mp ⟨j, hj, hcovers⟩⟩
    · rintro ⟨hchar, hrest⟩
      obtain ⟨j, hj, hcovers⟩ := covers_tail_iff.mpr hrest
      exact ⟨j, ⟨1, ⟨0, rfl, hchar, rfl⟩, Nat.le_trans (Nat.le_add_left _ _) hj, hcovers⟩, hj⟩

end KeyedRecords
