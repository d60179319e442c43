import KeyedRecords.Number.Shortest
import Mathlib.Algebra.Order.Field.Power
import Mathlib.Algebra.Order.Field.Rat
import Mathlib.Tactic.FieldSimp
import Mathlib.Tactic.Linarith
import Mathlib.Tactic.NormNum
import Mathlib.Tactic.Positivity
import Mathlib.Tactic.Ring

/-!
# Rounding to doubles

The rationals that round to a double lie around it, up to halfway to its neighbours (`Rounds`). This
is the interval that `Rounding.ofBinary` works with (`contains_iff`), and every fraction in it has
that double for the nearest one (`nearestBits_of_rounds`).
-/

namespace KeyedRecords.Number

/-- A power with an integer exponent, as a fraction of whole numbers. -/
theorem zpow_eq_div (a : Nat) (e : Int) :
    (a : ℚ) ^ e = (a ^ e.toNat : Nat) / (a ^ (-e).toNat : Nat) := by
  rcases le_or_gt 0 e with h | h
  · obtain ⟨n, rfl⟩ := Int.eq_ofNat_of_zero_le h
    simp
  · obtain ⟨n, hn⟩ := Int.eq_ofNat_of_zero_le (Int.neg_nonneg_of_nonpos h.le)
    have hzero : e.toNat = 0 := by omega
    rw [hzero, hn, show e = -(n : Int) by omega]
    simp

/-- The mantissa and the exponent of a finite double. -/
structure IsDouble (m : Nat) (e : Int) : Prop where
  lt : m < 2 ^ 53
  least : -1074 ≤ e
  greatest : e ≤ 971
  /-- All bits of the mantissa are in use, unless the exponent is the least. -/
  full : 2 ^ 52 ≤ m ∨ e = -1074

/-- How far below a double the rationals begin that round to it. -/
def below (m : Nat) (e : Int) : ℚ := if m = 2 ^ 52 ∧ e ≠ -1074 then 1 / 4 else 1 / 2

theorem below_le (m : Nat) (e : Int) : below m e ≤ 1 / 2 := by
  unfold below
  split <;> norm_num

/-- A rational rounds to the double `m * 2 ^ e`. -/
def Rounds (m : Nat) (e : Int) (q : ℚ) : Prop :=
  (m - below m e) * 2 ^ e ≤ q ∧ q ≤ (m + 1 / 2) * 2 ^ e ∧
    -- of two doubles that are equally near, the even one is taken
    (m % 2 = 0 ∨ (m - below m e) * 2 ^ e < q ∧ q < (m + 1 / 2) * 2 ^ e)

/-- The nearest whole number is the one that is less than a half away, or just a half and even. -/
theorem roundHalfEven_eq {num den n : Nat} (hden : 0 < den)
    (hlow : (n : ℚ) - 1 / 2 ≤ num / den) (hhigh : (num : ℚ) / den ≤ n + 1 / 2)
    (heven : n % 2 = 0 ∨ (n : ℚ) - 1 / 2 < num / den ∧ (num : ℚ) / den < n + 1 / 2) :
    roundHalfEven num den = n := by
  have hden' : (0 : ℚ) < den := by exact_mod_cast hden
  rw [le_div_iff₀ hden'] at hlow
  rw [div_le_iff₀ hden'] at hhigh
  rw [lt_div_iff₀ hden', div_lt_iff₀ hden'] at heven
  have hlow : 2 * (n * den) ≤ 2 * num + den := by
    have h : (2 * (n * den) : ℚ) ≤ 2 * num + den := by linarith
    exact_mod_cast h
  have hhigh : 2 * num ≤ 2 * (n * den) + den := by
    have h : (2 * num : ℚ) ≤ 2 * (n * den) + den := by linarith
    exact_mod_cast h
  have heven : n % 2 = 0 ∨ 2 * (n * den) < 2 * num + den ∧ 2 * num < 2 * (n * den) + den := by
    refine heven.imp_right fun ⟨hl, hh⟩ => ⟨?_, ?_⟩
    · have h : (2 * (n * den) : ℚ) < 2 * num + den := by linarith
      exact_mod_cast h
    · have h : (2 * num : ℚ) < 2 * (n * den) + den := by linarith
      exact_mod_cast h
  have hdivide := Nat.div_add_mod num den
  have hrest := Nat.mod_lt num hden
  unfold roundHalfEven
  generalize num / den = q, num % den = r at hdivide hrest ⊢
  -- the quotient is the number itself, or the one before it
  have hq : q ≤ n := by
    by_contra hlt
    have hmul : (n + 1) * den ≤ q * den := Nat.mul_le_mul_right den (by omega)
    rw [Nat.add_mul, Nat.mul_comm q] at hmul
    omega
  have hn : n ≤ q + 1 := by
    by_contra hlt
    have hmul : (q + 2) * den ≤ n * den := Nat.mul_le_mul_right den (by omega)
    rw [Nat.add_mul, Nat.mul_comm q] at hmul
    omega
  rcases (by omega : n = q ∨ n = q + 1) with rfl | rfl
  · rw [Nat.mul_comm n] at hlow hhigh heven
    grind
  · rw [Nat.add_mul, Nat.mul_comm q] at hlow hhigh heven
    grind

/-- Scaling both parts of a fraction by parts of a power divides it by the power. -/
theorem scaled_div (num den : Nat) (e : Int) :
    ((num * 2 ^ (-e).toNat : Nat) : ℚ) / (den * 2 ^ e.toNat : Nat) = num / den / 2 ^ e := by
  have hpow := zpow_eq_div 2 e
  push_cast at hpow ⊢
  rw [hpow]
  field_simp

/-- A positive number lies between two powers of two. -/
theorem log2_bounds {n : Nat} (h : 0 < n) :
    (2 : ℚ) ^ (n.log2 : Int) ≤ n ∧ (n : ℚ) < 2 ^ (n.log2 + 1 : Int) := by
  have hlow := Nat.log2_self_le h.ne'
  have hhigh := Nat.lt_log2_self (n := n)
  constructor
  · rw [zpow_natCast]
    exact_mod_cast hlow
  · have hcast : ((n.log2 : Int) + 1) = ((n.log2 + 1 : Nat) : Int) := rfl
    rw [hcast, zpow_natCast]
    exact_mod_cast hhigh

/-- The exponent of a fraction is guessed from those of its parts, one too great at most. -/
theorem guess_bounds {num den : Nat} (hnum : 0 < num) (hden : 0 < den) {guess : Int}
    (hguess : (Nat.log2 num : Int) - (Nat.log2 den : Int) - 52 = guess) :
    (2 : ℚ) ^ (guess + 51) ≤ num / den ∧ (num : ℚ) / den < 2 ^ (guess + 53) := by
  obtain ⟨hnum₁, hnum₂⟩ := log2_bounds hnum
  obtain ⟨hden₁, hden₂⟩ := log2_bounds hden
  have hden' : (0 : ℚ) < den := by exact_mod_cast hden
  rw [le_div_iff₀ hden', div_lt_iff₀ hden']
  constructor
  · calc (2 : ℚ) ^ (guess + 51) * den
        ≤ 2 ^ (guess + 51) * 2 ^ (den.log2 + 1 : Int) := by gcongr
      _ = 2 ^ (num.log2 : Int) := by
          rw [← zpow_add₀ two_ne_zero]
          congr 1
          omega
      _ ≤ num := hnum₁
  · calc (num : ℚ) < 2 ^ (num.log2 + 1 : Int) := hnum₂
      _ = 2 ^ (guess + 53) * 2 ^ (den.log2 : Int) := by
          rw [← zpow_add₀ two_ne_zero]
          congr 1
          omega
      _ ≤ 2 ^ (guess + 53) * den := by gcongr

/-- At the exponent of a fraction it has 53 bits before the point, or fewer at the least one. -/
theorem binaryExponent_bounds {num den : Nat} (hnum : 0 < num) (hden : 0 < den) :
    -1074 ≤ binaryExponent num den ∧ (num : ℚ) / den < 2 ^ (binaryExponent num den + 53) ∧
      ((2 : ℚ) ^ (binaryExponent num den + 52) ≤ num / den ∨ binaryExponent num den = -1074) := by
  obtain ⟨e, heq, hlow, hhigh⟩ : ∃ e, binaryExponent num den = (if e < -1074 then -1074 else e) ∧
      (2 : ℚ) ^ (e + 52) ≤ num / den ∧ (num : ℚ) / den < 2 ^ (e + 53) := by
    unfold binaryExponent
    generalize hguess : (Nat.log2 num : Int) - (Nat.log2 den : Int) - 52 = guess
    obtain ⟨hlow, hhigh⟩ := guess_bounds hnum hden hguess
    have hscaled : (0 : ℚ) < (den * 2 ^ guess.toNat : Nat) := by positivity
    have htest : num * Nat.pow 2 (-guess).toNat < den * Nat.pow 2 guess.toNat * Nat.pow 2 52 ↔
        (num : ℚ) / den < 2 ^ (guess + 52) := by
      have hpow : (2 : ℚ) ^ (guess + 52) = 2 ^ 52 * 2 ^ guess := by
        rw [zpow_add₀ two_ne_zero, mul_comm]
        rfl
      rw [hpow, ← div_lt_iff₀ (by positivity), ← scaled_div, div_lt_iff₀ hscaled,
        Nat.mul_comm _ (Nat.pow 2 52)]
      exact_mod_cast Iff.rfl
    refine ⟨_, rfl, ?_⟩
    split
    next h => exact ⟨by rwa [show guess - 1 + 52 = guess + 51 by ring],
      by rw [show guess - 1 + 53 = guess + 52 by ring]; exact htest.mp h⟩
    next h => exact ⟨not_lt.mp (htest.not.mp h), hhigh⟩
  rw [heq]
  split
  next hless =>
    refine ⟨le_rfl, hhigh.trans_le ?_, .inr rfl⟩
    exact zpow_le_zpow_right₀ one_le_two (by omega)
  next hless => exact ⟨not_lt.mp hless, hhigh, .inl hlow⟩

theorem two_zpow_add (e k : Int) : (2 : ℚ) ^ (e + k) = 2 ^ k * 2 ^ e := by
  rw [zpow_add₀ two_ne_zero, mul_comm]

namespace Rounds

variable {m : Nat} {e : Int} {q : ℚ}

/-- A rational that rounds to a double has no more than 53 bits before the point, in units of its
last bit. -/
theorem lt_zpow (h : Rounds m e q) (hm : IsDouble m e) : q < 2 ^ (e + 53) := by
  have hpos : (0 : ℚ) < 2 ^ e := by positivity
  have hm53 : (m : ℚ) + 1 ≤ 2 ^ 53 := by exact_mod_cast hm.lt
  rw [two_zpow_add]
  refine h.2.1.trans_lt (mul_lt_mul_of_pos_right ?_ hpos)
  norm_num at hm53 ⊢
  linarith

/-- A rational of less than 53 bits rounds to a double of 53 bits only if that is a power of two. -/
theorem mantissa_eq (h : Rounds m e q) (hm : IsDouble m e) (hne : e ≠ -1074)
    (hless : q < 2 ^ (e + 52)) : m = 2 ^ 52 := by
  have hpos : (0 : ℚ) < 2 ^ e := by positivity
  refine le_antisymm ?_ (hm.full.resolve_right hne)
  by_contra hgreater
  have hcast : (2 : ℚ) ^ 52 + 1 ≤ m := by exact_mod_cast not_le.mp hgreater
  have hunits := lt_of_mul_lt_mul_right (h.1.trans_lt (two_zpow_add e 52 ▸ hless)) hpos.le
  have hbelow := below_le m e
  norm_num at hunits
  linarith

/-- A rational that rounds to a double of 53 bits has 52 of them itself. -/
theorem zpow_le (h : Rounds m e q) (hm : IsDouble m e) (hne : e ≠ -1074) :
    (2 : ℚ) ^ (e + 51) ≤ q := by
  have hpos : (0 : ℚ) < 2 ^ e := by positivity
  have hm52 : (2 : ℚ) ^ 52 ≤ m := by exact_mod_cast hm.full.resolve_right hne
  have hunits : (2 : ℚ) ^ (51 : Int) ≤ m - below m e :=
    calc (2 : ℚ) ^ (51 : Int) ≤ 2 ^ 52 - 1 / 2 := by norm_num
      _ ≤ m - below m e := sub_le_sub hm52 (below_le m e)
  rw [two_zpow_add]
  exact (mul_le_mul_of_nonneg_right hunits hpos.le).trans h.1

end Rounds

/-- The exponent of a fraction that rounds to a double is the one of the double, or the one before
if the fraction lies just below a power of two. -/
theorem binaryExponent_of_rounds {num den m : Nat} {e : Int} (hnum : 0 < num) (hden : 0 < den)
    (hm : IsDouble m e) (h : Rounds m e (num / den)) :
    binaryExponent num den = e ∨
      binaryExponent num den = e - 1 ∧ m = 2 ^ 52 ∧ below m e = 1 / 4 ∧
        (num : ℚ) / den < 2 ^ (e + 52) := by
  obtain ⟨hleast, hhigh, hlow⟩ := binaryExponent_bounds hnum hden
  generalize binaryExponent num den = found, (num : ℚ) / den = q at *
  have hlt_of_le : ∀ {k l : Int}, (2 : ℚ) ^ k ≤ q → q < 2 ^ l → k < l := fun hk hl =>
    (zpow_lt_zpow_iff_right₀ one_lt_two).mp (hk.trans_lt hl)
  have hleast' := hm.least
  rcases lt_trichotomy found e with hless | heq | hgreater
  · -- the fraction lies below a power of two, above which the double does not lie
    have hne : e ≠ -1074 := by omega
    have hhigh' : q < 2 ^ (e + 52) :=
      hhigh.trans_le (zpow_le_zpow_right₀ one_le_two (by omega))
    have hm52 := h.mantissa_eq hm hne hhigh'
    have hlast := hlt_of_le (h.zpow_le hm hne) hhigh
    exact .inr ⟨by omega, hm52, if_pos ⟨hm52, hne⟩, hhigh'⟩
  · exact .inl heq
  · have hlast := hlt_of_le (hlow.resolve_right (by omega)) (h.lt_zpow hm)
    omega

/-- A rational that rounds to a double, in units of its last bit. -/
theorem Rounds.div {m : Nat} {e : Int} {q : ℚ} (h : Rounds m e q) :
    m - below m e ≤ q / 2 ^ e ∧ q / 2 ^ e ≤ m + 1 / 2 ∧
      (m % 2 = 0 ∨ m - below m e < q / 2 ^ e ∧ q / 2 ^ e < m + 1 / 2) := by
  have hpos : (0 : ℚ) < 2 ^ e := by positivity
  rw [le_div_iff₀ hpos, div_le_iff₀ hpos, lt_div_iff₀ hpos, div_lt_iff₀ hpos]
  exact h

/-- A fraction that rounds to a double has it for the nearest one. -/
theorem nearestBits_of_rounds {num den m : Nat} {e : Int} (hnum : 0 < num) (hden : 0 < den)
    (hm : IsDouble m e) (h : Rounds m e (num / den)) :
    nearestBits num den = m + (e + 1074).toNat * 2 ^ 52 := by
  have hscaled : ∀ e : Int, 0 < den * 2 ^ e.toNat := fun e => by positivity
  obtain ⟨hlow, hhigh, heven⟩ := h.div
  have hleast := hm.least
  have hbits : roundHalfEven (num * 2 ^ (-binaryExponent num den).toNat)
      (den * 2 ^ (binaryExponent num den).toNat) + (binaryExponent num den + 1074).toNat * 2 ^ 52 =
        m + (e + 1074).toNat * 2 ^ 52 := by
    rcases binaryExponent_of_rounds hnum hden hm h with heq | ⟨heq, hm52, hbelow, hless⟩
    · have hbelow := below_le m e
      have hround : roundHalfEven (num * 2 ^ (-e).toNat) (den * 2 ^ e.toNat) = m := by
        refine roundHalfEven_eq (hscaled e) ?_ ?_ ?_ <;> rw [scaled_div]
        · linarith
        · exact hhigh
        · exact heven.imp_right fun hstrict => ⟨by linarith, hstrict.2⟩
      rw [heq, hround]
    · -- the mantissa is rounded up to the next power of two, which carries into the exponent
      have hdouble : (num : ℚ) / den / 2 ^ (e - 1) = 2 * (num / den / 2 ^ e) := by
        rw [zpow_sub_one₀ two_ne_zero]
        field_simp
      have hless : (num : ℚ) / den / 2 ^ e < m := by
        rw [div_lt_iff₀ (by positivity), hm52]
        rw [zpow_add₀ two_ne_zero, mul_comm] at hless
        exact_mod_cast hless
      have hround : roundHalfEven (num * 2 ^ (-(e - 1)).toNat) (den * 2 ^ (e - 1).toNat) =
          2 * m := by
        refine roundHalfEven_eq (hscaled (e - 1)) ?_ ?_ (.inl (by omega)) <;>
          rw [scaled_div, hdouble, Nat.cast_mul, Nat.cast_ofNat]
        · linarith
        · linarith
      rw [heq, hround]
      have := (binaryExponent_bounds hnum hden).1
      omega
  unfold nearestBits
  simp only [Nat.pow_eq, hbits]
  have hlt := hm.lt
  have hgreatest := hm.greatest
  rw [if_pos]
  rw [Double.infinityBits, Nat.pow_eq]
  omega

/-- The nearest double to a fraction that rounds to one. -/
theorem nearest_of_rounds {num den m : Nat} {e : Int} (hnum : 0 < num) (hden : 0 < den)
    (hm : IsDouble m e) (h : Rounds m e (num / den)) (negative : Bool) :
    nearest negative num den = .ofParts negative (m + (e + 1074).toNat * 2 ^ 52) := by
  rw [nearest, if_neg (by simpa using hnum.ne'), nearestBits_of_rounds hnum hden hm h]

/-- The bits of a double are its sign, its exponent field and its fraction. -/
theorem ofParts_bits (x : Double) :
    x = .ofParts (x.bits.toNat / Nat.pow 2 63 == 1)
      (x.bits.toNat % Nat.pow 2 52 + x.bits.toNat / Nat.pow 2 52 % Nat.pow 2 11 * 2 ^ 52) := by
  have hbits := x.bits.toNat_lt
  simp only [Nat.pow_eq, Nat.reducePow] at hbits ⊢
  have hsum : x.bits.toNat % 4503599627370496 +
      x.bits.toNat / 4503599627370496 % 2048 * 4503599627370496 +
        (if (x.bits.toNat / 9223372036854775808 == 1) = true then 9223372036854775808 else 0) =
      x.bits.toNat := by
    split
    next h =>
      have := beq_iff_eq.mp h
      omega
    next h =>
      have : x.bits.toNat / 9223372036854775808 ≠ 1 := fun h' => h (beq_iff_eq.mpr h')
      omega
  rw [Double.ofParts]
  simp only [Nat.pow_eq, Nat.reducePow]
  rw [hsum, UInt64.ofNat_toNat]

/-- A double that is taken apart as a finite one is put together from its parts. -/
theorem parts_finite {x : Double} {negative : Bool} {m : Nat} {e : Int}
    (h : x.parts = .finite negative m e) :
    x = .ofParts negative (m + (e + 1074).toNat * 2 ^ 52) ∧ IsDouble m e := by
  have hx := ofParts_bits x
  unfold Double.parts at h
  dsimp only at h
  generalize (x.bits.toNat / Nat.pow 2 63 == 1) = sign at h hx
  generalize hfield : x.bits.toNat / Nat.pow 2 52 % Nat.pow 2 11 = field at h hx
  generalize hfraction : x.bits.toNat % Nat.pow 2 52 = fraction at h hx
  have hlt : fraction < 2 ^ 52 := hfraction ▸ Nat.mod_lt _ (by decide)
  have hfield : field < 2 ^ 11 := hfield ▸ Nat.mod_lt _ (by decide)
  split at h
  next => split at h <;> cases h
  next hfinite =>
    have hfinite : field ≠ 2047 := fun heq => hfinite (beq_iff_eq.mpr heq)
    split at h
    next hleast =>
      obtain rfl : field = 0 := beq_iff_eq.mp hleast
      cases h
      exact ⟨by simpa using hx, by omega, le_rfl, by omega, .inr rfl⟩
    next hleast =>
      have hleast : field ≠ 0 := fun heq => hleast (beq_iff_eq.mpr heq)
      rw [Nat.pow_eq] at h
      cases h
      refine ⟨hx.trans ?_, by constructor <;> omega⟩
      congr 1
      omega

/-- An infinity that is taken apart is put together from its sign. -/
theorem parts_infinite {x : Double} {negative : Bool} (h : x.parts = .infinite negative) :
    x = .infinity negative := by
  have hx := ofParts_bits x
  unfold Double.parts at h
  dsimp only at h
  generalize (x.bits.toNat / Nat.pow 2 63 == 1) = sign at h hx
  generalize x.bits.toNat / Nat.pow 2 52 % Nat.pow 2 11 = field at h hx
  generalize x.bits.toNat % Nat.pow 2 52 = fraction at h hx
  split at h
  next hfield =>
    obtain rfl : field = 2047 := beq_iff_eq.mp hfield
    split at h
    next hfraction =>
      obtain rfl : fraction = 0 := beq_iff_eq.mp hfraction
      cases h
      simpa [Double.infinity, Double.infinityBits] using hx
    next => cases h
  next => split at h <;> cases h

/-- What is taken apart as no number is no number. -/
theorem isNaN_of_parts {x : Double} (h : x.parts = .nan) : x.isNaN = true := by
  unfold Double.parts at h
  dsimp only at h
  split at h
  next hfield =>
    split at h
    next => cases h
    next hfraction =>
      have hfield := beq_iff_eq.mp hfield
      have hfraction : x.bits.toNat % Nat.pow 2 52 ≠ 0 := fun heq => hfraction (beq_iff_eq.mpr heq)
      simp only [Nat.pow_eq, Nat.reducePow] at hfield hfraction
      refine decide_eq_true ?_
      simp only [Double.magnitude, Double.infinityBits, Nat.pow_eq, Nat.reducePow, Nat.reduceMul]
      omega
  next => split at h <;> cases h

end KeyedRecords.Number
