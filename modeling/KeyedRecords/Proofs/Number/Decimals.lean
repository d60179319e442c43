import KeyedRecords.Proofs.Number.Integer
import KeyedRecords.Proofs.Number.Rounding
import Mathlib.Data.List.DropRight

/-!
# Reading written decimals

A decimal that is laid out without an exponent is read back as the same number
(`readScientific?_positional`), and a decimal that rounds to a double is taken for that double
(`Scientific.nearest_eq`).
-/

namespace KeyedRecords.Number

/-- The number that digits stand for when read behind a number already read. -/
def foldDigits (n : Nat) (ds : List Nat) : Nat := ds.foldl (fun n d => 10 * n + d) n

theorem foldDigits_append (n : Nat) (ds es : List Nat) :
    foldDigits n (ds ++ es) = foldDigits (foldDigits n ds) es := List.foldl_append ..

/-- Behind zeros, a number has so many digits more. -/
theorem foldDigits_zeros (n k : Nat) : foldDigits n (List.replicate k 0) = n * 10 ^ k := by
  induction k generalizing n with
  | zero => simp [foldDigits]
  | succ k ih =>
    have hcons : foldDigits n (List.replicate (k + 1) 0) =
        foldDigits (10 * n) (List.replicate k 0) := rfl
    rw [hcons, ih, Nat.pow_succ]
    ring

/-- The digits of a number stand for it. -/
theorem foldDigits_digitsOf (n : Nat) : foldDigits 0 (digitsOf n) = n := by
  rw [digitsOf]
  split
  next => simp [foldDigits]
  next h =>
    rw [foldDigits_append, foldDigits_digitsOf (n / 10)]
    exact Nat.div_add_mod n 10
termination_by n
decreasing_by omega

theorem lt_of_mem_digitsOf (n : Nat) : ∀ d ∈ digitsOf n, d < 10 := by
  rw [digitsOf]
  split
  next h => simpa using h
  next h =>
    intro d hd
    rcases List.mem_append.mp hd with hd | hd
    · exact lt_of_mem_digitsOf (n / 10) d hd
    · rw [List.mem_singleton.mp hd]
      exact Nat.mod_lt n (by decide)
termination_by n
decreasing_by omega

/-- A number lies between two powers of ten, by the number of its digits. -/
theorem length_digitsOf (n : Nat) :
    n < 10 ^ (digitsOf n).length ∧ (0 < n → 10 ^ ((digitsOf n).length - 1) ≤ n) := by
  rw [digitsOf]
  split
  next h => exact ⟨by simpa using h, fun hpos => hpos⟩
  next h =>
    obtain ⟨hhigh, hlow⟩ := length_digitsOf (n / 10)
    have hlow := hlow (by omega)
    rw [List.length_append, List.length_singleton, Nat.pow_succ, Nat.add_sub_cancel]
    refine ⟨by omega, fun _ => ?_⟩
    cases hlength : (digitsOf (n / 10)).length with
    | zero =>
      rw [hlength] at hhigh
      omega
    | succ k =>
      rw [hlength, Nat.add_sub_cancel] at hlow
      rw [Nat.pow_succ]
      omega
termination_by n
decreasing_by all_goals omega

/-- Digits are read as the number that they stand for. -/
theorem readDigits?_map (n : Nat) {ds : List Nat} (h : ∀ d ∈ ds, d < 10) :
    readDigits? n (ds.map digitChar) = some (foldDigits n ds) := by
  induction ds generalizing n with
  | nil => rfl
  | cons d rest ih =>
    obtain ⟨hd, hrest⟩ := List.forall_mem_cons.mp h
    simp only [List.map_cons, readDigits?, digitValue?_digitChar hd]
    exact ih _ hrest

theorem readNat?_map {ds : List Nat} (hne : ds ≠ []) (h : ∀ d ∈ ds, d < 10) :
    readNat? (ds.map digitChar) = some (foldDigits 0 ds) := by
  obtain ⟨d, rest, rfl⟩ := List.exists_cons_of_ne_nil hne
  exact readDigits?_map 0 h

theorem isDigit_digitChar {d : Nat} (h : d < 10) : (digitChar d).isDigit = true := by
  have hall : ∀ d < 10, (digitChar d).isDigit = true := by decide
  exact hall d h

/-- Leading digits end where no digit follows. -/
theorem spanDigits_map {ds : List Nat} (h : ∀ d ∈ ds, d < 10) (rest : List Char)
    (hrest : ∀ c ∈ rest.head?, c.isDigit = false) :
    spanDigits (ds.map digitChar ++ rest) = (ds.map digitChar, rest) := by
  have hdigits : ∀ c ∈ ds.map digitChar, c.isDigit = true := by
    intro c hc
    obtain ⟨d, hd, rfl⟩ := List.mem_map.mp hc
    exact isDigit_digitChar (h d hd)
  unfold spanDigits
  rw [List.takeWhile_append_of_pos hdigits, List.dropWhile_append_of_pos hdigits]
  cases rest with
  | nil => simp
  | cons c rest =>
    have hc : c.isDigit = false := hrest c rfl
    simp [hc]

/-- Digits alone are read as a whole number. -/
theorem readScientific?_whole {ds : List Nat} (hne : ds ≠ []) (h : ∀ d ∈ ds, d < 10) :
    readScientific? (ds.map digitChar) = some ⟨foldDigits 0 ds, 0⟩ := by
  have hspan := spanDigits_map h [] (by simp)
  rw [List.append_nil] at hspan
  simp [readScientific?, hspan, readNat?_map hne h]

/-- Digits with a point among them are read as a fraction. -/
theorem readScientific?_point {ws fs : List Nat} (hne : ws ≠ []) (hws : ∀ d ∈ ws, d < 10)
    (hfs : ∀ d ∈ fs, d < 10) :
    readScientific? (ws.map digitChar ++ '.' :: fs.map digitChar) =
      some ⟨foldDigits 0 (ws ++ fs), -fs.length⟩ := by
  have hwhole := spanDigits_map hws ('.' :: fs.map digitChar) (by simp)
  have hfraction := spanDigits_map hfs [] (by simp)
  have hread := readNat?_map (List.append_ne_nil_of_left_ne_nil hne fs) fun d hd =>
    (List.mem_append.mp hd).elim (hws d) (hfs d)
  rw [List.append_nil] at hfraction
  rw [List.map_append] at hread
  simp [readScientific?, hwhole, hfraction, hread]

/-- The number that is written as a decimal. -/
def Decimal.value (d : Decimal) : ℚ :=
  foldDigits 0 d.digits * 10 ^ (d.point - d.digits.length)

/-- The number that is read as digits and a power of ten. -/
def Scientific.value (s : Scientific) : ℚ := s.significand * 10 ^ s.exponent

/-- A decimal has digits, and nothing else. -/
structure Decimal.Sound (d : Decimal) : Prop where
  ne_nil : d.digits ≠ []
  lt : ∀ k ∈ d.digits, k < 10

/-- Trailing zeros are set apart. -/
theorem exists_zeros (ds : List Nat) :
    ∃ k, ds = (ds.reverse.dropWhile (· == 0)).reverse ++ List.replicate k 0 := by
  have hzeros : ds.rtakeWhile (· == 0) = List.replicate (ds.rtakeWhile (· == 0)).length 0 :=
    List.eq_replicate_of_mem fun d hd => by simpa using List.mem_rtakeWhile_imp hd
  have hsplit : ds.rdropWhile (· == 0) ++ ds.rtakeWhile (· == 0) = ds :=
    List.rdropWhile_append_rtakeWhile
  rw [hzeros] at hsplit
  exact ⟨_, hsplit.symm⟩

/-- Without its trailing zeros, a number times a power of ten is the same number. -/
theorem Decimal.value_ofScaled (n : Nat) (scale : Int) :
    (Decimal.ofScaled n scale).value = n * 10 ^ scale := by
  obtain ⟨k, hk⟩ := exists_zeros (digitsOf n)
  have hfold := foldDigits_digitsOf n
  have hlength := congrArg List.length hk
  rw [hk, foldDigits_append, foldDigits_zeros] at hfold
  rw [List.length_append, List.length_replicate] at hlength
  unfold ofScaled value
  dsimp only
  generalize ((digitsOf n).reverse.dropWhile (· == 0)).reverse = ds at hfold hlength ⊢
  have hpoint : ((digitsOf n).length : Int) + scale - ds.length = k + scale := by omega
  rw [hpoint, zpow_add₀ (by norm_num), zpow_natCast, ← hfold]
  push_cast
  ring

theorem Decimal.sound_ofScaled {n : Nat} (hn : 0 < n) (scale : Int) :
    (Decimal.ofScaled n scale).Sound := by
  obtain ⟨k, hk⟩ := exists_zeros (digitsOf n)
  constructor
  · intro hnil
    have hfold := foldDigits_digitsOf n
    -- nothing but zeros would stand for zero
    rw [hk, show ((digitsOf n).reverse.dropWhile (· == 0)).reverse = [] from hnil,
      List.nil_append, foldDigits_zeros] at hfold
    omega
  · intro d hd
    refine lt_of_mem_digitsOf n d ?_
    rw [hk]
    exact List.mem_append_left _ hd

/-- How the digits of a decimal stand around its point, when zeros are filled in. -/
inductive Decimal.Around (d : Decimal) : List Nat → List Nat → Prop
  | before (h : d.point ≤ 0) :
      d.Around [0] (List.replicate (-d.point).toNat 0 ++ d.digits)
  | behind (h : (d.digits.length : Int) ≤ d.point) :
      d.Around (d.digits ++ List.replicate (d.point.toNat - d.digits.length) 0) []
  | among (h : 0 < d.point) (h' : d.point < d.digits.length) :
      d.Around (d.digits.take d.point.toNat) (d.digits.drop d.point.toNat)

namespace Decimal.Around

variable {d : Decimal} {ws fs : List Nat}

/-- There are digits before the point. -/
theorem ne_nil (h : d.Around ws fs) (hd : d.Sound) : ws ≠ [] := by
  cases h with
  | before => simp
  | behind => simp [hd.ne_nil]
  | among h =>
    rw [Ne, List.take_eq_nil_iff, not_or]
    exact ⟨by omega, hd.ne_nil⟩

theorem lt (h : d.Around ws fs) (hd : d.Sound) : (∀ k ∈ ws, k < 10) ∧ ∀ k ∈ fs, k < 10 := by
  have hzeros : ∀ n, ∀ k ∈ List.replicate n 0, k < 10 := by
    intro n k hk
    rw [List.eq_of_mem_replicate hk]
    decide
  cases h with
  | before =>
    refine ⟨by simp, fun k hk => ?_⟩
    exact (List.mem_append.mp hk).elim (hzeros _ k) (hd.lt k)
  | behind =>
    refine ⟨fun k hk => ?_, by simp⟩
    exact (List.mem_append.mp hk).elim (hd.lt k) (hzeros _ k)
  | among =>
    exact ⟨fun k hk => hd.lt k (List.mem_of_mem_take hk),
      fun k hk => hd.lt k (List.mem_of_mem_drop hk)⟩

/-- Zeros that are filled in do not change the number. -/
theorem value (h : d.Around ws fs) :
    (foldDigits 0 (ws ++ fs) : ℚ) * 10 ^ (-fs.length : Int) = d.value := by
  unfold Decimal.value
  cases h with
  | before h =>
    have hzeros : foldDigits 0 ([0] ++ (List.replicate (-d.point).toNat 0 ++ d.digits)) =
        foldDigits 0 d.digits := by
      rw [foldDigits_append, foldDigits_append, foldDigits_zeros]
      simp [foldDigits]
    rw [hzeros, List.length_append, List.length_replicate]
    congr 2
    omega
  | behind h =>
    have hpoint : d.point - d.digits.length = (d.point.toNat - d.digits.length : Nat) := by omega
    rw [List.append_nil, foldDigits_append, foldDigits_zeros, hpoint, zpow_natCast]
    simp
  | among h h' =>
    rw [List.take_append_drop, List.length_drop]
    congr 2
    omega

end Decimal.Around

/-- A decimal without an exponent is written as digits around a point, or without a point if there
are none behind it. -/
theorem exists_around {d : Decimal} (hd : d.Sound) : ∃ ws fs, d.Around ws fs ∧
    d.positional false = ws.map digitChar ++ if fs = [] then [] else '.' :: fs.map digitChar := by
  have hzeros : ∀ n, List.replicate n '0' = (List.replicate n 0).map digitChar := fun n => by
    rw [List.map_replicate]
    rfl
  unfold Decimal.positional
  simp only [hzeros, Bool.false_eq_true, if_false, List.append_nil, List.length_map]
  split
  next h =>
    refine ⟨_, _, .before h, ?_⟩
    rw [if_neg (by simp [hd.ne_nil]), List.map_append]
    rfl
  next h =>
    split
    next hbehind => exact ⟨_, _, .behind (by omega), by simp⟩
    next hamong =>
      refine ⟨_, _, .among (by omega) (by omega), ?_⟩
      rw [if_neg (by rw [List.drop_eq_nil_iff]; omega), List.map_take, List.map_drop]

/-- A decimal without an exponent starts with a digit, and is read back. -/
theorem readScientific?_positional {d : Decimal} (h : d.Sound) :
    (∃ k rest, d.positional false = digitChar k :: rest ∧ k < 10) ∧
      ∃ s, readScientific? (d.positional false) = some s ∧ s.value = d.value := by
  obtain ⟨ws, fs, haround, heq⟩ := exists_around h
  have hne := haround.ne_nil h
  obtain ⟨hws, hfs⟩ := haround.lt h
  have hvalue := haround.value
  rw [heq]
  constructor
  · obtain ⟨k, rest, rfl⟩ := List.exists_cons_of_ne_nil hne
    exact ⟨k, _, rfl, hws k (List.mem_cons_self ..)⟩
  · split
    next hnone =>
      rw [hnone, List.append_nil] at hvalue
      rw [List.append_nil]
      exact ⟨_, readScientific?_whole hne hws, hvalue⟩
    next => exact ⟨_, readScientific?_point hne hws hfs, hvalue⟩

/-- Every double lies below a certain power of ten. -/
theorem greatest_lt : (2 : ℚ) ^ 53 * 2 ^ (971 : Int) < 10 ^ (310 : Int) := by
  have hnat : 2 ^ 1024 < 10 ^ 310 := by decide +kernel
  have hpow : (2 : ℚ) ^ 53 * 2 ^ (971 : Int) = 2 ^ 1024 := by
    rw [← zpow_natCast, ← zpow_add₀ two_ne_zero]
    rfl
  rw [hpow]
  exact_mod_cast hnat

/-- Half the least double lies above a certain power of ten. -/
theorem lt_least : (10 : ℚ) ^ (-330 : Int) < 1 / 2 * 2 ^ (-1074 : Int) := by
  have hnat : 2 ^ 1075 < 10 ^ 330 := by decide +kernel
  have hcast : (2 : ℚ) ^ (1075 : Int) < 10 ^ (330 : Int) := by exact_mod_cast hnat
  have hpow : (1 : ℚ) / 2 * 2 ^ (-1074 : Int) = 2 ^ (-1075 : Int) := by
    rw [one_div, ← zpow_neg_one, ← zpow_add₀ two_ne_zero]
    rfl
  rw [hpow, zpow_neg, zpow_neg]
  exact inv_strictAnti₀ (by positivity) hcast

/-- A number that rounds to a double is positive, and lies between powers of ten that bound all
doubles. -/
theorem Rounds.bounds {m : Nat} {e : Int} {q : ℚ} (hm : IsDouble m e) (hpos : 0 < m)
    (h : Rounds m e q) :
    (10 : ℚ) ^ (-330 : Int) < q ∧ q < 10 ^ (310 : Int) := by
  obtain ⟨hlow, hhigh, -⟩ := h
  have hbelow := below_le m e
  have hpos : (1 : ℚ) ≤ m := by exact_mod_cast hpos
  have hm53 : (m : ℚ) + 1 ≤ 2 ^ 53 := by exact_mod_cast hm.lt
  have hleast : (2 : ℚ) ^ (-1074 : Int) ≤ 2 ^ e := zpow_le_zpow_right₀ one_le_two hm.least
  have hgreatest : (2 : ℚ) ^ e ≤ 2 ^ (971 : Int) := zpow_le_zpow_right₀ one_le_two hm.greatest
  constructor
  · calc (10 : ℚ) ^ (-330 : Int) < 1 / 2 * 2 ^ (-1074 : Int) := lt_least
      _ ≤ (m - below m e) * 2 ^ e := mul_le_mul (by linarith) hleast (by positivity) (by linarith)
      _ ≤ q := hlow
  · calc q ≤ (m + 1 / 2) * 2 ^ e := hhigh
      _ ≤ 2 ^ 53 * 2 ^ (971 : Int) :=
        mul_le_mul (by linarith) hgreatest (by positivity) (by positivity)
      _ < 10 ^ (310 : Int) := greatest_lt

/-- A number that is read lies between two powers of ten, by its size. -/
theorem Scientific.size_bounds (s : Scientific) (hpos : 0 < s.significand) :
    (10 : ℚ) ^ (s.exponent + (digitsOf s.significand).length - 1) ≤ s.value ∧
      s.value < 10 ^ (s.exponent + (digitsOf s.significand).length) := by
  obtain ⟨hhigh, hlow⟩ := length_digitsOf s.significand
  have hlow := hlow hpos
  unfold value
  generalize (digitsOf s.significand).length = k at hhigh hlow ⊢
  have hten : (0 : ℚ) < 10 ^ s.exponent := by positivity
  constructor
  · have hk : s.exponent + k - 1 = ((k - 1 : Nat) : Int) + s.exponent := by
      have : k ≠ 0 := by
        rintro rfl
        omega
      omega
    rw [hk, zpow_add₀ (by norm_num), zpow_natCast]
    have hcast : (10 : ℚ) ^ (k - 1) ≤ s.significand := by exact_mod_cast hlow
    exact mul_le_mul_of_nonneg_right hcast hten.le
  · rw [add_comm, zpow_add₀ (by norm_num), zpow_natCast]
    have hcast : (s.significand : ℚ) < 10 ^ k := by exact_mod_cast hhigh
    exact mul_lt_mul_of_pos_right hcast hten

/-- A number that is read is taken for the double that it rounds to. -/
theorem Scientific.nearest_eq {s : Scientific} {m : Nat} {e : Int} (hm : IsDouble m e)
    (hpos : 0 < m) (h : Rounds m e s.value) (negative : Bool) :
    s.nearest negative = .ofParts negative (m + (e + 1074).toNat * 2 ^ 52) := by
  obtain ⟨hleast, hgreatest⟩ := h.bounds hm hpos
  have hpos : 0 < s.significand := by
    refine Nat.pos_of_ne_zero fun hzero => ?_
    rw [value, hzero, Nat.cast_zero, zero_mul] at hleast
    exact absurd hleast (not_lt.mpr (by positivity))
  have hvalue : ((s.significand * Nat.pow 10 s.exponent.toNat : Nat) : ℚ) /
      (Nat.pow 10 (-s.exponent).toNat : Nat) = s.value := by
    have hpow := zpow_eq_div 10 s.exponent
    push_cast at hpow
    rw [value, hpow, Nat.cast_mul, Nat.pow_eq, Nat.pow_eq]
    push_cast
    ring
  -- its size is that of a double, so it is not settled by size alone
  obtain ⟨hlow, hhigh⟩ := s.size_bounds hpos
  have hsmall := (zpow_lt_zpow_iff_right₀ (by norm_num)).mp (hleast.trans hhigh)
  have hgreat := (zpow_lt_zpow_iff_right₀ (by norm_num)).mp (hlow.trans_lt hgreatest)
  unfold nearest
  rw [if_neg, if_neg]
  · have hten : ∀ n, 0 < Nat.pow 10 n := fun n => Nat.pow_pos (by decide)
    exact nearest_of_rounds (Nat.mul_pos hpos (hten _)) (hten _) hm (hvalue ▸ h) negative
  · omega
  · simp
    omega

end KeyedRecords.Number
