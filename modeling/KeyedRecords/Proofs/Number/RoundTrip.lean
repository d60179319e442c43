import KeyedRecords.Proofs.Number.Decimals

/-!
# Reading written doubles

The shortest decimal of a double rounds to it (`rounds_shortest`): every decimal that is tried is
tested for that, and one with seventeen digits always passes. So a stored double is read back from
its text (`readDouble?_floatText`), and so is a stored integer as the nearest double
(`readDouble?_intText`).
-/

namespace KeyedRecords.Number

variable {m : Nat} {e : Int}

/-- The interval that is searched for a decimal holds the numbers that round to the double. -/
theorem contains_iff (hpos : 0 < m) (n : Nat) (scale : Int) :
    (Rounding.ofBinary m e).contains n scale = true ↔ Rounds m e (n * 10 ^ scale) := by
  -- both sides are compared over a common denominator
  let unit : ℚ := 4 * (2 ^ (-e).toNat : Nat) * (10 ^ (-scale).toNat : Nat)
  have hunit : 0 < unit := by positivity
  have htwo : (2 : ℚ) ^ e = (2 ^ e.toNat : Nat) / (2 ^ (-e).toNat : Nat) := zpow_eq_div 2 e
  have hten : (10 : ℚ) ^ scale = (10 ^ scale.toNat : Nat) / (10 ^ (-scale).toNat : Nat) :=
    zpow_eq_div 10 scale
  have hend : ∀ a : Nat, ((a * 2 ^ e.toNat * 10 ^ (-scale).toNat : Nat) : ℚ) =
      a / 4 * 2 ^ e * unit := by
    intro a
    rw [htwo]
    simp only [unit]
    push_cast
    field_simp
  have hnumber : ((n * 10 ^ scale.toNat * (4 * 2 ^ (-e).toNat) : Nat) : ℚ) =
      n * 10 ^ scale * unit := by
    rw [hten]
    simp only [unit]
    push_cast
    field_simp
  have hlow : ((4 * m - if m = 2 ^ 52 ∧ e ≠ -1074 then 1 else 2 : Nat) : ℚ) / 4 =
      m - below m e := by
    unfold below
    split
    all_goals
      rw [Nat.cast_sub (by omega)]
      push_cast
      ring
  have hhigh : ((4 * m + 2 : Nat) : ℚ) / 4 = m + 1 / 2 := by
    push_cast
    ring
  have hle : ∀ a : Nat, a * 2 ^ e.toNat * 10 ^ (-scale).toNat ≤
      n * 10 ^ scale.toNat * (4 * 2 ^ (-e).toNat) ↔ (a / 4 * 2 ^ e : ℚ) ≤ n * 10 ^ scale := by
    intro a
    rw [← Nat.cast_le (α := ℚ), hend, hnumber, mul_le_mul_iff_of_pos_right hunit]
  have hge : ∀ a : Nat, n * 10 ^ scale.toNat * (4 * 2 ^ (-e).toNat) ≤
      a * 2 ^ e.toNat * 10 ^ (-scale).toNat ↔ (n * 10 ^ scale : ℚ) ≤ a / 4 * 2 ^ e := by
    intro a
    rw [← Nat.cast_le (α := ℚ), hend, hnumber, mul_le_mul_iff_of_pos_right hunit]
  unfold Rounding.contains Rounding.ofBinary
  simp only [Nat.pow_eq, Bool.and_eq_true, beq_iff_eq, bne_iff_ne, ← Nat.not_le, hle, hge, hlow,
    hhigh]
  unfold Rounds
  by_cases heven : m % 2 = 0
  · simp [heven]
  · simp only [heven, if_false, false_or, Bool.and_eq_true, decide_eq_true_eq, not_le]
    exact ⟨fun ⟨hl, hh⟩ => ⟨hl.le, hh.le, hl, hh⟩, fun ⟨_, _, hl, hh⟩ => ⟨hl, hh⟩⟩

/-- A decimal with so many digits rounds to a double if there is one. -/
theorem withDigits?_rounds (hpos : 0 < m) {tie : Tie} {point : Int} {count : Nat} {d : Decimal}
    (h : (Rounding.ofBinary m e).withDigits? tie point count = some d) :
    d.Sound ∧ Rounds m e d.value := by
  have hfound : ∀ n, 0 < n → (Rounding.ofBinary m e).contains n (point - count) = true →
      (Decimal.ofScaled n (point - count)).Sound ∧
        Rounds m e (Decimal.ofScaled n (point - count)).value := by
    intro n hn hcontains
    rw [Decimal.value_ofScaled]
    exact ⟨Decimal.sound_ofScaled hn _, (contains_iff hpos n _).mp hcontains⟩
  unfold Rounding.withDigits? at h
  dsimp only at h
  split at h
  next htaken =>
    cases h
    exact hfound _ (Nat.succ_pos _) (Bool.and_eq_true_iff.mp htaken).1
  next =>
    split at h
    next hdown =>
      cases h
      obtain ⟨hne, hcontains⟩ := Bool.and_eq_true_iff.mp hdown
      exact hfound _ (Nat.pos_of_ne_zero (by simpa using hne)) hcontains
    next => cases h

/-- A fraction lies between two powers of ten, by the position of its point. -/
theorem decimalPoint_bounds {num den : Nat} (hnum : 0 < num) (hden : 0 < den) :
    (10 : ℚ) ^ (decimalPoint num den - 1) ≤ num / den ∧
      (num : ℚ) / den < 10 ^ decimalPoint num den := by
  have hnum' : (0 : ℚ) < num := by exact_mod_cast hnum
  have hden' : (0 : ℚ) < den := by exact_mod_cast hden
  unfold decimalPoint
  split
  next hle =>
    obtain ⟨hhigh, hlow⟩ := length_digitsOf (num / den)
    have hlow := hlow (Nat.div_pos hle hden)
    generalize hk : (digitsOf (num / den)).length = k at hhigh hlow ⊢
    have hk : (k : Int) - 1 = (k - 1 : Nat) := by
      have : k ≠ 0 := by
        rintro rfl
        have := Nat.div_pos hle hden
        omega
      omega
    rw [le_div_iff₀ hden', div_lt_iff₀ hden', hk, zpow_natCast, zpow_natCast]
    have hlow : 10 ^ (k - 1) * den ≤ num := (Nat.le_div_iff_mul_le hden).mp hlow
    have hhigh : num < 10 ^ k * den := (Nat.div_lt_iff_lt_mul hden).mp hhigh
    exact ⟨by exact_mod_cast hlow, by exact_mod_cast hhigh⟩
  next hless =>
    -- what is less than one is looked at upside down
    have hle : num ≤ den - 1 := by omega
    obtain ⟨hhigh, hlow⟩ := length_digitsOf ((den - 1) / num)
    have hlow := hlow (Nat.div_pos hle hnum)
    generalize (digitsOf ((den - 1) / num)).length = k at hhigh hlow ⊢
    have hk : (1 : Int) - k = -((k - 1 : Nat) : Int) := by
      have : k ≠ 0 := by
        rintro rfl
        have := Nat.div_pos hle hnum
        omega
      omega
    rw [le_div_iff₀ hden', div_lt_iff₀ hden', show (1 : Int) - k - 1 = -(k : Int) by ring, hk,
      zpow_neg, zpow_neg, zpow_natCast, zpow_natCast, inv_mul_le_iff₀ (by positivity),
      lt_inv_mul_iff₀ (by positivity)]
    have hlow : 10 ^ (k - 1) * num ≤ den - 1 := (Nat.le_div_iff_mul_le hnum).mp hlow
    have hhigh : den - 1 < 10 ^ k * num := (Nat.div_lt_iff_lt_mul hnum).mp hhigh
    have hlow : 10 ^ (k - 1) * num < den := by omega
    have hhigh : den ≤ 10 ^ k * num := by omega
    exact ⟨by exact_mod_cast hhigh, by exact_mod_cast hlow⟩

/-- Digits that suffice are found, whether the decimal below the double rounds to it or the one
above. -/
theorem isSome_of_contains {r : Rounding} {tie : Tie} {point : Int} {count : Nat} {down : Nat}
    (hdown : r.value * Nat.pow 10 (-(point - count)).toNat /
      (r.den * Nat.pow 10 (point - count).toNat) = down) (hne : down ≠ 0)
    (h : r.contains down (point - count) = true ∨ r.contains (down + 1) (point - count) = true) :
    (r.withDigits? tie point count).isSome := by
  unfold Rounding.withDigits?
  dsimp only
  rw [hdown]
  generalize r.contains down (point - count) = downFits,
    r.contains (down + 1) (point - count) = upFits at h ⊢
  have hne : (down != 0) = true := by simpa using hne
  cases downFits with
  | true => split <;> simp [hne]
  | false => simp [h.resolve_left Bool.false_ne_true]

/-- A double is the middle of the numbers that round to it. -/
theorem value_div_den (m : Nat) (e : Int) :
    ((Rounding.ofBinary m e).value : ℚ) / (Rounding.ofBinary m e).den = m * 2 ^ e := by
  have htwo : (2 : ℚ) ^ e = (2 ^ e.toNat : Nat) / (2 ^ (-e).toNat : Nat) := zpow_eq_div 2 e
  rw [htwo]
  simp only [Rounding.ofBinary, Nat.pow_eq]
  push_cast
  field_simp

/-- Numbers that lie closer to a double than half of a unit of the seventeenth digit round to it. -/
theorem rounds_of_near (hm : IsDouble m e) {scale : Int}
    (hlow : (10 : ℚ) ^ (scale + 16) ≤ m * 2 ^ e) {q : ℚ}
    (hq : m * 2 ^ e - 10 ^ scale / 2 ≤ q) (hq' : q ≤ m * 2 ^ e + 10 ^ scale / 2) :
    Rounds m e q := by
  have hpos : (0 : ℚ) < 2 ^ e := by positivity
  unfold Rounds
  rw [zpow_add₀ (by norm_num)] at hlow
  generalize (10 : ℚ) ^ scale = unit, (2 : ℚ) ^ e = u at *
  have hbelow : unit / 2 < below m e * u := by
    unfold below
    split
    next h =>
      rw [h.1] at hlow
      norm_num at hlow ⊢
      linarith
    next =>
      have hm53 : (m : ℚ) + 1 ≤ 2 ^ 53 := by exact_mod_cast hm.lt
      have hmul : (m : ℚ) * u ≤ 2 ^ 53 * u := by
        refine mul_le_mul_of_nonneg_right ?_ hpos.le
        linarith
      norm_num at hlow hmul ⊢
      linarith
  have hhalf : below m e * u ≤ 1 / 2 * u := mul_le_mul_of_nonneg_right (below_le m e) hpos.le
  rw [sub_mul, add_mul]
  exact ⟨by linarith, by linarith, .inr ⟨by linarith, by linarith⟩⟩

/-- A double lies between two decimals of a scale. -/
theorem scale_bounds (m : Nat) (e scale : Int) {down : Nat}
    (hdown : (Rounding.ofBinary m e).value * Nat.pow 10 (-scale).toNat /
      ((Rounding.ofBinary m e).den * Nat.pow 10 scale.toNat) = down) :
    (down * 10 ^ scale : ℚ) ≤ m * 2 ^ e ∧ (m * 2 ^ e : ℚ) < (down + 1) * 10 ^ scale := by
  have hden : 0 < (Rounding.ofBinary m e).den * 10 ^ scale.toNat := by
    simp only [Rounding.ofBinary, Nat.pow_eq]
    positivity
  have hten : (10 : ℚ) ^ scale = (10 ^ scale.toNat : Nat) / (10 ^ (-scale).toNat : Nat) :=
    zpow_eq_div 10 scale
  have hratio : (((Rounding.ofBinary m e).value * 10 ^ (-scale).toNat : Nat) : ℚ) /
      ((Rounding.ofBinary m e).den * 10 ^ scale.toNat : Nat) = m * 2 ^ e / 10 ^ scale := by
    rw [← value_div_den, hten]
    push_cast
    field_simp
  simp only [Nat.pow_eq] at hdown
  rw [← le_div_iff₀ (by positivity), ← div_lt_iff₀ (by positivity), ← hratio,
    le_div_iff₀ (by exact_mod_cast hden), div_lt_iff₀ (by exact_mod_cast hden), ← hdown]
  exact ⟨by exact_mod_cast Nat.div_mul_le_self _ _,
    by exact_mod_cast Nat.lt_mul_of_div_lt (Nat.lt_succ_self _) hden⟩

/-- Of two neighbours, the nearer one is no more than half of their distance away. -/
theorem near_or_near {unit v down : ℚ} (hunit : 0 < unit) (hle : down * unit ≤ v)
    (hlt : v < (down + 1) * unit) :
    (v - unit / 2 ≤ down * unit ∧ down * unit ≤ v + unit / 2) ∨
      (v - unit / 2 ≤ (down + 1) * unit ∧ (down + 1) * unit ≤ v + unit / 2) := by
  rw [add_mul, one_mul] at hlt ⊢
  rcases le_total (v - unit / 2) (down * unit) with h | h
  · exact .inl ⟨h, by linarith⟩
  · exact .inr ⟨by linarith, by linarith⟩

/-- Of the decimals with seventeen digits one always rounds to the double. -/
theorem isSome_withDigits? (hm : IsDouble m e) (hpos : 0 < m) (tie : Tie) :
    ((Rounding.ofBinary m e).withDigits? tie
      (decimalPoint (Rounding.ofBinary m e).value (Rounding.ofBinary m e).den) 17).isSome := by
  have hvalue : 0 < (Rounding.ofBinary m e).value := by
    simp only [Rounding.ofBinary, Nat.pow_eq]
    positivity
  have hden : 0 < (Rounding.ofBinary m e).den := by
    simp only [Rounding.ofBinary, Nat.pow_eq]
    positivity
  obtain ⟨hlow, -⟩ := decimalPoint_bounds hvalue hden
  rw [value_div_den] at hlow
  generalize decimalPoint (Rounding.ofBinary m e).value (Rounding.ofBinary m e).den = point at *
  obtain ⟨down, hdown⟩ : ∃ down, (Rounding.ofBinary m e).value * Nat.pow 10
      (-(point - (17 : Nat))).toNat /
        ((Rounding.ofBinary m e).den * Nat.pow 10 (point - (17 : Nat)).toNat) = down := ⟨_, rfl⟩
  obtain ⟨hle, hlt⟩ := scale_bounds m e _ hdown
  have hunit : (0 : ℚ) < 10 ^ (point - (17 : Nat)) := by positivity
  rw [show point - 1 = point - (17 : Nat) + 16 by omega] at hlow
  refine isSome_of_contains hdown ?_ ?_
  · rintro rfl
    rw [zpow_add₀ (by norm_num), show (10 : ℚ) ^ (16 : Int) = 10000000000000000 by norm_num] at hlow
    rw [Nat.cast_zero, zero_add, one_mul] at hlt
    linarith
  · rw [contains_iff hpos, contains_iff hpos, Nat.cast_add, Nat.cast_one]
    have hnear : ∀ {q : ℚ}, m * 2 ^ e - 10 ^ (point - (17 : Nat)) / 2 ≤ q ∧
        q ≤ m * 2 ^ e + 10 ^ (point - (17 : Nat)) / 2 → Rounds m e q :=
      fun h => rounds_of_near hm hlow h.1 h.2
    exact (near_or_near hunit hle hlt).imp hnear hnear

/-- What is found by trying more and more digits rounds to the double, if some number of digits
suffices. -/
theorem rounds_search (hpos : 0 < m) {tie : Tie} {point : Int} {tries count : Nat}
    (h : ∃ k < tries, ((Rounding.ofBinary m e).withDigits? tie point (count + k)).isSome) :
    ((Rounding.ofBinary m e).search tie point tries count).Sound ∧
      Rounds m e ((Rounding.ofBinary m e).search tie point tries count).value := by
  induction tries generalizing count with
  | zero =>
    obtain ⟨k, hk, -⟩ := h
    exact absurd hk (Nat.not_lt_zero k)
  | succ tries ih =>
    unfold Rounding.search
    cases hfound : (Rounding.ofBinary m e).withDigits? tie point count with
    | some d => exact withDigits?_rounds hpos hfound
    | none =>
      obtain ⟨k, hk, hsome⟩ := h
      refine ih ?_
      cases k with
      | zero => simp [hfound] at hsome
      | succ k => exact ⟨k, by omega, by rwa [Nat.add_assoc, Nat.add_comm 1]⟩

/-- The shortest decimal of a double rounds to it. -/
theorem rounds_shortest (hm : IsDouble m e) (hpos : 0 < m) (tie : Tie) :
    (shortest tie m e).Sound ∧ Rounds m e (shortest tie m e).value :=
  rounds_search hpos ⟨16, by decide, isSome_withDigits? hm hpos tie⟩

section Texts

variable {k : Nat} {rest : List Char}

/-- What starts with a digit is no word for a number. -/
theorem readMagnitude?_digit (hk : k < 10) (negative : Bool) :
    readMagnitude? negative (digitChar k :: rest) =
      (readScientific? (digitChar k :: rest)).map (·.nearest negative) := by
  have hword : ∀ k < 10, (digitChar k).toLower ≠ 'i' ∧ (digitChar k).toLower ≠ 'n' := by decide
  obtain ⟨hi, hn⟩ := hword k hk
  simp [readMagnitude?, hi, hn]

/-- What starts with a digit has no sign. -/
theorem readDouble?_digit (hk : k < 10) :
    readDouble? (String.ofList (digitChar k :: rest)) =
      readMagnitude? false (digitChar k :: rest) := by
  have hsign : ∀ k < 10, digitChar k ≠ '-' ∧ digitChar k ≠ '+' := by decide
  obtain ⟨hminus, hplus⟩ := hsign k hk
  rw [readDouble?, String.toList_ofList]
  split
  next h => exact absurd (List.cons.inj h).1 hminus
  next h => exact absurd (List.cons.inj h).1 hplus
  next => rfl

/-- What follows a minus sign is read as the negative number. -/
theorem readDouble?_minus (cs : List Char) :
    readDouble? (String.ofList ('-' :: cs)) = readMagnitude? true cs := by
  rw [readDouble?, String.toList_ofList]
  rfl

/-- A number behind its sign is read with its sign. -/
theorem readDouble?_signed (hk : k < 10) (negative : Bool) :
    readDouble? (String.ofList ((if negative then ['-'] else []) ++ digitChar k :: rest)) =
      (readScientific? (digitChar k :: rest)).map (·.nearest negative) := by
  rw [← readMagnitude?_digit hk]
  cases negative with
  | true => exact readDouble?_minus _
  | false => exact readDouble?_digit hk

end Texts

/-- A double of so many bits is a number or an infinity. -/
theorem isNaN_ofParts {magnitude : Nat} (h : magnitude ≤ Double.infinityBits) (negative : Bool) :
    (Double.ofParts negative magnitude).isNaN = false := by
  unfold Double.isNaN Double.magnitude Double.ofParts
  rw [UInt64.toNat_ofNat', decide_eq_false_iff_not, Nat.not_lt]
  unfold Double.infinityBits at h ⊢
  simp only [Nat.pow_eq, Nat.reducePow, Nat.reduceMul] at h ⊢
  split <;> omega

theorem isNaN_eq_false_of_isDouble {m : Nat} {e : Int} (hm : IsDouble m e) (negative : Bool) :
    (Double.ofParts negative (m + (e + 1074).toNat * 2 ^ 52)).isNaN = false := by
  have hlt := hm.lt
  have hgreatest := hm.greatest
  refine isNaN_ofParts ?_ negative
  unfold Double.infinityBits
  simp only [Nat.pow_eq, Nat.reducePow, Nat.reduceMul] at hlt ⊢
  omega

/-- A number that is not zero is written behind its sign, without an exponent if its style says so.
-/
theorem floatText_finite {style : FloatStyle} {x : Double} {negative : Bool}
    (h : x.parts = .finite negative m e) (hm : 0 < m)
    (hstyle : style.positional (shortest style.tie m e).point = true) :
    floatText style x = String.ofList ((if negative then ['-'] else []) ++
      (shortest style.tie m e).positional style.pointZero) := by
  simp [floatText, h, hm.ne', hstyle]

/-- A double is read back from its stored text, unless it is no number; then the one that is no
number and positive is read. -/
theorem readDouble?_floatText (x : Double) :
    readDouble? (floatText .plain x) = some (if x.isNaN then .nan false else x) := by
  cases h : x.parts with
  | nan =>
    rw [isNaN_of_parts h, if_pos rfl, floatText, h]
    rfl
  | infinite negative =>
    have hx := parts_infinite h
    subst hx
    cases negative <;> rfl
  | finite negative m e =>
    obtain ⟨hx, hm⟩ := parts_finite h
    have hnan : x.isNaN = false := hx ▸ isNaN_eq_false_of_isDouble hm negative
    rw [hnan, if_neg Bool.false_ne_true]
    rcases Nat.eq_zero_or_pos m with hzero | hpos
    · subst hzero
      have he : e = -1074 := hm.full.resolve_left (by decide)
      subst he
      rw [hx]
      cases negative <;> rfl
    · obtain ⟨hsound, hrounds⟩ := rounds_shortest hm hpos FloatStyle.plain.tie
      obtain ⟨⟨k, rest, heq, hk⟩, s, hs, hvalue⟩ := readScientific?_positional hsound
      rw [floatText_finite h hpos rfl, show FloatStyle.plain.pointZero = false from rfl, heq,
        readDouble?_signed hk, ← heq, hs, Option.map_some,
        Scientific.nearest_eq hm hpos (hvalue ▸ hrounds), ← hx]

/-- The digits of a number are written one by one. -/
theorem decimalDigits_eq_map (n : Nat) : decimalDigits n = (digitsOf n).map digitChar := by
  rw [decimalDigits_eq, digitsOf]
  split
  next => rfl
  next h =>
    rw [decimalDigits_eq_map (n / 10), List.map_append]
    rfl
termination_by n
decreasing_by omega

/-- A whole number that is not too great is taken for the nearest double. -/
theorem Scientific.nearest_whole {n : Nat} (h : n < 2 ^ 64) (negative : Bool) :
    (Scientific.mk n 0).nearest negative = Number.nearest negative n 1 := by
  obtain ⟨-, hlow⟩ := length_digitsOf n
  unfold nearest
  dsimp only
  rcases Nat.eq_zero_or_pos n with rfl | hpos
  · rfl
  · have hlength : (digitsOf n).length - 1 < 20 :=
      (Nat.pow_lt_pow_iff_right (by decide)).mp ((hlow hpos).trans_lt (h.trans (by decide)))
    rw [if_neg, if_neg]
    · simp
    · omega
    · simp
      omega

/-- A whole number is read back from its digits as the nearest double, with the sign before it. -/
theorem readDouble?_decimalDigits {n : Nat} (h : n < 2 ^ 64) (negative : Bool) :
    readDouble? (String.ofList ((if negative then ['-'] else []) ++ decimalDigits n)) =
      some (Number.nearest negative n 1) := by
  have hlt := lt_of_mem_digitsOf n
  have hne : digitsOf n ≠ [] := fun hnil =>
    decimalDigits_ne_nil n (by rw [decimalDigits_eq_map, hnil, List.map_nil])
  have hread := readScientific?_whole hne hlt
  rw [foldDigits_digitsOf] at hread
  obtain ⟨d, rest, hdigits⟩ := List.exists_cons_of_ne_nil hne
  rw [decimalDigits_eq_map]
  rw [hdigits, List.map_cons] at hread ⊢
  rw [readDouble?_signed (hlt d (hdigits ▸ List.mem_cons_self ..)), hread, Option.map_some,
    Scientific.nearest_whole h]

/-- An integer that is not too great is read back from its text as the nearest double. -/
theorem readDouble?_intText {n : Int} (h : n.natAbs < 2 ^ 64) :
    readDouble? (intText n) = some (.ofInt n) := by
  have hsign : Double.ofInt n = Number.nearest (n < 0) n.natAbs 1 := rfl
  rw [hsign]
  cases n with
  | ofNat n => exact readDouble?_decimalDigits h false
  | negSucc n =>
    rw [decide_eq_true (Int.negSucc_lt_zero n)]
    exact readDouble?_decimalDigits h true

end KeyedRecords.Number
