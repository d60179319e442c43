import KeyedRecords.Number.FloatText

/-!
# Reading written integers

An integer is read back from its decimal text (`readInt?_intText`), so different integers have
different texts, and a text of digits has no colon in it.
-/

namespace KeyedRecords.Number

/-- The character of a digit stands for the digit. -/
theorem digitValue?_digitChar {d : Nat} (h : d < 10) : digitValue? (digitChar d) = some d := by
  have hall : ∀ d < 10, digitValue? (digitChar d) = some d := by decide
  exact hall d h

/-- The decimal digits of a number, the last one set apart. -/
theorem decimalDigits_eq (n : Nat) :
    decimalDigits n =
      if n < 10 then [digitChar n] else decimalDigits (n / 10) ++ [digitChar (n % 10)] := by
  rw [decimalDigits]
  rfl

/-- Digits are read from the first to the last. -/
theorem readDigits?_append (n : Nat) (cs ds : List Char) :
    readDigits? n (cs ++ ds) = (readDigits? n cs).bind fun m => readDigits? m ds := by
  induction cs generalizing n with
  | nil => rfl
  | cons c rest ih =>
    simp only [List.cons_append, readDigits?]
    cases digitValue? c with
    | none => rfl
    | some d => exact ih _

/-- A number is read back from its digits. -/
theorem readDigits?_decimalDigits (n : Nat) : readDigits? 0 (decimalDigits n) = some n := by
  rw [decimalDigits_eq]
  split
  next h => simp [readDigits?, digitValue?_digitChar h]
  next h =>
    have hlast : n % 10 < 10 := Nat.mod_lt n (by decide)
    rw [readDigits?_append, readDigits?_decimalDigits (n / 10), Option.bind_some]
    simp only [readDigits?, digitValue?_digitChar hlast]
    exact congrArg some (Nat.div_add_mod n 10)
termination_by n
decreasing_by omega

theorem decimalDigits_ne_nil (n : Nat) : decimalDigits n ≠ [] := by
  rw [decimalDigits_eq]
  split <;> simp

/-- Every character of the digits of a number is a digit. -/
theorem isSome_digitValue? (n : Nat) : ∀ c ∈ decimalDigits n, (digitValue? c).isSome := by
  rw [decimalDigits_eq]
  split
  next h =>
    intro c hc
    rw [List.mem_singleton.mp hc, digitValue?_digitChar h]
    rfl
  next h =>
    have hlast : n % 10 < 10 := Nat.mod_lt n (by decide)
    intro c hc
    rcases List.mem_append.mp hc with hc | hc
    · exact isSome_digitValue? (n / 10) c hc
    · rw [List.mem_singleton.mp hc, digitValue?_digitChar hlast]
      rfl
termination_by n
decreasing_by omega

/-- A number is read back from its digits. -/
theorem readNat?_decimalDigits (n : Nat) : readNat? (decimalDigits n) = some n := by
  cases h : decimalDigits n with
  | nil => exact absurd h (decimalDigits_ne_nil n)
  | cons c rest =>
    rw [readNat?, ← h, readDigits?_decimalDigits]
    exact fun hnil => nomatch hnil

/-- An integer is read back from its text. -/
@[simp]
theorem readInt?_intText (n : Int) : readInt? (intText n) = some n := by
  cases n with
  | ofNat n =>
    unfold intText readInt?
    rw [String.toList_ofList]
    unfold readIntList?
    -- the first character is a digit, no sign
    split
    next rest h => simpa [h, digitValue?] using isSome_digitValue? n '-' (by simp [h])
    next rest h => simpa [h, digitValue?] using isSome_digitValue? n '+' (by simp [h])
    next => rw [readNat?_decimalDigits]; rfl
  -- behind the sign stands the number without it
  | negSucc n =>
    unfold intText readInt?
    rw [String.toList_ofList, readIntList?, readNat?_decimalDigits]
    rfl

theorem intText_inj {m n : Int} : intText m = intText n ↔ m = n := by
  constructor
  · intro h
    have hread := readInt?_intText m
    rw [h, readInt?_intText] at hread
    exact (Option.some.inj hread).symm
  · rintro rfl
    rfl

/-- A number of 64 bits is the integer that it was made of. -/
theorem toInt_of_toInt64? {n : Int} {k : Int64} (h : toInt64? n = some k) : k.toInt = n := by
  unfold toInt64? at h
  split at h
  next hfits =>
    obtain rfl := Option.some.inj h
    rw [fitsInt64, Bool.and_eq_true, decide_eq_true_iff, decide_eq_true_iff] at hfits
    rw [Int64.toInt_ofInt_of_le (by simpa using hfits.1) (by simp; omega)]
  next => cases h

/-- An integer of 64 bits is read back from its text. -/
theorem readInt64?_intText {n : Int} (h : fitsInt64 n = true) :
    (readInt64? (intText n)).map Int64.toInt = some n := by
  have hmade : toInt64? n = some (Int64.ofInt n) := if_pos h
  rw [readInt64?, readInt?_intText, Option.bind_some, hmade, Option.map_some,
    toInt_of_toInt64? hmade]

theorem fitsInt64_toInt (k : Int64) : fitsInt64 k.toInt = true := by
  have hlow := k.le_toInt
  have hhigh := k.toInt_lt
  rw [fitsInt64, Bool.and_eq_true, decide_eq_true_iff, decide_eq_true_iff]
  omega

/-- A number of 64 bits is read back from its text. -/
theorem readInt64?_toInt (k : Int64) : readInt64? (intText k.toInt) = some k := by
  rw [readInt64?, readInt?_intText, Option.bind_some, toInt64?, if_pos (fitsInt64_toInt k),
    Int64.ofInt_toInt]

/-- A number of 64 bits that a text stands for is the integer that it stands for. -/
theorem readInt?_of_readInt64? {s : String} {n : Int64} (h : readInt64? s = some n) :
    readInt? s = some n.toInt := by
  obtain ⟨m, hm, hn⟩ := Option.bind_eq_some_iff.mp h
  rw [hm, toInt_of_toInt64? hn]

theorem colon_not_mem_intText (n : Int) : ':' ∉ (intText n).toList := by
  have hdigits : ∀ n, ':' ∉ decimalDigits n := by
    intro n hmem
    simpa [digitValue?] using isSome_digitValue? n ':' hmem
  cases n with
  | ofNat n =>
    unfold intText
    rw [String.toList_ofList]
    exact hdigits n
  | negSucc n =>
    unfold intText
    rw [String.toList_ofList, List.mem_cons, not_or]
    exact ⟨by decide, hdigits _⟩

/-- An integer of 64 bits that is not the greatest has a next one. -/
theorem toInt_add_one {n : Int64} (h : n < Int64.maxValue) : (n + 1).toInt = n.toInt + 1 := by
  have hlow := n.le_toInt
  have hhigh := Int64.lt_iff_toInt_lt.mp h
  rw [Int64.toInt_maxValue] at hhigh
  rw [Int64.toInt_add, Int64.toInt_one, Int.bmod_eq_of_le]
  · omega
  · omega

/-- Nor is it followed by itself, not even if it is the greatest. -/
theorem add_one_ne (n : Int64) : n + 1 ≠ n := by
  intro h
  have hnext : (n + 1).toInt = n.toInt := congrArg Int64.toInt h
  have hlow := n.le_toInt
  have hhigh := n.toInt_lt
  rw [Int64.toInt_add, Int64.toInt_one, Int.bmod_def] at hnext
  omega

end KeyedRecords.Number
