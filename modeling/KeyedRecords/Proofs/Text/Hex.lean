import KeyedRecords.Text.Hex
import Mathlib.Data.String.Basic
import Mathlib.Tactic.IntervalCases

/-!
# Reading hexadecimal text

The reader cuts a text at its bytes. What it takes for a byte consists of ASCII characters, so that
it reads two characters at a time all the same (`decode?_eq_readPairs?`). It reads just the texts of
an even number of digits, with a plus sign in the place of the first digit of a byte or without one
(`isSome_decode?_iff`). Without plus signs, the bytes read are written as the text in lower case
(`encode_of_decode?`), and what has been written is read back (`decode?_encode`).
-/

namespace KeyedRecords.Text.Hex

variable {a b c : Char} {n : Nat} {v : UInt8} {cs rest : List Char}

/-- A hexadecimal digit, in either case. -/
def IsDigit (c : Char) : Prop :=
  ('0' ≤ c ∧ c ≤ '9') ∨ ('a' ≤ c ∧ c ≤ 'f') ∨ ('A' ≤ c ∧ c ≤ 'F')

/-- An even number of hexadecimal digits. -/
def IsHex (s : String) : Prop := s.length % 2 = 0 ∧ ∀ c ∈ s.toList, IsDigit c

/-- An even number of characters, each a hexadecimal digit or, as the first of two, a plus sign. -/
def Readable (s : String) : Prop :=
  s.length % 2 = 0 ∧ ∀ i c, s.toList[i]? = some c → IsDigit c ∨ (i % 2 = 0 ∧ c = '+')

section Digits

/-- Digits stand for numbers, and nothing else does. -/
theorem isSome_digitValue?_iff : (digitValue? c).isSome = true ↔ IsDigit c := by
  unfold digitValue? IsDigit
  split
  next h => simp [h]
  next h =>
    split
    next h' => simp [h']
    next h' =>
      split
      next h'' => simp [h'']
      next h'' => simp [h, h', h'']

/-- There are twenty-two digits. -/
theorem IsDigit.mem (h : IsDigit c) : c ∈ "0123456789abcdefABCDEF".toList := by
  have hbounds : (48 ≤ c.toNat ∧ c.toNat ≤ 57) ∨ (97 ≤ c.toNat ∧ c.toNat ≤ 102) ∨
      (65 ≤ c.toNat ∧ c.toNat ≤ 70) := h
  rw [← Char.ofNat_toNat c]
  rcases hbounds with ⟨hlow, hhigh⟩ | ⟨hlow, hhigh⟩ | ⟨hlow, hhigh⟩
  all_goals
    generalize c.toNat = n at hlow hhigh
    interval_cases n <;> decide

/-- What is known of a character that stands for a number. -/
structure Stands (c : Char) (n : Nat) : Prop where
  lt : n < 16
  /-- The number is written with the same digit in lower case. -/
  digit : digit n = c.toLower
  /-- The character is one byte long. -/
  size : c.utf8Size = 1
  /-- It is not taken for a sign. -/
  ne_plus : c ≠ '+'

theorem stands_of_digitValue? (h : digitValue? c = some n) : Stands c n := by
  -- all digits are gone through one by one
  have hall : ("0123456789abcdefABCDEF".toList.all fun c => (digitValue? c).all fun n =>
      n < 16 ∧ digit n = c.toLower ∧ c.utf8Size = 1 ∧ c ≠ '+') = true := by decide
  have hdigit : IsDigit c := isSome_digitValue?_iff.mp (Option.isSome_of_eq_some h)
  have hdigits := List.all_eq_true.mp hall c hdigit.mem
  rw [h] at hdigits
  obtain ⟨hlt, hlower, hsize, hplus⟩ := of_decide_eq_true hdigits
  exact ⟨hlt, hlower, hsize, hplus⟩

/-- A digit stands for its number. -/
theorem digitValue?_digit (h : n < 16) : digitValue? (digit n) = some n := by
  have hall : ∀ n < 16, digitValue? (digit n) = some n := by decide
  exact hall n h

end Digits

section Pairs

/-- The number that the first character of a byte counts for; a plus sign counts for nothing. -/
def firstValue? (c : Char) : Option Nat := if c = '+' then some 0 else digitValue? c

theorem size_of_firstValue? (h : firstValue? c = some n) : c.utf8Size = 1 := by
  unfold firstValue? at h
  split at h
  next heq =>
    subst heq
    rfl
  next => exact (stands_of_digitValue? h).size

theorem isSome_firstValue?_iff : (firstValue? c).isSome = true ↔ IsDigit c ∨ c = '+' := by
  unfold firstValue?
  split
  next h => simp [h]
  next h => rw [isSome_digitValue?_iff, or_iff_left h]

/-- A plus sign is taken away. -/
theorem withoutPlus_cons (c : Char) (rest : List Char) :
    withoutPlus (c :: rest) = if c = '+' then rest else c :: rest := by
  unfold withoutPlus
  split
  next heq =>
    obtain ⟨rfl, rfl⟩ := List.cons.inj heq
    rfl
  next hne =>
    have hc : c ≠ '+' := by
      rintro rfl
      exact hne rest rfl
    rw [if_neg hc]

/-- One character is a byte if it is a digit, and then it is one byte long. -/
theorem size_of_readByte? (h : readByte? [c] = some v) : c.utf8Size = 1 := by
  unfold readByte? at h
  rw [withoutPlus_cons] at h
  by_cases hc : c = '+'
  · simp [hc] at h
  · rw [if_neg hc] at h
    obtain ⟨n, hread, -⟩ := Option.bind_eq_some_iff.mp h
    obtain ⟨m, hdigit, -⟩ := Option.bind_eq_some_iff.mp hread
    exact (stands_of_digitValue? hdigit).size

/-- Two characters are a byte if the second one is a digit, and the first one is a digit or a plus
sign. -/
theorem readByte?_pair (a b : Char) :
    readByte? [a, b] = (firstValue? a).bind fun m => (digitValue? b).map fun n =>
      UInt8.ofNat (16 * m + n) := by
  unfold readByte? firstValue?
  rw [withoutPlus_cons]
  by_cases ha : a = '+'
  · rw [if_pos ha, if_pos ha, Option.bind_some]
    cases hb : digitValue? b with
    | none => simp [readDigits?, hb]
    | some n =>
      have hlt : n < 256 := (stands_of_digitValue? hb).lt.trans (by decide)
      simp [readDigits?, hb, hlt]
  · rw [if_neg ha, if_neg ha]
    cases hm : digitValue? a with
    | none => simp [readDigits?, hm]
    | some m =>
      cases hb : digitValue? b with
      | none => simp [readDigits?, hm, hb]
      | some n =>
        have hlt : 16 * m + n < 256 := by
          have hlow := (stands_of_digitValue? hm).lt
          have hhigh := (stands_of_digitValue? hb).lt
          omega
        simp [readDigits?, hm, hb, hlt]

/-- The bytes that characters stand for, two characters for each. -/
def readPairs? : List Char → Option (List UInt8)
  | [] => some []
  | [_] => none
  | a :: b :: rest => (readByte? [a, b]).bind fun v => (readPairs? rest).map (v :: ·)

end Pairs

section Slices

theorem dropBytes?_cons (n : Nat) (c : Char) (rest : List Char) :
    dropBytes? (n + c.utf8Size) (c :: rest) = dropBytes? n rest := by
  obtain ⟨k, hk⟩ := Nat.exists_eq_add_of_lt c.utf8Size_pos
  rw [hk, ← Nat.add_assoc, dropBytes?, hk, if_pos (by omega)]
  congr 1
  omega

theorem takeBytes?_zero (cs : List Char) : takeBytes? 0 cs = some [] := by
  cases cs <;> rfl

theorem takeBytes?_cons (n : Nat) (c : Char) (rest : List Char) :
    takeBytes? (n + c.utf8Size) (c :: rest) = (takeBytes? n rest).map (c :: ·) := by
  obtain ⟨k, hk⟩ := Nat.exists_eq_add_of_lt c.utf8Size_pos
  rw [hk, ← Nat.add_assoc, takeBytes?, hk, if_pos (by omega)]
  congr 2
  omega

/-- A character that is longer than the piece is cut. -/
theorem takeBytes?_of_lt (h : n < c.utf8Size) (hn : n ≠ 0) (rest : List Char) :
    takeBytes? n (c :: rest) = none := by
  obtain ⟨k, rfl⟩ := Nat.exists_eq_succ_of_ne_zero hn
  rw [takeBytes?, if_neg (by omega)]

/-- Behind two characters of one byte each, the pieces are those of the rest. -/
theorem slice?_cons_cons (ha : a.utf8Size = 1) (hb : b.utf8Size = 1) (i : Nat)
    (rest : List Char) :
    slice? (2 * (i + 1)) (2 * (i + 1) + 2) (a :: b :: rest) = slice? (2 * i) (2 * i + 2) rest := by
  have hdrop : dropBytes? (2 * (i + 1)) (a :: b :: rest) = dropBytes? (2 * i) rest := by
    have hsize : 2 * (i + 1) = 2 * i + b.utf8Size + a.utf8Size := by omega
    rw [hsize, dropBytes?_cons, dropBytes?_cons]
  unfold slice?
  rw [hdrop, Nat.add_sub_cancel_left, Nat.add_sub_cancel_left]

/-- If the first piece of two bytes is read, then it consists of two characters. -/
theorem exists_of_first (h : (slice? 0 2 (c :: rest)).bind readByte? = some v) :
    ∃ b others, rest = b :: others ∧ c.utf8Size = 1 ∧ b.utf8Size = 1 ∧
      readByte? [c, b] = some v := by
  obtain ⟨piece, hpiece, hread⟩ := Option.bind_eq_some_iff.mp h
  have htake : takeBytes? 2 (c :: rest) = some piece := hpiece
  have hpos := c.utf8Size_pos
  rcases lt_trichotomy c.utf8Size 2 with hlt | heq | hgt
  · have hc : c.utf8Size = 1 := by omega
    have htwo : 2 = 1 + c.utf8Size := by omega
    rw [htwo, takeBytes?_cons] at htake
    obtain ⟨last, hlast, rfl⟩ := Option.map_eq_some_iff.mp htake
    cases rest with
    | nil => cases hlast
    | cons b others =>
      rcases Nat.lt_or_ge 1 b.utf8Size with hb | hb
      · rw [takeBytes?_of_lt hb Nat.one_ne_zero] at hlast
        cases hlast
      · have hb : b.utf8Size = 1 := le_antisymm hb b.utf8Size_pos
        have hone : 1 = 0 + b.utf8Size := by omega
        rw [hone, takeBytes?_cons, takeBytes?_zero] at hlast
        cases hlast
        exact ⟨b, others, rfl, hc, hb, hread⟩
  · -- a piece of one character is read only if that is a digit, which is shorter
    have htwo : 2 = 0 + c.utf8Size := by omega
    rw [htwo, takeBytes?_cons, takeBytes?_zero] at htake
    cases htake
    have hone := size_of_readByte? hread
    omega
  · rw [takeBytes?_of_lt hgt two_ne_zero] at htake
    cases htake

/-- The first piece of two characters of one byte each. -/
theorem slice?_first (ha : a.utf8Size = 1) (hb : b.utf8Size = 1) (rest : List Char) :
    slice? 0 2 (a :: b :: rest) = some [a, b] := by
  have htwo : 2 = 0 + b.utf8Size + a.utf8Size := by omega
  show takeBytes? 2 _ = _
  rw [htwo, takeBytes?_cons, takeBytes?_cons, takeBytes?_zero]
  rfl

end Slices

section Decoding

/-- Reading goes on behind two characters of one byte each. -/
theorem decode?_cons_cons (ha : a.utf8Size = 1) (hb : b.utf8Size = 1) (rest : List Char) :
    decode? (String.ofList (a :: b :: rest)) =
      (readByte? [a, b]).bind fun v => (decode? (String.ofList rest)).map (v :: ·) := by
  have hsize : (String.ofList (a :: b :: rest)).utf8ByteSize =
      (String.ofList rest).utf8ByteSize + 2 := by
    rw [String.ofList_cons, String.ofList_cons, String.utf8ByteSize_append,
      String.utf8ByteSize_append, String.utf8ByteSize_singleton, String.utf8ByteSize_singleton]
    omega
  unfold decode?
  rw [hsize, Nat.add_mod_right, Nat.add_div_right _ two_pos, String.toList_ofList,
    String.toList_ofList]
  by_cases heven : (String.ofList rest).utf8ByteSize % 2 = 0
  · have hnext : ((fun i => (slice? (2 * i) (2 * i + 2) (a :: b :: rest)).bind readByte?) ∘
        Nat.succ) = fun i => (slice? (2 * i) (2 * i + 2) rest).bind readByte? :=
      funext fun i => congrArg (Option.bind · readByte?) (slice?_cons_cons ha hb i rest)
    rw [if_pos heven, if_pos heven, List.range_succ_eq_map, List.mapM_cons, List.mapM_map, hnext,
      Nat.mul_zero, slice?_first ha hb, Option.bind_some]
    simp only [Option.bind_eq_bind, Option.pure_def, Option.map_eq_bind, Function.comp_def]
  · rw [if_neg heven, if_neg heven]
    cases readByte? [a, b] <;> rfl

/-- A text that is read begins with two characters of one byte each. -/
theorem exists_of_decode? {bytes : List UInt8}
    (h : decode? (String.ofList (c :: rest)) = some bytes) :
    ∃ b others, rest = b :: others ∧ c.utf8Size = 1 ∧ b.utf8Size = 1 := by
  have hpos : 0 < (String.ofList (c :: rest)).utf8ByteSize := by
    rw [String.ofList_cons, String.utf8ByteSize_append, String.utf8ByteSize_singleton]
    exact Nat.add_pos_left c.utf8Size_pos _
  unfold decode? at h
  split at h
  next heven =>
    -- a text of an even number of bytes has a first piece
    obtain ⟨k, hk⟩ : ∃ k, (String.ofList (c :: rest)).utf8ByteSize / 2 = k + 1 :=
      Nat.exists_eq_succ_of_ne_zero (by omega)
    rw [hk, List.range_succ_eq_map, List.mapM_cons, String.toList_ofList] at h
    obtain ⟨v, hv, -⟩ := Option.bind_eq_some_iff.mp h
    obtain ⟨b, others, hrest, hc, hb, -⟩ := exists_of_first hv
    exact ⟨b, others, hrest, hc, hb⟩
  next => cases h

/-- A text is read two characters at a time. -/
theorem decode?_eq_readPairs? (s : String) : decode? s = readPairs? s.toList := by
  have hall : ∀ cs, decode? (String.ofList cs) = readPairs? cs := by
    intro cs
    induction cs using readPairs?.induct with
    | case1 => rfl
    | case2 c =>
      refine Option.eq_none_iff_forall_ne_some.mpr fun bytes h => ?_
      obtain ⟨b, others, hrest, -⟩ := exists_of_decode? h
      cases hrest
    | case3 a b rest ih =>
      by_cases hsize : a.utf8Size = 1 ∧ b.utf8Size = 1
      · rw [decode?_cons_cons hsize.1 hsize.2, ih, readPairs?]
      · -- neither way of reading takes a longer character
        have hbyte : readByte? [a, b] = none := by
          refine Option.eq_none_iff_forall_ne_some.mpr fun v hv => hsize ?_
          rw [readByte?_pair] at hv
          obtain ⟨m, hm, hv⟩ := Option.bind_eq_some_iff.mp hv
          obtain ⟨n, hn, -⟩ := Option.map_eq_some_iff.mp hv
          exact ⟨size_of_firstValue? hm, (stands_of_digitValue? hn).size⟩
        rw [readPairs?, hbyte, Option.bind_none]
        refine Option.eq_none_iff_forall_ne_some.mpr fun bytes h => hsize ?_
        obtain ⟨b, others, hrest, ha, hb⟩ := exists_of_decode? h
        obtain ⟨rfl, rfl⟩ := List.cons.inj hrest
        exact ⟨ha, hb⟩
  rw [← hall, String.ofList_toList]

/-- Characters are read if there is an even number of them, and each is a digit or, as the first of
two, a plus sign. -/
theorem isSome_readPairs?_iff :
    (readPairs? cs).isSome = true ↔
      cs.length % 2 = 0 ∧ ∀ i c, cs[i]? = some c → IsDigit c ∨ (i % 2 = 0 ∧ c = '+') := by
  induction cs using readPairs?.induct with
  | case1 => simp [readPairs?]
  | case2 c => simp [readPairs?]
  | case3 a b rest ih =>
    have hread : (readPairs? (a :: b :: rest)).isSome = true ↔
        ((IsDigit a ∨ a = '+') ∧ IsDigit b) ∧ (readPairs? rest).isSome = true := by
      rw [← isSome_firstValue?_iff, ← isSome_digitValue?_iff, readPairs?, readByte?_pair]
      cases firstValue? a <;> cases digitValue? b <;> simp
    have hlength : (a :: b :: rest).length % 2 = rest.length % 2 := by
      rw [List.length_cons, List.length_cons]
      omega
    rw [hread, ih, hlength]
    constructor
    · rintro ⟨⟨ha, hb⟩, heven, hrest⟩
      refine ⟨heven, fun i c hc => ?_⟩
      match i with
      | 0 =>
        obtain rfl : a = c := by simpa using hc
        exact ha.imp_right fun heq => ⟨rfl, heq⟩
      | 1 =>
        obtain rfl : b = c := by simpa using hc
        exact .inl hb
      | i + 2 => simpa using hrest i c (by simpa using hc)
    · rintro ⟨heven, hall⟩
      refine ⟨⟨(hall 0 a rfl).imp_right And.right, ?_⟩, heven, fun i c hc => ?_⟩
      · simpa using hall 1 b rfl
      · simpa using hall (i + 2) c (by simpa using hc)

/-- The texts that are read are those of digits, with plus signs in the place of first ones. -/
theorem isSome_decode?_iff (s : String) : (decode? s).isSome = true ↔ Readable s := by
  rw [decode?_eq_readPairs?, isSome_readPairs?_iff, String.length_toList]
  rfl

/-- Without plus signs, a text that is read consists of digits. -/
theorem isHex_iff (s : String) : IsHex s ↔ Readable s ∧ '+' ∉ s.toList := by
  have hplus : ¬IsDigit '+' := by
    rw [← isSome_digitValue?_iff]
    decide
  constructor
  · rintro ⟨heven, hdigits⟩
    refine ⟨⟨heven, fun i c hc => .inl (hdigits c (List.mem_of_getElem? hc))⟩, fun hmem => ?_⟩
    exact hplus (hdigits _ hmem)
  · rintro ⟨⟨heven, hall⟩, hnot⟩
    refine ⟨heven, fun c hc => ?_⟩
    obtain ⟨i, hi⟩ := List.getElem?_of_mem hc
    rcases hall i c hi with hdigit | ⟨-, rfl⟩
    · exact hdigit
    · exact absurd hc hnot

/-- A byte is written with the digits of its two halves. -/
theorem pair_ofNat {m n : Nat} (hm : m < 16) (hn : n < 16) :
    pair (UInt8.ofNat (16 * m + n)) = [digit m, digit n] := by
  have htoNat : (UInt8.ofNat (16 * m + n)).toNat = 16 * m + n := by
    rw [UInt8.toNat_ofNat']
    omega
  have hhigh : (16 * m + n) / 16 = m := by omega
  have hlow : (16 * m + n) % 16 = n := by omega
  rw [pair, htoNat, hhigh, hlow]

/-- Bytes that are read from digits are written with the same digits in lower case. -/
theorem flatMap_pair_of_readPairs? {bytes : List UInt8} (hdigits : ∀ c ∈ cs, IsDigit c)
    (h : readPairs? cs = some bytes) : bytes.flatMap pair = cs.map Char.toLower := by
  induction cs using readPairs?.induct generalizing bytes with
  | case1 =>
    cases h
    rfl
  | case2 c => cases h
  | case3 a b rest ih =>
    obtain ⟨v, hv, h⟩ := Option.bind_eq_some_iff.mp h
    obtain ⟨others, hothers, rfl⟩ := Option.map_eq_some_iff.mp h
    obtain ⟨m, hm⟩ := Option.isSome_iff_exists.mp (isSome_digitValue?_iff.mpr (hdigits a (by simp)))
    have hfirst : firstValue? a = some m := by
      rw [firstValue?, if_neg (stands_of_digitValue? hm).ne_plus, hm]
    rw [readByte?_pair, hfirst, Option.bind_some] at hv
    obtain ⟨n, hn, rfl⟩ := Option.map_eq_some_iff.mp hv
    have hrest := ih (fun c hc => hdigits c (by simp [hc])) hothers
    rw [List.flatMap_cons, pair_ofNat (stands_of_digitValue? hm).lt (stands_of_digitValue? hn).lt,
      (stands_of_digitValue? hm).digit, (stands_of_digitValue? hn).digit, hrest]
    rfl

/-- The bytes that digits stand for are written as these digits in lower case. -/
theorem encode_of_decode? {s : String} {bytes : List UInt8} (hs : IsHex s)
    (h : decode? s = some bytes) : encode bytes = s.toLower := by
  rw [decode?_eq_readPairs?] at h
  refine String.toList_inj.mp ?_
  have hlower : s.toLower = s.map Char.toLower := rfl
  rw [encode, String.toList_ofList, flatMap_pair_of_readPairs? hs.2 h, hlower, String.toList_map]

/-- Bytes are read back from their text. -/
theorem decode?_encode (bytes : List UInt8) : decode? (encode bytes) = some bytes := by
  rw [decode?_eq_readPairs?, encode, String.toList_ofList]
  induction bytes with
  | nil => rfl
  | cons v rest ih =>
    have hbyte : v.toNat < 256 := v.toNat_lt
    have hhigh := digitValue?_digit (n := v.toNat / 16) (by omega)
    have hlow := digitValue?_digit (n := v.toNat % 16) (by omega)
    have hsum : 16 * (v.toNat / 16) + v.toNat % 16 = v.toNat := Nat.div_add_mod ..
    have hfirst : firstValue? (digit (v.toNat / 16)) = some (v.toNat / 16) := by
      rw [firstValue?, if_neg (stands_of_digitValue? hhigh).ne_plus, hhigh]
    show readPairs? (digit (v.toNat / 16) :: digit (v.toNat % 16) :: rest.flatMap pair) = _
    rw [readPairs?, ih, readByte?_pair, hfirst, Option.bind_some, hlow, Option.map_some, hsum,
      UInt8.ofNat_toNat]
    rfl

end Decoding

end KeyedRecords.Text.Hex
