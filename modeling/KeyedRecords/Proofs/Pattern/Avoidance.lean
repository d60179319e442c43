import KeyedRecords.Model.Layout

/-!
# Characters that a pattern takes in nowhere

A match of a pattern all of whose sets lack a character does not run over that character
(`Pattern.ends_clear`). It follows that names which may become parts of keys have no colon
(`colon_not_mem_of_isKeyName`).
-/

namespace KeyedRecords

namespace Pattern

variable {text : Array Char} {c : Char}

/-- No set of the pattern holds a character. -/
def Avoids (c : Char) : Pattern → Prop
  | .empty | .check _ => True
  | .one s => s.contains c = false
  | .seq p q | .either p q => Avoids c p ∧ Avoids c q
  | .times _ _ p => Avoids c p

/-- The text before a position lacks a character. -/
def Clear (text : Array Char) (c : Char) (i : Nat) : Prop := ∀ j < i, text[j]? ≠ some c

/-- What steps preserve is preserved by any number of them. -/
theorem after_preserves {P : Nat → Prop} {step : List Nat → List Nat}
    (hstep : ∀ starts, (∀ i ∈ starts, P i) → ∀ i ∈ step starts, P i) (n : Nat)
    {starts : List Nat} (h : ∀ i ∈ starts, P i) : ∀ i ∈ after step n starts, P i := by
  induction n generalizing starts with
  | zero => exact h
  | succ n ih => exact ih (hstep starts h)

/-- What steps preserve is preserved by up to any number of them. -/
theorem within_preserves {P : Nat → Prop} {step : List Nat → List Nat}
    (hstep : ∀ starts, (∀ i ∈ starts, P i) → ∀ i ∈ step starts, P i) (n : Nat)
    {starts : List Nat} (h : ∀ i ∈ starts, P i) : ∀ i ∈ within step n starts, P i := by
  induction n generalizing starts with
  | zero => exact h
  | succ n ih =>
    refine ih fun i hi => ?_
    rw [List.mem_eraseDups, List.mem_append] at hi
    exact hi.elim (h i) (hstep starts h i)

/-- A match of a pattern does not run over a character that the pattern avoids. -/
theorem ends_clear {p : Pattern} (hp : p.Avoids c) {starts : List Nat}
    (h : ∀ i ∈ starts, Clear text c i) : ∀ i ∈ ends text p starts, Clear text c i := by
  induction p generalizing starts with
  | empty => exact h
  | one s =>
    intro i hi
    obtain ⟨k, hk, rfl⟩ := List.mem_map.mp hi
    obtain ⟨hk, hs⟩ := List.mem_filter.mp hk
    intro j hj hc
    -- the match grows by one character, which the set must hold
    rcases Nat.lt_succ_iff_lt_or_eq.mp hj with hj | rfl
    · exact h k hk j hj hc
    · rw [hc, Option.any_some] at hs
      rw [Avoids, hs] at hp
      cases hp
  | check a =>
    intro i hi
    exact h i (List.mem_filter.mp hi).1
  | seq p q ihp ihq => exact ihq hp.2 (ihp hp.1 h)
  | either p q ihp ihq =>
    intro i hi
    rw [ends, List.mem_eraseDups, List.mem_append] at hi
    exact hi.elim (ihp hp.1 h i) (ihq hp.2 h i)
  | times least most p ih =>
    -- at first the least number of matches, then up to the greatest
    have hstep : ∀ starts, (∀ i ∈ starts, Clear text c i) →
        ∀ i ∈ ends text p starts, Clear text c i := fun starts h => ih hp h
    exact within_preserves hstep _ (after_preserves hstep _ h)

end Pattern

open Pattern

/-- The characters that a name may begin with. -/
def nameStart : CharSet :=
  .union (.union (.union .none (.range 'A' 'Z')) (.range 'a' 'z')) (.single '_')

/-- The characters that a name may go on with. -/
def nameRest : CharSet :=
  .union (.union (.union (.union .none (.range 'A' 'Z')) (.range 'a' 'z')) (.range '0' '9'))
    (.single '_')

/-- What a name is behind its beginning. -/
def nameBody : Pattern := .seq (.one nameStart) (.times 0 none (.one nameRest))

/-- The text of the pattern of names, read. -/
theorem read?_namePattern : Pattern.read? namePattern =
    some (.seq (.check .textStart) (.seq (.one nameStart)
      (.seq (.times 0 none (.one nameRest)) (.seq (.check .textEnd) .empty)))) := by
  rfl

/-- Only the first position of a text has nothing before it. -/
theorem ends_textStart (text : Array Char) :
    ends text (.check .textStart) (List.range (text.size + 1)) = [0] := by
  rw [List.range_succ_eq_map, ends, List.filter_cons_of_pos rfl, List.filter_eq_nil_iff.mpr]
  intro i hi
  obtain ⟨j, hj, rfl⟩ := List.mem_map.mp hi
  have hlt := List.mem_range.mp hj
  simp [neighbours, Assertion.holds, hlt]

/-- A name is a text that its pattern matches from the first to the last character. -/
theorem isKeyName_iff {name : String} :
    isKeyName name = true ↔
      ∃ i ∈ ends name.toList.toArray nameBody [0], name.toList.length ≤ i := by
  -- the assertions pick the first position before the match, and the last one behind it
  have hends : ∀ text : Array Char,
      ends text (.seq (.check .textStart) (.seq (.one nameStart)
        (.seq (.times 0 none (.one nameRest)) (.seq (.check .textEnd) .empty))))
        (List.range (text.size + 1)) =
      (ends text nameBody [0]).filter fun i => text[i]?.isNone := by
    intro text
    rw [← ends_textStart text]
    rfl
  rw [isKeyName, matchesText, read?_namePattern]
  simp only [isMatch, hends, Bool.not_eq_true', List.isEmpty_eq_false_iff_exists_mem,
    List.mem_filter]
  simp

/-- A name that may become part of a key lacks every character that names are not made of. -/
theorem not_mem_of_isKeyName {name : String} (h : isKeyName name = true) {c : Char}
    (hstart : nameStart.contains c = false) (hrest : nameRest.contains c = false) :
    c ∉ name.toList := by
  obtain ⟨i, hi, hlength⟩ := isKeyName_iff.mp h
  have hbody : nameBody.Avoids c := ⟨hstart, hrest⟩
  have hclear := ends_clear hbody (by simp [Clear]) i hi
  intro hmem
  obtain ⟨j, hj, hchar⟩ := List.getElem_of_mem hmem
  exact hclear j (Nat.lt_of_lt_of_le hj hlength) (by simp [hj, hchar])

/-- A name that may become part of a key has no colon. -/
theorem colon_not_mem_of_isKeyName {name : String} (h : isKeyName name = true) :
    ':' ∉ name.toList :=
  not_mem_of_isKeyName h (by decide) (by decide)

end KeyedRecords
