import KeyedRecords.Text.Split
import Mathlib.Data.List.Infix

/-!
# Where texts are cut

A text is cut at the first occurrence of a separator, so that what is put in front of a separator
comes back exactly if no separator begins earlier (`cutList?_append`, `exists_cutList?_append`). A
text without the separator is not cut (`cutList?_eq_none`).
-/

namespace KeyedRecords

namespace Text

variable {sep before s : List Char}

/-- A text is cut at a separator if this does not begin earlier. -/
theorem cutList?_append (hne : sep ≠ []) (h : ¬sep <:+: before ++ sep.dropLast)
    (after : List Char) : cutList? sep (before ++ sep ++ after) = some (before, after) := by
  induction before with
  | nil =>
    obtain ⟨c, rest, rfl⟩ := List.exists_cons_of_ne_nil hne
    simp [cutList?, List.isPrefixOf_iff_prefix]
  | cons c rest ih =>
    have hnot : ¬sep.isPrefixOf (c :: (rest ++ sep ++ after)) := by
      rw [List.isPrefixOf_iff_prefix]
      intro hinitial
      -- a separator that begins here ends before the last character of the other one
      refine h (List.prefix_of_prefix_length_le hinitial ?_ ?_).isInfix
      · have hlast := List.dropLast_append_getLast hne
        exact ⟨sep.getLast hne :: after, by grind⟩
      · have hpos := List.length_pos_iff.mpr hne
        simp only [List.cons_append, List.length_cons, List.length_append, List.length_dropLast]
        omega
    have hrest : ¬sep <:+: rest ++ sep.dropLast := fun hoccurs =>
      h (hoccurs.trans (List.suffix_cons c _).isInfix)
    simp only [List.cons_append, cutList?, hnot, if_false, ih hrest, Option.map_some,
      Bool.false_eq_true]

/-- A text in which a separator occurs is cut there or earlier, whatever is behind it. -/
theorem exists_cutList?_append (hne : sep ≠ []) (h : sep <:+: s) (more : List Char) :
    ∃ before after, cutList? sep (s ++ more) = some (before, after) ∧ before ++ sep <+: s := by
  induction s with
  | nil => exact absurd (List.infix_nil.mp h) hne
  | cons c rest ih =>
    rw [List.cons_append, cutList?]
    split
    next hinitial =>
      -- what begins here ends in the text, which is long enough for the separator
      rw [List.isPrefixOf_iff_prefix] at hinitial
      exact ⟨_, _, rfl, List.prefix_of_prefix_length_le hinitial
        (List.prefix_append (c :: rest) more) h.length_le⟩
    next hnot =>
      have hrest : sep <:+: rest := by
        refine (List.infix_cons_iff.mp h).resolve_left fun hinitial => hnot ?_
        exact List.isPrefixOf_iff_prefix.mpr (hinitial.trans (List.prefix_append (c :: rest) more))
      obtain ⟨before, after, hcut, hinitial⟩ := ih hrest
      exact ⟨c :: before, after, by rw [hcut]; rfl, (List.prefix_cons_inj c).mpr hinitial⟩

/-- A text in which a separator does not occur is not cut. -/
theorem cutList?_eq_none (hne : sep ≠ []) (h : ¬sep <:+: s) : cutList? sep s = none := by
  induction s with
  | nil => simp [cutList?, hne]
  | cons c rest ih =>
    rw [List.infix_cons_iff, not_or] at h
    rw [cutList?, if_neg (mt List.isPrefixOf_iff_prefix.mp h.1), ih h.2]
    rfl

/-- A text without a character is left as it is when that character is replaced. -/
theorem replaceFirst_of_not_mem {c : Char} {s : String} (h : c ∉ s.toList) (image : String) :
    replaceFirst c image s = s := by
  rw [replaceFirst, cutList?_eq_none (List.cons_ne_nil c []) (by rwa [List.singleton_infix_iff])]

/-- A text does not occur across the beginning of one that lacks its last character. -/
theorem occurs_of_occurs_append (a : List Char) {b : List Char} {c : Char} (hc : c ∉ b)
    (h : before ++ [c] <:+: a ++ b) : before ++ [c] <:+: a := by
  obtain ⟨front, back, h⟩ := h
  obtain ⟨more, ha, -⟩ | ⟨more, hfront, hb⟩ := List.append_eq_append_iff.mp h
  · exact ⟨front, more, ha.symm⟩
  · rcases List.eq_nil_or_concat more with rfl | ⟨more, last, rfl⟩
    · exact ⟨front, [], by simpa using hfront⟩
    · -- the character would be the last of what reaches into the other text
      have hlast : c = last := by
        simpa using congrArg List.getLast? hfront
      exact absurd (by simp [hb, hlast]) hc

end Text

end KeyedRecords
