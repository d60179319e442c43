import KeyedRecords.Text.Split

/-!
# What a text begins with

The texts that begin with a text stand together in the order of texts: none comes before it
(`not_lt_of_startsWith`), and between it and one of them there are no others (`startsWith_of_lt`).
-/

namespace KeyedRecords

namespace Text

variable {s t start : String}

/-- A text begins with another if it is that text with something behind it. -/
theorem startsWith_iff : startsWith s start = true ↔ ∃ rest, s = start ++ rest := by
  rw [startsWith, List.isPrefixOf_iff_prefix]
  constructor
  · rintro ⟨rest, h⟩
    refine ⟨String.ofList rest, String.toList_inj.mp ?_⟩
    rw [String.toList_append, String.toList_ofList, h]
  · rintro ⟨rest, rfl⟩
    rw [String.toList_append]
    exact List.prefix_append _ _

/-- A text that begins with another does not come before it. -/
theorem not_lt_of_startsWith (h : startsWith s start = true) : ¬s < start := by
  rw [startsWith, List.isPrefixOf_iff_prefix] at h
  rw [String.lt_iff, List.not_lt]
  exact h.le

/-- What stands between some characters and a text that begins with them begins with them too. -/
theorem prefix_of_lt_of_prefix {front s t : List Char} (hfrom : ¬s < front) (hst : s < t)
    (ht : front <+: t) : front <+: s := by
  induction front generalizing s t with
  | nil => exact List.nil_prefix
  | cons c front ih =>
    obtain ⟨rest, rfl⟩ := ht
    cases s with
    | nil => exact absurd (List.nil_lt_cons c front) hfrom
    | cons d s =>
      rw [List.cons_lt_cons_iff, not_or] at hfrom
      rw [List.cons_append, List.cons_lt_cons_iff] at hst
      -- the first character is neither less nor greater
      obtain ⟨rfl, hrest⟩ := hst.resolve_left hfrom.1
      have hbehind : ¬s < front := fun hlt => hfrom.2 ⟨rfl, hlt⟩
      rw [List.cons_prefix_cons]
      exact ⟨rfl, ih hbehind hrest (List.prefix_append front rest)⟩

/-- What stands between a text and one that begins with it begins with it too. -/
theorem startsWith_of_lt (hfrom : ¬s < start) (hst : s < t) (ht : startsWith t start = true) :
    startsWith s start = true := by
  rw [startsWith, List.isPrefixOf_iff_prefix] at ht ⊢
  exact prefix_of_lt_of_prefix hfrom hst ht

end Text

end KeyedRecords
