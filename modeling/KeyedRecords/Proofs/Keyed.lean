import Mathlib.Data.List.Nodup

/-!
# Elements with different keys

In a list whose elements have different keys each one is found under its key, and of elements that
are counted no more than once there is only one.
-/

namespace KeyedRecords

/-- If the elements of a list have different keys, each one is found under its key. -/
theorem find?_eq_some_iff_of_nodup {α κ : Type} [BEq κ] [LawfulBEq κ] {key : α → κ} {as : List α}
    (h : (as.map key).Nodup) {k : κ} {a : α} :
    as.find? (key · == k) = some a ↔ a ∈ as ∧ key a = k := by
  constructor
  · intro hfound
    exact ⟨List.mem_of_find?_eq_some hfound, by simpa using List.find?_some hfound⟩
  · rintro ⟨ha, rfl⟩
    cases hfound : as.find? (key · == key a) with
    | none => simpa using List.find?_eq_none.mp hfound a ha
    | some b =>
      have hsame : key b = key a := by simpa using List.find?_some hfound
      rw [List.inj_on_of_nodup_map h (List.mem_of_find?_eq_some hfound) ha hsame]

/-- Looking up in a list in which no name comes twice. -/
theorem lookup_eq_some_iff_mem {β : Type} {entries : List (String × β)}
    (h : (entries.map Prod.fst).Nodup) {name : String} {v : β} :
    entries.lookup name = some v ↔ (name, v) ∈ entries := by
  induction entries with
  | nil => simp
  | cons e rest ih =>
    obtain ⟨hnew, hrest⟩ := List.nodup_cons.mp h
    rw [List.lookup_cons, List.mem_cons]
    by_cases hname : name = e.1
    -- the first entry has the name, so no other one has
    · have hnot : (name, v) ∉ rest := fun hmem => hnew (hname ▸ List.mem_map_of_mem hmem)
      subst hname
      simp [hnot, Prod.ext_iff, eq_comm]
    · have hne : (name == e.1) = false := by simpa using hname
      have hnot : (name, v) ≠ e := fun heq => hname (congrArg Prod.fst heq)
      simp [hne, hnot, ih hrest]

/-- Where no name comes twice, the order of entries does not matter. -/
theorem lookup_reverse {β : Type} {entries : List (String × β)}
    (h : (entries.map Prod.fst).Nodup) (name : String) :
    entries.reverse.lookup name = entries.lookup name := by
  refine Option.ext fun v => ?_
  -- an entry is in the list exactly if it is in the reversed one
  have hreverse : (entries.reverse.map Prod.fst).Nodup := by
    rw [List.map_reverse]
    exact List.nodup_reverse.mpr h
  rw [lookup_eq_some_iff_mem hreverse, lookup_eq_some_iff_mem h, List.mem_reverse]

/-- Entries of other names do not matter. -/
theorem lookup_filter_ne {β : Type} (entries : List (String × β)) {name other : String}
    (h : name ≠ other) :
    (entries.filter fun e => e.1 != other).lookup name = entries.lookup name := by
  induction entries with
  | nil => rfl
  | cons e rest ih =>
    by_cases hother : e.1 = other
    · have hne : (name == e.1) = false := by
        rw [hother]
        simpa using h
      rw [List.filter_cons_of_neg (by simp [hother]), List.lookup_cons, hne, ih]
    · rw [List.filter_cons_of_pos (by simp [hother]), List.lookup_cons, List.lookup_cons, ih]

/-- The elements that a test counts are the same if it counts no more than one. -/
theorem eq_of_countP_le_one {α : Type} {p : α → Bool} {as : List α} (h : as.countP p ≤ 1) {a b : α}
    (ha : a ∈ as) (hpa : p a = true) (hb : b ∈ as) (hpb : p b = true) : a = b := by
  have ha := List.mem_filter.mpr ⟨ha, hpa⟩
  have hb := List.mem_filter.mpr ⟨hb, hpb⟩
  rw [List.countP_eq_length_filter] at h
  match hmarked : as.filter p with
  | [] => simp [hmarked] at ha
  | [c] =>
    rw [hmarked, List.mem_singleton] at ha hb
    rw [ha, hb]
  | _ :: _ :: _ => simp [hmarked] at h

/-- A list that has a value once has only one element with that value. -/
theorem eq_of_count_map_le_one {γ δ : Type} [BEq δ] [LawfulBEq δ] {f : γ → δ} {l : List γ} {a b : γ}
    {d : δ} (ha : a ∈ l) (hb : b ∈ l) (hfa : f a = d) (hfb : f b = d)
    (h : (l.map f).count d ≤ 1) : a = b := by
  rw [List.count, List.countP_map] at h
  exact eq_of_countP_le_one h ha (beq_iff_eq.mpr hfa) hb (beq_iff_eq.mpr hfb)

end KeyedRecords
