import KeyedRecords.Commit.Batch
import KeyedRecords.Proofs.Model.Layout
import Mathlib.Data.List.Nodup

/-!
# The texts of a record

A write of a record stores each field once (`Record.texts`), so what it stores of an indexed field
is what it enters the id under (`lookup_texts`). The identity is not among these texts
(`Layout.WellFormed.identity_not_mem_toHash`). What is read of stored texts has the values that they
decode to, whatever their order (`Record.addPairs_ok`), and all of them decode if they are read
(`Record.decodes_of_addPairs`).
-/

namespace KeyedRecords

/-- A name is that of a field besides the identity. -/
def Layout.Keeps (l : Layout) (name : String) : Prop :=
  ∃ f, l.field? name = some f ∧ f.primaryKey = false

namespace Record

/-- The stored text of a field. -/
def text? (r : Record) (f : Field) : Option String := (r.get? f.name).bind f.kind.encode

/-- The stored texts of fields. -/
def texts (r : Record) (fields : List Field) : List (String × String) :=
  fields.filterMap fun f => (r.text? f).map fun raw => (f.name, raw)

/-- The text of a field with its name. -/
theorem named_text (r : Record) (f : Field) :
    (do
      let value ← r.get? f.name
      let raw ← f.kind.encode value
      return (f.name, raw)) = (r.text? f).map fun raw => (f.name, raw) := by
  unfold text?
  cases r.get? f.name with
  | none => rfl
  | some value =>
    simp only [Option.bind_eq_bind, Option.bind_some, Option.map_eq_bind]
    rfl

/-- The stored texts of a record are those of all fields besides the identity. -/
theorem toHash_eq (l : Layout) (r : Record) :
    r.toHash l = r.texts (l.fields.filter fun f => !f.primaryKey) := by
  simp only [toHash, texts, named_text]

/-- The values that a write enters an id under are the texts of the indexed fields. -/
theorem indexValues_ofRecord (l : Layout) (identity : IdentityKey) (r : Record)
    (version : Option Int) :
    (InstanceWrite.ofRecord l identity r version).indexValues = r.texts l.indexedFields := by
  simp only [InstanceWrite.ofRecord, texts, named_text]

variable {r : Record} {fields : List Field}

/-- Each text is that of a field. -/
theorem mem_texts {name raw : String} :
    (name, raw) ∈ r.texts fields ↔ ∃ f ∈ fields, f.name = name ∧ r.text? f = some raw := by
  simp only [texts, List.mem_filterMap, Option.map_eq_some_iff, Prod.mk.injEq]
  constructor
  · rintro ⟨f, hf, _, hraw, hname, rfl⟩
    exact ⟨f, hf, hname, hraw⟩
  · rintro ⟨f, hf, hname, hraw⟩
    exact ⟨f, hf, raw, hraw, hname, rfl⟩

/-- The names of texts are names of fields, in the same order. -/
theorem map_fst_texts_sublist (r : Record) (fields : List Field) :
    ((r.texts fields).map Prod.fst).Sublist (fields.map Field.name) := by
  induction fields with
  | nil => exact .slnil
  | cons f rest ih =>
    -- a field without a text is left out
    cases h : r.text? f with
    | none =>
      have htexts : r.texts (f :: rest) = r.texts rest := by simp [texts, h]
      rw [htexts]
      exact ih.cons _
    | some raw =>
      have htexts : r.texts (f :: rest) = (f.name, raw) :: r.texts rest := by simp [texts, h]
      rw [htexts]
      exact ih.cons_cons _

/-- Fields with different names have texts with different names. -/
theorem nodup_texts (r : Record) (h : (fields.map Field.name).Nodup) :
    ((r.texts fields).map Prod.fst).Nodup :=
  h.sublist (map_fst_texts_sublist r fields)

/-- The text of a field is found under its name. -/
theorem lookup_texts (r : Record) (h : (fields.map Field.name).Nodup) {f : Field}
    (hf : f ∈ fields) : (r.texts fields).lookup f.name = r.text? f := by
  refine Option.ext fun raw => ?_
  rw [lookup_eq_some_iff_mem (nodup_texts r h), mem_texts]
  constructor
  · rintro ⟨g, hg, hname, hraw⟩
    rwa [← List.inj_on_of_nodup_map h hg hf hname]
  · intro hraw
    exact ⟨f, hf, rfl, hraw⟩

/-- What is found under a name depends on the texts of the fields with that name. -/
theorem lookup_texts_congr {r' : Record} (h : (fields.map Field.name).Nodup) {name : String}
    (htexts : ∀ f ∈ fields, f.name = name → r'.text? f = r.text? f) :
    (r'.texts fields).lookup name = (r.texts fields).lookup name := by
  refine Option.ext fun raw => ?_
  rw [lookup_eq_some_iff_mem (nodup_texts r' h), lookup_eq_some_iff_mem (nodup_texts r h),
    mem_texts, mem_texts]
  refine exists_congr fun f => and_congr_right fun hf => and_congr_right fun hname => ?_
  rw [htexts f hf hname]

/-- A field that is set has the new value, and the others keep theirs. -/
theorem get?_set (r : Record) (name other : String) (value : Value) :
    (r.set name value).get? other = if other = name then some value else r.get? other := by
  obtain ⟨entries⟩ := r
  simp only [get?, set]
  induction entries with
  | nil =>
    by_cases h : other = name
    · simp [setEntry, h]
    · have hne : (other == name) = false := by simpa using h
      simp [setEntry, List.lookup_cons, h, hne]
  | cons e rest ih =>
    obtain ⟨n, v⟩ := e
    unfold setEntry
    split
    next hn =>
      by_cases h : other = name
      · simp [hn, h]
      · have hne : (other == name) = false := by simpa using h
        simp [List.lookup_cons, hn, h, hne]
    next hn =>
      rw [List.lookup_cons, List.lookup_cons, ih]
      by_cases h : other = n
      · simp [h, hn]
      · have hne : (other == n) = false := by simpa using h
        simp [hne]

/-- To set a field to the value that it has changes nothing. -/
theorem set_eq_self {name : String} {value : Value} (h : r.get? name = some value) :
    r.set name value = r := by
  obtain ⟨entries⟩ := r
  refine congrArg Record.mk ?_
  simp only [get?] at h
  induction entries with
  | nil => cases h
  | cons e rest ih =>
    obtain ⟨n, v⟩ := e
    unfold setEntry
    split
    next hn =>
      subst hn
      rw [List.lookup_cons_self] at h
      rw [Option.some.inj h]
    next hn =>
      have hne : (name == n) = false := by simpa using Ne.symm hn
      rw [List.lookup_cons, hne] at h
      rw [ih h]

/-- A text that is not of a field besides the identity is passed over. -/
theorem addPairs_cons_of_not_keeps {l : Layout} {name : String} (h : ¬l.Keeps name) (r : Record)
    (raw : String) (rest : List (String × String)) :
    addPairs l r ((name, raw) :: rest) = addPairs l r rest := by
  rw [addPairs]
  cases hf : l.field? name with
  | none => rfl
  | some f =>
    cases hkey : f.primaryKey with
    | true => simp only [hkey, if_true]
    | false => exact absurd ⟨f, hf, hkey⟩ h

/-- Stored texts that decode to the values wanted give these to their fields. Texts of the identity
and of names that the model lacks are passed over. -/
theorem addPairs_ok {l : Layout} {wanted : String → Option Value} {pairs : List (String × String)}
    (h : ∀ name raw f, (name, raw) ∈ pairs → l.field? name = some f → f.primaryKey = false →
      ∃ v, wanted name = some v ∧ f.kind.decode raw = .ok v) (r : Record) :
    ∃ r', addPairs l r pairs = .ok r' ∧ ∀ name,
      (l.Keeps name ∧ name ∈ pairs.map Prod.fst → r'.get? name = wanted name) ∧
      (¬(l.Keeps name ∧ name ∈ pairs.map Prod.fst) → r'.get? name = r.get? name) := by
  induction pairs generalizing r with
  | nil => exact ⟨r, rfl, fun name => ⟨fun hname => absurd hname.2 List.not_mem_nil, fun _ => rfl⟩⟩
  | cons e rest ih =>
    obtain ⟨n, raw⟩ := e
    have hrest := ih fun name raw f hmem => h name raw f (List.mem_cons_of_mem _ hmem)
    by_cases hn : l.Keeps n
    · obtain ⟨f, hf, hkey⟩ := hn
      obtain ⟨v, hwanted, hdecode⟩ := h n raw f List.mem_cons_self hf hkey
      obtain ⟨r', hr', hget⟩ := hrest (r.set n v)
      simp only [addPairs, hf, hkey, Bool.false_eq_true, if_false, hdecode]
      refine ⟨r', hr', fun name => ?_⟩
      obtain ⟨hadded, hkept⟩ := hget name
      rw [get?_set] at hkept
      have hkeeps : l.Keeps n := ⟨f, hf, hkey⟩
      -- a later text of the same field decodes to the same value
      by_cases hname : name = n
      · subst hname
        refine ⟨fun _ => ?_, fun hnot => absurd ⟨hkeeps, by simp⟩ hnot⟩
        by_cases hlater : l.Keeps name ∧ name ∈ rest.map Prod.fst
        · exact hadded hlater
        · rw [hkept hlater, if_pos rfl, hwanted]
      · simp only [List.map_cons, List.mem_cons, hname, false_or]
        rw [if_neg hname] at hkept
        exact ⟨hadded, hkept⟩
    · -- a text that is passed over is no reason to change a field
      have hskip : ∀ name, (l.Keeps name ∧ name ∈ ((n, raw) :: rest).map Prod.fst ↔
          l.Keeps name ∧ name ∈ rest.map Prod.fst) := by
        intro name
        rw [List.map_cons, List.mem_cons]
        refine and_congr_right fun hkeeps => or_iff_right ?_
        rintro rfl
        exact hn hkeeps
      simp only [addPairs_cons_of_not_keeps hn, hskip]
      exact hrest r

/-- Where stored texts are read, every one of them that is not passed over decodes. -/
theorem decodes_of_addPairs {l : Layout} {pairs : List (String × String)} {found : Record}
    (h : addPairs l r pairs = .ok found) :
    ∀ name raw f, (name, raw) ∈ pairs → l.field? name = some f → f.primaryKey = false →
      ∃ v, f.kind.decode raw = .ok v := by
  induction pairs generalizing r with
  | nil => exact fun name raw f hmem => nomatch hmem
  | cons e rest ih =>
    obtain ⟨n, text⟩ := e
    intro name raw f hmem hf hkey
    by_cases hn : l.Keeps n
    · obtain ⟨g, hg, hgkey⟩ := hn
      simp only [addPairs, hg, hgkey, Bool.false_eq_true, if_false] at h
      obtain ⟨v, hv, h⟩ := bind_ok_iff.mp h
      rcases List.mem_cons.mp hmem with heq | hmem
      · obtain ⟨rfl, rfl⟩ := Prod.mk.inj heq
        obtain rfl : g = f := Option.some.inj (hg.symm.trans hf)
        exact ⟨v, mapError_ok_iff.mp hv⟩
      · exact ih h name raw f hmem hf hkey
    · rw [addPairs_cons_of_not_keeps hn] at h
      rcases List.mem_cons.mp hmem with heq | hmem
      · exact absurd ⟨f, (Prod.mk.inj heq).1 ▸ hf, hkey⟩ hn
      · exact ih h name raw f hmem hf hkey

end Record

namespace Layout.WellFormed

variable {l : Layout} (hl : l.WellFormed)
include hl

/-- The identity is not kept among the texts of a record. -/
theorem not_keeps_identity : ¬l.Keeps l.identity.name := by
  rintro ⟨f, hfield, hkey⟩
  obtain ⟨hf, hname⟩ := hl.field?_eq_some_iff.mp hfield
  exact hl.name_ne hf hkey hname

/-- Only fields are kept. -/
theorem not_keeps_of_not_mem {name : String} (h : name ∉ l.fields.map Field.name) :
    ¬l.Keeps name := by
  rintro ⟨f, hfield, -⟩
  obtain ⟨hf, rfl⟩ := hl.field?_eq_some_iff.mp hfield
  exact h (List.mem_map_of_mem hf)

/-- A record has at most one text for each field. -/
theorem nodup_toHash (r : Record) : ((r.toHash l).map Prod.fst).Nodup := by
  rw [Record.toHash_eq]
  exact r.nodup_texts (hl.distinct.sublist (List.filter_sublist.map _))

/-- The identity is stored beside the texts of a record. -/
theorem identity_not_mem_toHash (r : Record) : l.identity.name ∉ (r.toHash l).map Prod.fst := by
  rw [Record.toHash_eq]
  intro hmem
  obtain ⟨f, hf, hname⟩ := List.mem_map.mp ((Record.map_fst_texts_sublist _ _).subset hmem)
  obtain ⟨hf, hkey⟩ := List.mem_filter.mp hf
  exact hl.name_ne hf (by simpa using hkey) hname

/-- What is found under a name besides the identity depends on the text of that field. -/
theorem lookup_toHash_congr {r r' : Record} {name : String}
    (h : ∀ f ∈ l.fields, f.name = name → r'.text? f = r.text? f) :
    (r'.toHash l).lookup name = (r.toHash l).lookup name := by
  rw [Record.toHash_eq, Record.toHash_eq]
  exact Record.lookup_texts_congr (hl.distinct.sublist (List.filter_sublist.map _))
    fun f hf => h f (List.mem_filter.mp hf).1

end Layout.WellFormed

end KeyedRecords
