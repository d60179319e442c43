import KeyedRecords.Proofs.Model.Keys
import KeyedRecords.Proofs.Result
import KeyedRecords.Proofs.Store.Contents
import KeyedRecords.Store.CommitScript

/-!
# What the checks of a commit find out

Each section of the keys of a model is meant for values of one kind (`Batch.Expects`). The checks of
a delete (`DeleteChecked`) and of a write (`WriteChecked`) find out that every key which the
instance is going to touch holds nothing but a value of its kind.
-/

namespace KeyedRecords

/-- The kind of the values under the keys of a section. -/
def Batch.kindOf (b : Batch) : KeySection → DataKind
  | .ids | .index => CommitScript.memberKind b
  | .object | .unique => .hash
  | .counter | .temporary => .string

/-- A key of the model, and the kind of the values it is meant for. -/
def Batch.Expects (b : Batch) (key : String) (kind : DataKind) : Prop :=
  ∃ s, b.keys.InSection key s ∧ b.kindOf s = kind

/-- A key is meant for values of one kind only. -/
theorem Batch.Expects.eq {b : Batch} {key : String} {kind kind' : DataKind}
    (h : b.Expects key kind) (h' : b.Expects key kind') : kind = kind' := by
  obtain ⟨s, hs, rfl⟩ := h
  obtain ⟨t, ht, rfl⟩ := h'
  rw [hs.eq ht]

namespace CommitScript

variable {ks : Keyspace} {b : Batch} {w : InstanceWrite}

theorem expects_ids (b : Batch) : b.Expects b.keys.ids (memberKind b) :=
  ⟨.ids, .ids rfl, rfl⟩

theorem expects_object (b : Batch) (id : String) : b.Expects (b.keys.object id) .hash :=
  ⟨.object, .object id rfl, rfl⟩

theorem expects_unique (b : Batch) (field : String) : b.Expects (b.keys.unique field) .hash :=
  ⟨.unique, .unique field rfl, rfl⟩

theorem expects_index (b : Batch) (field value : String) :
    b.Expects (b.keys.index field value) (memberKind b) :=
  ⟨.index, .index field value rfl, rfl⟩

theorem expects_counter (b : Batch) : b.Expects b.keys.counter .string :=
  ⟨.counter, .counter rfl, rfl⟩

/-- The entry of an indexed value is kept in a collection, or in a hash if the field is unique. -/
theorem expects_entryKey (b : Batch) (spec : IndexSpec) (value : String) :
    b.Expects (entryKey b spec value).1 (entryKey b spec value).2 := by
  unfold entryKey
  split
  · exact expects_unique b _
  · exact expects_index b _ _

/-- A check of a kind finds out whether the key fits it. -/
theorem expectKind_ok_iff {key : String} {kind : DataKind} {u : Unit} :
    expectKind ks key kind = .ok u ↔ ks.Fits key kind := by
  unfold expectKind Keyspace.kind? Keyspace.Fits
  cases ks.data? key with
  | none => simp
  | some d =>
    by_cases h : d.kind = kind <;> simp [h]

/-- A check of all items finds out that each of them passes it. -/
theorem checkEach_ok_iff {α : Type} {f : α → Except BackendError Unit} {items : List α} {u : Unit} :
    checkEach f items = .ok u ↔ ∀ a ∈ items, f a = .ok () := by
  induction items with
  | nil => simp [checkEach]
  | cons a rest ih =>
    simp only [checkEach, bind_ok_iff, ih, List.forall_mem_cons]
    constructor
    · rintro ⟨⟨⟩, ha, hrest⟩
      exact ⟨ha, hrest⟩
    · rintro ⟨ha, hrest⟩
      exact ⟨(), ha, hrest⟩

/-- The fields of the record of an id, if there is one. -/
def HoldsRecord (ks : Keyspace) (key : String) (record : Option (Table String)) : Prop :=
  (record = none ↔ ks.data? key = none) ∧ ∀ f, oldValue? record f = ks.field? key f

/-- What is read as the stored record of an id is what its key holds. -/
theorem stored_ok {id : String} {record : Option (Table String)}
    (h : stored ks b id = .ok record) :
    ks.Fits (b.keys.object id) .hash ∧ HoldsRecord ks (b.keys.object id) record := by
  unfold stored at h
  simp only [bind_ok_iff, expectKind_ok_iff, mapError_ok_iff] at h
  obtain ⟨-, hfits, hread⟩ := h
  obtain ⟨t, ht, hnone, hfield⟩ := hfits.hash?
  -- the record is read twice, with the same outcome
  obtain rfl : record = t := by
    rw [hread] at ht
    exact Except.ok.inj ht
  refine ⟨hfits, hnone, fun f => ?_⟩
  rw [hfield]
  cases record <;> simp [oldValue?]

/-- What the checks of a delete have found out. -/
structure DeleteChecked (ks : Keyspace) (b : Batch) (id : String) (record : Option (Table String)) :
    Prop where
  /-- The collection of all ids has its kind. -/
  ids : ks.Fits b.keys.ids (memberKind b)
  /-- The key of the record has its kind. -/
  object : ks.Fits (b.keys.object id) .hash
  /-- The record is the one that is stored. -/
  stored : HoldsRecord ks (b.keys.object id) record
  /-- The entries of all stored values have their kinds. -/
  entries : ∀ spec ∈ b.indices, ∀ v, oldValue? record spec.field = some v →
    ks.Fits (entryKey b spec v).1 (entryKey b spec v).2

/-- A delete that is not refused has been checked. -/
theorem deleteChecked {id : String} {record : Option (Table String)}
    (h : checkDelete ks b id = .ok record) : DeleteChecked ks b id record := by
  unfold checkDelete at h
  simp only [bind_ok_iff, expectKind_ok_iff] at h
  obtain ⟨-, hids, found, hstored, h⟩ := h
  obtain ⟨hobject, hrecord⟩ := stored_ok hstored
  cases found with
  -- without a record there are no stored values to check
  | none =>
    obtain rfl : none = record := by simpa [pure_ok_iff] using h
    exact ⟨hids, hobject, hrecord, by simp [oldValue?]⟩
  | some fields =>
    simp only [bind_ok_iff, pure_ok_iff, checkEach_ok_iff] at h
    obtain ⟨-, hentries, rfl⟩ := h
    refine ⟨hids, hobject, hrecord, fun spec hspec v hv => ?_⟩
    have hcheck := hentries spec hspec
    rw [show fields[spec.field]? = some v from hv] at hcheck
    exact expectKind_ok_iff.mp hcheck

/-- What the checks of a write have found out. -/
structure WriteChecked (ks : Keyspace) (b : Batch) (w : InstanceWrite) (c : Checked) : Prop where
  /-- There is an id, or the store assigns one. -/
  id : w.id = none → b.autoId = true
  /-- The collection of all ids has its kind. -/
  ids : ks.Fits b.keys.ids (memberKind b)
  /-- A counter that is going to be asked has its kind. -/
  counter : w.id = none → ks.Fits b.keys.counter .string
  /-- The record of a named instance is the one that is stored. -/
  named : ∀ id, w.id = some id →
    ks.Fits (b.keys.object id) .hash ∧ HoldsRecord ks (b.keys.object id) c.record
  /-- An instance without an id has no record yet. -/
  unnamed : w.id = none → c.record = none
  /-- The entries of all new values have their kinds. -/
  newEntries : ∀ spec ∈ b.indices, ∀ v, w.indexValue? spec.field = some v →
    ks.Fits (entryKey b spec v).1 (entryKey b spec v).2
  /-- The entries of all stored values have their kinds. -/
  oldEntries : ∀ spec ∈ b.indices, ∀ v, oldValue? c.record spec.field = some v →
    ks.Fits (entryKey b spec v).1 (entryKey b spec v).2
  /-- New unique values belong to nobody else. -/
  unique : ∀ spec ∈ b.indices, spec.unique = true → ∀ v, w.indexValue? spec.field = some v →
    ∀ owner, ks.field? (b.keys.unique spec.field) v = some owner → w.id = some owner
  /-- The stored version is the expected one. -/
  version : checkVersion b w c.record = .ok c.version

/-- The keys that a write touches for one index have their kinds. -/
theorem checkIndex_ok {record : Option (Table String)} {spec : IndexSpec}
    (h : checkIndex ks b w record spec = .ok ()) :
    (∀ v, w.indexValue? spec.field = some v →
      ks.Fits (entryKey b spec v).1 (entryKey b spec v).2) ∧
    ∀ v, oldValue? record spec.field = some v →
      ks.Fits (entryKey b spec v).1 (entryKey b spec v).2 := by
  unfold checkIndex at h
  cases hnew : w.indexValue? spec.field with
  -- no new value, so only the entry of the stored one is checked
  | none =>
    refine ⟨fun v hv => (nomatch hv), fun v hv => ?_⟩
    rw [hnew, hv] at h
    exact expectKind_ok_iff.mp h
  | some value =>
    simp only [hnew, bind_ok_iff, expectKind_ok_iff] at h
    obtain ⟨-, hfits, h⟩ := h
    refine ⟨fun v hv => ?_, fun v hv => ?_⟩
    · obtain rfl := Option.some.inj hv
      exact hfits
    · rw [hv] at h
      exact expectKind_ok_iff.mp h

/-- A new unique value belongs to nobody, or to the instance itself. -/
theorem checkUnique_ok {spec : IndexSpec} (h : checkUnique ks b w spec = .ok ()) {v : String}
    (hv : w.indexValue? spec.field = some v)
    (hfits : ks.Fits (b.keys.unique spec.field) .hash) {owner : String}
    (howner : ks.field? (b.keys.unique spec.field) v = some owner) : w.id = some owner := by
  obtain ⟨t, ht, -, hfield⟩ := hfits.hash?
  rw [hfield] at howner
  unfold checkUnique at h
  simp only [hv, bind_ok_iff, mapError_ok_iff] at h
  obtain ⟨t', ht', h⟩ := h
  obtain rfl : t = t' := by
    rw [ht] at ht'
    exact Except.ok.inj ht'
  rw [howner] at h
  -- an owner other than the instance itself is refused
  by_cases hid : some owner = w.id
  · exact hid.symm
  · simp [hid, throw_ok_iff] at h

/-- What single checks find out, with or without an id. -/
theorem WriteChecked.of_checks {record : Option (Table String)} {version : Option Int}
    (hindex : ∀ spec ∈ b.indices, checkIndex ks b w record spec = .ok ())
    (hunique : ∀ spec ∈ b.indices.filter (·.unique), checkUnique ks b w spec = .ok ())
    (hversion : checkVersion b w record = .ok version) (hids : ks.Fits b.keys.ids (memberKind b))
    (hunnamed : w.id = none → b.autoId = true ∧ ks.Fits b.keys.counter .string ∧ record = none)
    (hnamed : ∀ id, w.id = some id →
      ks.Fits (b.keys.object id) .hash ∧ HoldsRecord ks (b.keys.object id) record) :
    WriteChecked ks b w ⟨record, version⟩ := by
  have hnew := fun spec hspec => (checkIndex_ok (hindex spec hspec)).1
  have hold := fun spec hspec => (checkIndex_ok (hindex spec hspec)).2
  refine ⟨fun hid => (hunnamed hid).1, hids, fun hid => (hunnamed hid).2.1, hnamed,
    fun hid => (hunnamed hid).2.2, hnew, hold, fun spec hspec hu v hv owner howner => ?_, hversion⟩
  -- the owners can be read since the entry of the new value has its kind
  have hfits := hnew spec hspec v hv
  simp only [entryKey, hu, if_true] at hfits
  exact checkUnique_ok (hunique spec (List.mem_filter.mpr ⟨hspec, hu⟩)) hv hfits howner

/-- A write that is not refused has been checked. -/
theorem writeChecked {c : Checked} (h : checkWrite ks b w = .ok c) : WriteChecked ks b w c := by
  unfold checkWrite at h
  cases hid : w.id with
  | none =>
    -- an instance without an id is refused unless the store assigns one
    cases hauto : b.autoId with
    | false => simp [hid, hauto, bind_ok_iff, throw_ok_iff] at h
    | true =>
      simp only [hid, hauto, Option.isNone_none, Bool.not_true, Bool.and_false, Bool.false_eq_true,
        if_false, bind_ok_iff, expectKind_ok_iff, checkEach_ok_iff, pure_ok_iff] at h
      obtain ⟨-, hids, -, hcounter, record, rfl, -, hindex, -, hunique, version, hversion, rfl⟩ := h
      exact .of_checks hindex hunique hversion hids (fun _ => ⟨hauto, hcounter, rfl⟩)
        (by simp [hid])
  | some id =>
    simp only [hid, Option.isNone_some, Bool.false_and, Bool.false_eq_true, if_false, bind_ok_iff,
      expectKind_ok_iff, checkEach_ok_iff, pure_ok_iff] at h
    obtain ⟨-, hids, record, hstored, -, hindex, -, hunique, version, hversion, rfl⟩ := h
    refine .of_checks hindex hunique hversion hids (by simp [hid]) ?_
    rintro _ hid'
    obtain rfl := Option.some.inj (hid.symm.trans hid')
    exact stored_ok hstored

end CommitScript

end KeyedRecords
