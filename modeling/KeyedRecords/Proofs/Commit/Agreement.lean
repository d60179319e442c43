import KeyedRecords.Proofs.Commit.Instances
import Mathlib.Data.List.Nodup

/-!
# Agreement of indexes and records

The ids, the indexes and the owners of unique values agree with the stored records
(`IndexesAgree`). Deleting an instance and writing one preserve this: what an instance had is taken
out under exactly the values that its record held, and entered under those that it holds now.
-/

namespace KeyedRecords

namespace CommitScript

open Keyspace

variable {ks ks' : Keyspace} {b : Batch} {id : String}

/-- No field is indexed twice, and none has a colon in its name. -/
structure SoundIndices (specs : List IndexSpec) : Prop where
  /-- No field is indexed twice. -/
  distinct : (specs.map IndexSpec.field).Nodup
  /-- No field has a colon in its name. -/
  names : ∀ spec ∈ specs, ':' ∉ spec.field.toList

namespace SoundIndices

variable {specs : List IndexSpec} {spec : IndexSpec}

/-- The indexes of one field are the same one. -/
theorem eq_of_field (h : SoundIndices specs) {s t : IndexSpec} (hs : s ∈ specs) (ht : t ∈ specs)
    (hfield : s.field = t.field) : s = t :=
  List.inj_on_of_nodup_map h.distinct hs ht hfield

/-- An id is entered under a value of a field if that value is chosen. -/
theorem plainEntry_iff (h : SoundIndices specs) (hspec : spec ∈ specs)
    (hu : spec.unique = false) (b : Batch) (chosen : IndexSpec → Option String) (v : String) :
    PlainEntry b chosen specs (b.keys.index spec.field v) ↔ chosen spec = some v := by
  constructor
  · rintro ⟨t, ht, -, v', hv', hkey⟩
    obtain ⟨hfield, rfl⟩ := (ModelKeys.index_inj (h.names _ hspec) (h.names _ ht)).mp hkey
    rw [h.eq_of_field hspec ht hfield, hv']
  · intro hv
    exact ⟨spec, hspec, hu, v, hv, rfl⟩

/-- An id owns a value of a unique field if that value is chosen. -/
theorem uniqueEntry_iff (h : SoundIndices specs) (hspec : spec ∈ specs)
    (hu : spec.unique = true) (b : Batch) (chosen : IndexSpec → Option String) (v : String) :
    UniqueEntry b chosen specs (b.keys.unique spec.field) v ↔ chosen spec = some v := by
  constructor
  · rintro ⟨t, ht, -, hv, hkey⟩
    rw [h.eq_of_field hspec ht (ModelKeys.unique_inj.mp hkey), hv]
  · intro hv
    exact ⟨spec, hspec, hu, hv, rfl⟩

end SoundIndices

/-- The ids, the indexes and the owners of unique values agree with the stored records. -/
structure IndexesAgree (b : Batch) (ks : Keyspace) : Prop where
  /-- All keys hold nothing but values of their kinds. -/
  kinds : ∀ key kind, b.Expects key kind → ks.Fits key kind
  /-- The ids are those of records. -/
  ids : ∀ id, (ks.score? b.keys.ids id).isSome ↔ (ks.data? (b.keys.object id)).isSome
  /-- An id is entered under the value that its record holds. -/
  plain : ∀ spec ∈ b.indices, spec.unique = false → ∀ id v,
    (ks.score? (b.keys.index spec.field v) id).isSome ↔
      ks.field? (b.keys.object id) spec.field = some v
  /-- A unique value belongs to the id whose record holds it. -/
  unique : ∀ spec ∈ b.indices, spec.unique = true → ∀ id v,
    ks.field? (b.keys.unique spec.field) v = some id ↔
      ks.field? (b.keys.object id) spec.field = some v
  /-- An id has the same score in all collections. -/
  score : ∀ spec ∈ b.indices, spec.unique = false → ∀ id v x,
    ks.score? (b.keys.index spec.field v) id = some x → ks.score? b.keys.ids id = some x

/-- The counter has no part in the agreement. -/
theorem IndexesAgree.counted (h : IndexesAgree b ks) (hkinds : KeepsKinds b ks ks')
    (hdata : ∀ k, k ≠ b.keys.counter → ks'.data? k = ks.data? k) : IndexesAgree b ks' := by
  have hsame : ∀ {k s}, b.keys.InSection k s → s ≠ .counter → ks'.data? k = ks.data? k :=
    fun hk hs => hdata _ (hk.ne (.counter rfl) hs)
  have hids : ∀ i, ks'.score? b.keys.ids i = ks.score? b.keys.ids i :=
    fun i => by rw [score?, score?, hsame (.ids rfl) (by simp)]
  have hindex : ∀ f v i, ks'.score? (b.keys.index f v) i = ks.score? (b.keys.index f v) i :=
    fun f v i => by rw [score?, score?, hsame (.index f v rfl) (by simp)]
  have howner : ∀ f v, ks'.field? (b.keys.unique f) v = ks.field? (b.keys.unique f) v :=
    fun f v => by rw [field?, field?, hsame (.unique f rfl) (by simp)]
  have hobject : ∀ i, ks'.data? (b.keys.object i) = ks.data? (b.keys.object i) :=
    fun i => hsame (.object i rfl) (by simp)
  have hfield : ∀ i f, ks'.field? (b.keys.object i) f = ks.field? (b.keys.object i) f :=
    fun i f => by rw [field?, field?, hobject]
  constructor
  case kinds => exact fun key kind he => hkinds key kind he (h.kinds key kind he)
  case ids =>
    intro i
    rw [hids, hobject, h.ids]
  case plain =>
    intro spec hspec hu i v
    rw [hindex, hfield, h.plain spec hspec hu]
  case unique =>
    intro spec hspec hu i v
    rw [howner, hfield, h.unique spec hspec hu]
  case score =>
    intro spec hspec hu i v x hx
    rw [hindex] at hx
    rw [hids, h.score spec hspec hu i v x hx]

/-- The entries of an instance have moved from old values to new ones. If there are no new ones the
instance has been deleted, otherwise its score is `score`. -/
structure Moved (b : Batch) (id : String) (old new : IndexSpec → Option String)
    (score : Option Double) (ks ks' : Keyspace) : Prop where
  /-- All keys keep their kinds. -/
  kinds : KeepsKinds b ks ks'
  /-- All other records are as they were. -/
  objects : ∀ i, i ≠ id → ks'.data? (b.keys.object i) = ks.data? (b.keys.object i)
  /-- There is a record if there is a score. -/
  object : score.isSome ↔ (ks'.data? (b.keys.object id)).isSome
  /-- The record holds the new values. -/
  fields : ∀ spec ∈ b.indices, ks'.field? (b.keys.object id) spec.field = new spec
  /-- The id is in the collection of all ids if there is a score. -/
  ids : ∀ i, ks'.score? b.keys.ids i = if i = id then score else ks.score? b.keys.ids i
  /-- The id is in the collections of its new values only. -/
  plain : ∀ spec ∈ b.indices, spec.unique = false → ∀ v i,
    ks'.score? (b.keys.index spec.field v) i =
      if i = id ∧ new spec = some v then score
      else if i = id ∧ old spec = some v then none
      else ks.score? (b.keys.index spec.field v) i
  /-- The id owns its new unique values only. -/
  owner : ∀ spec ∈ b.indices, spec.unique = true → ∀ v,
    ks'.field? (b.keys.unique spec.field) v =
      if new spec = some v then some id
      else if old spec = some v then disowned id (ks.field? (b.keys.unique spec.field) v)
      else ks.field? (b.keys.unique spec.field) v

/-- A record that is not there has no fields. -/
theorem field?_eq_none (h : ks.data? (b.keys.object id) = none) (f : String) :
    ks.field? (b.keys.object id) f = none := by
  rw [field?, h]
  rfl

/-- A record that is there in one of its fields is there. -/
theorem isSome_of_field? {f v : String} (h : ks.field? (b.keys.object id) f = some v) :
    (ks.data? (b.keys.object id)).isSome := by
  rw [Option.isSome_iff_ne_none]
  intro hnone
  rw [field?_eq_none hnone] at h
  cases h

/-- Moving the entries of an instance preserves the agreement, if they were those of the stored
values, and if no other instance owns the new ones. -/
theorem IndexesAgree.moved {old new : IndexSpec → Option String} {score : Option Double}
    (h : IndexesAgree b ks) (hmoved : Moved b id old new score ks ks')
    (hold : ∀ spec ∈ b.indices, old spec = ks.field? (b.keys.object id) spec.field)
    (hfree : ∀ spec ∈ b.indices, spec.unique = true → ∀ v, new spec = some v →
      ∀ owner, ks.field? (b.keys.unique spec.field) v = some owner → owner = id) :
    IndexesAgree b ks' := by
  have hfield : ∀ i, i ≠ id → ∀ f, ks'.field? (b.keys.object i) f = ks.field? (b.keys.object i) f :=
    fun i hi f => by rw [field?, field?, hmoved.objects i hi]
  -- a new value stands in a record, so it comes with a score
  have hscore : ∀ spec ∈ b.indices, ∀ v, new spec = some v → score.isSome := by
    intro spec hspec v hv
    rw [← hmoved.fields spec hspec] at hv
    exact hmoved.object.mpr (isSome_of_field? hv)
  -- all other instances keep their entries, so each case looks at the instance itself first
  constructor
  case kinds => exact fun key kind he => hmoved.kinds key kind he (h.kinds key kind he)
  case ids =>
    intro i
    rw [hmoved.ids]
    by_cases hi : i = id
    · rw [if_pos hi, hi, hmoved.object]
    · rw [if_neg hi, hmoved.objects i hi, h.ids]
  case plain =>
    intro spec hspec hu i v
    have hplain := h.plain spec hspec hu i v
    rw [hmoved.plain spec hspec hu]
    by_cases hi : i = id
    · subst i
      rw [hmoved.fields spec hspec]
      rw [← hold spec hspec] at hplain
      grind
    · simp only [hi, false_and, if_false, hfield i hi, hplain]
  case unique =>
    intro spec hspec hu i v
    have hunique := h.unique spec hspec hu
    have hfree := hfree spec hspec hu v
    have hold := hold spec hspec
    rw [hmoved.owner spec hspec hu]
    by_cases hi : i = id
    · subst i
      rw [hmoved.fields spec hspec]
      grind [disowned]
    · -- a new value was free, so taking it disowns nobody else
      rw [hfield i hi]
      grind [disowned]
  case score =>
    intro spec hspec hu i v x hx
    have hplain := h.plain spec hspec hu i v
    rw [hmoved.plain spec hspec hu] at hx
    rw [hmoved.ids]
    by_cases hi : i = id
    · subst i
      rw [← hold spec hspec] at hplain
      grind
    · simp only [hi, false_and, if_false] at hx ⊢
      exact h.score spec hspec hu i v x hx

/-- A deleted id is in the collections of its stored values no more. -/
theorem Deleted.score?_index {record : Option (Table String)} (h : Deleted b id record ks ks')
    (hb : SoundIndices b.indices) {spec : IndexSpec} (hspec : spec ∈ b.indices)
    (hu : spec.unique = false) (v i : String) :
    ks'.score? (b.keys.index spec.field v) i =
      if i = id ∧ oldValues record spec = some v then none
      else ks.score? (b.keys.index spec.field v) i := by
  have hentry := hb.plainEntry_iff hspec hu b (oldValues record) v
  have hleft := h.left (b.keys.index spec.field v)
  have hsame := h.sameMember (b.keys.index spec.field v) i (.index _ _ rfl)
  grind

/-- A deleted id owns its stored values no more. -/
theorem Deleted.field?_unique {record : Option (Table String)} (h : Deleted b id record ks ks')
    (hb : SoundIndices b.indices) {spec : IndexSpec} (hspec : spec ∈ b.indices)
    (hu : spec.unique = true) (v : String) :
    ks'.field? (b.keys.unique spec.field) v =
      if oldValues record spec = some v then
        CommitScript.disowned id (ks.field? (b.keys.unique spec.field) v)
      else ks.field? (b.keys.unique spec.field) v := by
  have hentry := hb.uniqueEntry_iff hspec hu b (oldValues record) v
  have hdisowned := h.disowned (b.keys.unique spec.field) v
  have hsame := h.sameOwner (b.keys.unique spec.field) v (.unique _ rfl)
  grind

/-- Deleting an instance takes it out under its stored values, if no record lies where its
containers do. -/
theorem Deleted.moved {record : Option (Table String)} (h : Deleted b id record ks ks')
    (hb : SoundIndices b.indices)
    (hcontainers : ∀ i, (ks.data? (b.keys.object i)).isSome →
      ∀ name ∈ b.structures, i ≠ id ++ ":" ++ name) :
    Moved b id (oldValues record) (fun _ => none) none ks ks' where
  kinds := h.kinds
  objects i hi := by
    refine h.objects i hi ?_
    cases hdata : ks.data? (b.keys.object i) with
    | none => exact .inl rfl
    | some d => exact .inr (hcontainers i (by simp [hdata]))
  object := by simp [h.gone]
  fields spec _ := field?_eq_none h.gone spec.field
  ids := h.ids
  plain spec hspec hu v i := by simpa using h.score?_index hb hspec hu v i
  owner spec hspec hu v := by simpa using h.field?_unique hb hspec hu v

/-- A record that is written is there: it has its identity at least. -/
theorem Written.isSome_object {w : InstanceWrite} {c : Checked} (h : Written b w c id ks ks') :
    (ks'.data? (b.keys.object id)).isSome := by
  have hid : (ks'.field? (b.keys.object id) b.identity).isSome := by
    rw [h.fields, List.lookup_isSome_iff]
    exact ⟨(b.identity, id), by simp [storedFields], by simp⟩
  obtain ⟨v, hv⟩ := Option.isSome_iff_exists.mp hid
  exact isSome_of_field? hv

/-- An id that is written is in the collections of its new values, and in those of its stored ones
no more. -/
theorem Written.score?_index {w : InstanceWrite} {c : Checked} (h : Written b w c id ks ks')
    (hb : SoundIndices b.indices) {spec : IndexSpec} (hspec : spec ∈ b.indices)
    (hu : spec.unique = false) (v i : String) :
    ks'.score? (b.keys.index spec.field v) i =
      if i = id ∧ newValues w spec = some v then some (placed b (w.score.getD .zero))
      else if i = id ∧ oldValues c.record spec = some v then none
      else ks.score? (b.keys.index spec.field v) i := by
  have hnew := hb.plainEntry_iff hspec hu b (newValues w) v
  have hdropped := hb.plainEntry_iff hspec hu b (droppedValues w c.record) v
  -- an old value that stays a new one is entered, not left
  rw [droppedValues_eq_some_iff] at hdropped
  have hentered := h.entered (b.keys.index spec.field v)
  have hleft := h.left (b.keys.index spec.field v)
  have hsame := h.sameMember (b.keys.index spec.field v) i (.index _ _ rfl)
  grind

/-- An id that is written owns its new values, and its stored ones no more. -/
theorem Written.field?_unique {w : InstanceWrite} {c : Checked} (h : Written b w c id ks ks')
    (hb : SoundIndices b.indices) {spec : IndexSpec} (hspec : spec ∈ b.indices)
    (hu : spec.unique = true) (v : String) :
    ks'.field? (b.keys.unique spec.field) v =
      if newValues w spec = some v then some id
      else if oldValues c.record spec = some v then
        CommitScript.disowned id (ks.field? (b.keys.unique spec.field) v)
      else ks.field? (b.keys.unique spec.field) v := by
  have hnew := hb.uniqueEntry_iff hspec hu b (newValues w) v
  have hdropped := hb.uniqueEntry_iff hspec hu b (droppedValues w c.record) v
  rw [droppedValues_eq_some_iff] at hdropped
  have howned := h.owned (b.keys.unique spec.field) v
  have hdisowned := h.disowned (b.keys.unique spec.field) v
  have hsame := h.sameOwner (b.keys.unique spec.field) v (.unique _ rfl)
  grind

/-- Writing an instance takes it out under its stored values and enters it under its new ones. -/
theorem Written.moved {w : InstanceWrite} {c : Checked} (h : Written b w c id ks ks')
    (hb : SoundIndices b.indices)
    (hfields : ∀ spec ∈ b.indices,
      (storedFields b w c.version id).reverse.lookup spec.field = newValues w spec) :
    Moved b id (oldValues c.record) (newValues w) (some (placed b (w.score.getD .zero)))
      ks ks' where
  kinds := h.kinds
  objects := h.objects
  object := by simp [h.isSome_object]
  fields spec hspec := by rw [h.fields, hfields spec hspec]
  ids := h.ids
  plain spec hspec hu v i := h.score?_index hb hspec hu v i
  owner spec hspec hu v := h.field?_unique hb hspec hu v

end CommitScript

end KeyedRecords
