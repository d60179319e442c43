import KeyedRecords.Proofs.Commit.Agreement
import KeyedRecords.Proofs.Commit.Visits
import KeyedRecords.Proofs.Model.Record
import KeyedRecords.Proofs.Number.Integer
import KeyedRecords.Proofs.Store.Execution
import KeyedRecords.Sample.Models

/-!
# Consistency over whole runs

A store that has been through nothing but commits of one model is consistent: its ids, its indexes
and the owners of its unique values follow its records (`consistent_of_reachable`). The invariant
behind this also says where assigned ids come from, since a record that is written under a new id
must not replace another.
-/

namespace KeyedRecords

namespace CommitScript

open Keyspace

variable {l : Layout} {ks ks' : Keyspace}

/-- A batch of a model. -/
def batchOf (l : Layout) (writes : List InstanceWrite) (deletes : List DeleteSource) : Batch :=
  { Batch.ofLayout l with writes, deletes }

/-- An id that the counter of a model has assigned. -/
def HasAssigned (l : Layout) (ks : Keyspace) (id : String) : Prop :=
  ∃ n c : Int, ks.counter? l.keys.counter = some c ∧ 1 ≤ n ∧ n ≤ c ∧ id = Number.intText n

/-- A write that may reach a key space. -/
structure Admissible (l : Layout) (ks : Keyspace) (w : InstanceWrite) : Prop where
  /-- It is the write of a record. -/
  record : ∃ identity r version, w = InstanceWrite.ofRecord l identity r version
  /-- Its id has no colon, if there are structured containers. -/
  plain : l.structures = [] ∨ ∀ id, w.id = some id → ':' ∉ id.toList
  /-- If the model assigns ids, an id that it names has been assigned. -/
  assigned : l.autoId = true → ∀ id, w.id = some id → HasAssigned l ks id

/-- The key spaces that commits of a model lead to, with all of their writes admissible when they
are reached. -/
inductive Reachable (l : Layout) : Keyspace → Prop
  /-- A key space without keys. -/
  | start (now : Nat) : Reachable l ⟨∅, now⟩
  /-- One more commit. -/
  | commit {ks : Keyspace} {writes : List InstanceWrite} {deletes : List DeleteSource}
      (h : Reachable l ks)
      (hwrites : ∀ ids, ks.run (idsOf deletes) = (.ok ids, ks) →
        ∀ v ∈ visits (batchOf l writes deletes) ks (turnsOf ids.eraseDups writes),
          ∀ w, v.turn = .write w → Admissible l v.before w) :
      Reachable l (ks.execute (.eval (.commit (batchOf l writes deletes)))).2

/-- A property of key spaces that the deletions and writes of commits preserve. -/
structure Preserved (l : Layout) (P : Keyspace → Prop) : Prop where
  /-- It holds of a key space without keys. -/
  start : ∀ now, P ⟨∅, now⟩
  deleted : ∀ {ks ks' : Keyspace} {id : String} {record : Option (Table String)}, P ks →
    HoldsRecord ks (l.keys.object id) record → Deleted (Batch.ofLayout l) id record ks ks' → P ks'
  written : ∀ {ks ks₁ ks' : Keyspace} {w : InstanceWrite} {c : Checked} {id : String}, P ks →
    WriteChecked ks (Batch.ofLayout l) w c → Admissible l ks w →
    Assigned (Batch.ofLayout l) w ks id ks₁ → Written (Batch.ofLayout l) w c id ks₁ ks' → P ks'

namespace Preserved

variable {P : Keyspace → Prop} (hP : Preserved l P)
include hP

/-- Reaching an instance preserves the property. -/
theorem visit (h : P ks) {t : Turn} (hw : ∀ w, t = .write w → Admissible l ks w) :
    P (visit (Batch.ofLayout l) ks t).after := by
  unfold CommitScript.visit
  cases t with
  | delete id =>
    obtain ⟨e, -, hrun⟩ | ⟨record, ks', -, hchecked, hdeleted, -, hrun⟩ :=
      run_tryDelete ks (Batch.ofLayout l) id
    · rwa [Turn.attempt, run_map_error hrun]
    · rw [Turn.attempt, run_map_ok hrun]
      exact hP.deleted h hchecked.stored hdeleted
  | write w =>
    obtain ⟨e, hrun⟩ | ⟨c, id, ks₁, ks', hc, hid, hwritten, hrun⟩ :=
      run_tryWrite ks (Batch.ofLayout l) w
    · rwa [Turn.attempt, run_map_error hrun]
    · rw [Turn.attempt, run_map_ok hrun]
      exact hP.written h hc (hw w rfl) hid hwritten

/-- Reaching instances one after another preserves the property. -/
theorem behind (h : P ks) {ts : List Turn}
    (hw : ∀ v ∈ visits (Batch.ofLayout l) ks ts, ∀ w, v.turn = .write w →
      Admissible l v.before w) :
    P (behind ks (visits (Batch.ofLayout l) ks ts)) := by
  induction ts generalizing ks with
  | nil => exact h
  | cons t rest ih =>
    have hfirst := hP.visit h (hw _ (List.mem_cons_self ..))
    exact ih hfirst fun v hv => hw v (List.mem_cons_of_mem _ hv)

/-- A commit preserves the property. -/
theorem commit (h : P ks) {writes : List InstanceWrite} {deletes : List DeleteSource}
    (hwrites : ∀ ids, ks.run (idsOf deletes) = (.ok ids, ks) →
      ∀ v ∈ visits (batchOf l writes deletes) ks (turnsOf ids.eraseDups writes),
        ∀ w, v.turn = .write w → Admissible l v.before w) :
    P (ks.execute (.eval (.commit (batchOf l writes deletes)))).2 := by
  rw [execute_commit_snd]
  obtain ⟨e, hids⟩ | ⟨ids, hids⟩ := run_idsOf ks deletes
  · rwa [run_eq_of_error (b := batchOf l writes deletes) hids]
  · have hwith := visits_with (Batch.ofLayout l) writes deletes ks (turnsOf ids.eraseDups writes)
    rw [run_eq (b := batchOf l writes deletes) hids]
    have hwrites := hwrites ids hids
    rw [batchOf, hwith] at hwrites ⊢
    exact hP.behind h hwrites

/-- Whatever commits of a model lead to has the property. -/
theorem of_reachable (h : Reachable l ks) : P ks := by
  induction h with
  | start now => exact hP.start now
  | commit h hwrites ih => exact hP.commit ih hwrites

end Preserved

/-- The indexes of a model follow its records. -/
structure Consistent (l : Layout) (ks : Keyspace) : Prop where
  /-- The ids are those of records. -/
  ids : ∀ id, (ks.score? l.keys.ids id).isSome ↔ (ks.data? (l.keys.object id)).isSome
  /-- An id is entered under the value that its record holds. -/
  plain : ∀ f ∈ l.indexedFields, f.unique = false → ∀ id v,
    (ks.score? (l.keys.index f.name v) id).isSome ↔
      ks.field? (l.keys.object id) f.name = some v
  /-- A unique value belongs to the id whose record holds it. -/
  unique : ∀ f ∈ l.indexedFields, f.unique = true → ∀ id v,
    ks.field? (l.keys.unique f.name) v = some id ↔ ks.field? (l.keys.object id) f.name = some v
  /-- No two records share a unique value. -/
  sole : ∀ f ∈ l.indexedFields, f.unique = true → ∀ id id' v,
    ks.field? (l.keys.object id) f.name = some v → ks.field? (l.keys.object id') f.name = some v →
    id = id'
  /-- On an ordered model an id has the same score in all collections. -/
  score : l.isOrdered = true → ∀ f ∈ l.indexedFields, f.unique = false → ∀ id v x,
    ks.score? (l.keys.index f.name v) id = some x → ks.score? l.keys.ids id = some x
  /-- Records are hashes. -/
  records : ∀ id, ks.Fits (l.keys.object id) .hash

/-- What commits of a model preserve. -/
structure Invariant (l : Layout) (ks : Keyspace) : Prop where
  /-- The indexes agree with the records. -/
  agree : IndexesAgree (Batch.ofLayout l) ks
  /-- The counter never stands below zero. -/
  counter : ∀ c, ks.counter? l.keys.counter = some c → 0 ≤ c
  /-- If the model assigns ids, records have ids that have been assigned. -/
  assigned : l.autoId = true → ∀ id, (ks.data? (l.keys.object id)).isSome → HasAssigned l ks id
  /-- Records have ids without colons, if there are structured containers. -/
  plain : l.structures = [] ∨ ∀ id, (ks.data? (l.keys.object id)).isSome → ':' ∉ id.toList

/-- The stored text of a field besides the identity and the version. Where no version is stored, the
field for it is like the others. -/
theorem lookup_storedFields {b : Batch} {w : InstanceWrite} (hw : (w.fields.map Prod.fst).Nodup)
    {f : String} (hidentity : f ≠ b.identity) {version : Option Int}
    (hversion : version = none ∨ b.versionField ≠ some f) (id : String) :
    (storedFields b w version id).reverse.lookup f = w.fields.lookup f := by
  have hid : [(b.identity, id)].lookup f = none := by simp [hidentity]
  unfold storedFields
  rw [List.reverse_cons, List.lookup_append, hid, Option.or_none]
  split
  next _ _ field next hfield =>
    have hne : f ≠ field := by
      rintro rfl
      exact hversion.elim (by simp) (· hfield)
    have hnodup : ((w.fields.filter fun e => e.1 != field).map Prod.fst).Nodup :=
      hw.sublist (List.filter_sublist.map _)
    -- the field of the version is replaced, and no other one
    have hhead : (f == field) = false := by simpa using hne
    rw [List.reverse_append, List.reverse_singleton, List.singleton_append, List.lookup_cons, hhead]
    exact (lookup_reverse hnodup f).trans (lookup_filter_ne _ hne)
  next => exact lookup_reverse hw f

/-- The stored text of the version. -/
theorem lookup_storedFields_version {b : Batch} {field : String}
    (hfield : b.versionField = some field) (w : InstanceWrite) (n : Int) (id : String) :
    (storedFields b w (some n) id).reverse.lookup field = some (Number.intText n) := by
  simp [storedFields, hfield]

/-- The fields of a model that are indexed are fields of it, with different names. -/
theorem soundIndices (hl : l.WellFormed) : SoundIndices (Batch.ofLayout l).indices := by
  have hnames : ((Batch.ofLayout l).indices.map IndexSpec.field) =
      l.indexedFields.map Field.name := by
    simp [Batch.ofLayout, Function.comp_def]
  refine ⟨?_, fun spec hspec => ?_⟩
  · rw [hnames]
    exact hl.distinct.sublist (List.filter_sublist.map _)
  · obtain ⟨f, hf, rfl⟩ := List.mem_map.mp hspec
    exact hl.names f (List.mem_filter.mp hf).1

/-- A write of a record stores the texts of its fields besides the identity and the version. -/
theorem lookup_storedFields_text (hl : l.WellFormed) {f : Field} (hf : f ∈ l.fields)
    (hkey : f.primaryKey = false) (hversion : l.versionField ≠ some f.name)
    (identity : IdentityKey) (r : Record) (expected : Option Int) (version : Option Int)
    (id : String) :
    (storedFields (Batch.ofLayout l) (.ofRecord l identity r expected) version id).reverse.lookup
      f.name = r.text? f := by
  have hplain : f ∈ l.fields.filter fun f => !f.primaryKey :=
    List.mem_filter.mpr ⟨hf, by simp [hkey]⟩
  have hstored : (InstanceWrite.ofRecord l identity r expected).fields =
      r.texts (l.fields.filter fun f => !f.primaryKey) := r.toHash_eq l
  have hnodup : ((l.fields.filter fun f => !f.primaryKey).map Field.name).Nodup :=
    hl.distinct.sublist (List.filter_sublist.map _)
  -- the identity is stored too, under a name that no other field has
  rw [lookup_storedFields (by rw [hstored]; exact r.nodup_texts hnodup) (hl.name_ne hf hkey)
    (.inr hversion), hstored, r.lookup_texts hnodup hplain]

/-- A write of a record stores the values that it enters the id under. -/
theorem lookup_storedFields_ofRecord (hl : l.WellFormed)
    (hversion : ∀ f ∈ l.indexedFields, l.versionField ≠ some f.name) (identity : IdentityKey)
    (r : Record) (expected : Option Int) (version : Option Int) (id : String) :
    ∀ spec ∈ (Batch.ofLayout l).indices,
      (storedFields (Batch.ofLayout l) (.ofRecord l identity r expected) version id).reverse.lookup
        spec.field = newValues (.ofRecord l identity r expected) spec := by
  intro spec hspec
  obtain ⟨f, hf, rfl⟩ := List.mem_map.mp hspec
  have hfield := List.mem_filter.mp hf
  have hkey : f.primaryKey = false := by
    have := hfield.2
    simp_all
  have hindexed : (l.indexedFields.map Field.name).Nodup :=
    hl.distinct.sublist (List.filter_sublist.map _)
  rw [lookup_storedFields_text hl hfield.1 hkey (hversion f hf)]
  unfold newValues InstanceWrite.indexValue?
  rw [r.indexValues_ofRecord, r.lookup_texts hindexed hf]

theorem counter?_congr {k : String} (h : ks'.data? k = ks.data? k) :
    ks'.counter? k = ks.counter? k := by
  rw [counter?, counter?, h]

/-- A counter that has been set stands where it was set to. -/
theorem counter?_update {n : Int} (h : Number.fitsInt64 n = true) (key : String) :
    (ks.update key (.string (Number.intText n))).counter? key = some n := by
  rw [counter?, data?_update, if_pos rfl, if_neg (by simp [Data.isEmpty])]
  exact Number.readInt64?_intText h

/-- An assigned id stays assigned while the counter goes up. -/
theorem HasAssigned.mono {id : String} (h : HasAssigned l ks id)
    (hcounter : ∀ c, ks.counter? l.keys.counter = some c →
      ∃ c', ks'.counter? l.keys.counter = some c' ∧ c ≤ c') : HasAssigned l ks' id := by
  obtain ⟨n, c, hc, hone, hle, rfl⟩ := h
  obtain ⟨c', hc', hcc'⟩ := hcounter c hc
  exact ⟨n, c', hc', hone, Int.le_trans hle hcc', rfl⟩

namespace Invariant

/-- A key space without keys is consistent. -/
theorem start (l : Layout) (now : Nat) : Invariant l ⟨∅, now⟩ := by
  have hdata : ∀ k, (⟨∅, now⟩ : Keyspace).data? k = none := fun k => by simp [data?]
  have hscore : ∀ k m, (⟨∅, now⟩ : Keyspace).score? k m = none := fun k m => by simp [score?, hdata]
  have hfield : ∀ k f, (⟨∅, now⟩ : Keyspace).field? k f = none := fun k f => by simp [field?, hdata]
  refine ⟨⟨fun key kind _ => .of_none (hdata key), ?_, ?_, ?_, ?_⟩, ?_, ?_, .inr ?_⟩
  · simp [hscore, hdata]
  · simp [hscore, hfield]
  · simp [hfield]
  · simp [hscore]
  · intro c hc
    rw [counter?, hdata] at hc
    exact Int.le_of_eq (Option.some.inj hc)
  · simp [hdata]
  · simp [hdata]

/-- An id with a container's name behind it has a colon, so no record has it. -/
theorem containers (h : Invariant l ks) (id : String) : ∀ i,
    (ks.data? (l.keys.object i)).isSome → ∀ name ∈ l.structures, i ≠ id ++ ":" ++ name := by
  intro i hi name hname
  rcases h.plain with hnone | hplain
  · rw [hnone] at hname
    cases hname
  · rintro rfl
    exact hplain _ hi (by simp)

/-- Deleting an instance preserves the invariant. -/
theorem deleted (h : Invariant l ks) (hl : l.WellFormed) {id : String}
    {record : Option (Table String)} (hstored : HoldsRecord ks (l.keys.object id) record)
    (hdeleted : Deleted (Batch.ofLayout l) id record ks ks') : Invariant l ks' := by
  have hmoved := hdeleted.moved (soundIndices hl) (h.containers id)
  have hcounter : ks'.counter? l.keys.counter = ks.counter? l.keys.counter :=
    counter?_congr hdeleted.counter
  -- no record comes about by a deletion
  have hstill : ∀ i,
      (ks'.data? (l.keys.object i)).isSome → (ks.data? (l.keys.object i)).isSome := by
    intro i hi
    by_cases heq : i = id
    · rw [heq, show ks'.data? (l.keys.object id) = none from hdeleted.gone] at hi
      cases hi
    · rwa [show ks'.data? (l.keys.object i) = _ from hmoved.objects i heq] at hi
  refine ⟨h.agree.moved hmoved (fun spec _ => hstored.2 spec.field) (by simp), fun c hc => ?_,
    fun hauto i hi => (h.assigned hauto i (hstill i hi)).mono fun c hc => ?_,
    h.plain.imp_right fun hplain i hi => hplain i (hstill i hi)⟩
  · rw [hcounter] at hc
    exact h.counter c hc
  · exact ⟨c, by rw [hcounter, hc], Int.le_refl c⟩

/-- When the counter of a model takes the next number, there is no record under that number. -/
theorem counted (h : Invariant l ks) (hauto : l.autoId = true) {n : Int}
    (hcounter : ks.counter? l.keys.counter = some n)
    (hchanged : ChangedAt l.keys.counter .string ks ks')
    (hcounter' : ks'.counter? l.keys.counter = some (n + 1)) :
    Invariant l ks' ∧ ks'.data? (l.keys.object (Number.intText (n + 1))) = none ∧
      HasAssigned l ks' (Number.intText (n + 1)) := by
  have hn : 0 ≤ n := h.counter n hcounter
  have hobject : ∀ i, ks'.data? (l.keys.object i) = ks.data? (l.keys.object i) := fun i =>
    hchanged.data? (ModelKeys.InSection.ne (.object i rfl) (.counter rfl) (by simp))
  -- the counter only goes up, so what has been assigned stays so
  have hup : ∀ c, ks.counter? l.keys.counter = some c →
      ∃ c', ks'.counter? l.keys.counter = some c' ∧ c ≤ c' := by
    intro c hc
    obtain rfl : n = c := Option.some.inj (hcounter.symm.trans hc)
    exact ⟨n + 1, hcounter', by omega⟩
  refine ⟨⟨h.agree.counted (.of_changedAt (expects_counter _) hchanged) fun k hk =>
      hchanged.data? hk, fun c hc => ?_, fun hauto i hi => ?_, ?_⟩, ?_, ?_⟩
  · obtain rfl : n + 1 = c := Option.some.inj (hcounter'.symm.trans hc)
    omega
  · exact (h.assigned hauto i (by rwa [hobject] at hi)).mono hup
  · exact h.plain.imp_right fun hplain i hi => hplain i (by rwa [hobject] at hi)
  · rw [hobject, ← Option.not_isSome_iff_eq_none]
    intro hthere
    -- a record under the next number would have a number that the counter has reached
    obtain ⟨m, c, hm, -, hle, heq⟩ := h.assigned hauto _ hthere
    obtain rfl : n = c := Option.some.inj (hcounter.symm.trans hm)
    have hnext : n + 1 = m := Number.intText_inj.mp heq
    omega
  · exact ⟨n + 1, n + 1, hcounter', by omega, Int.le_refl _, rfl⟩

/-- When an id is assigned to a write, the record that the write has found is what lies under it,
and the new unique values belong to no other id. -/
theorem assign (h : Invariant l ks) {w : InstanceWrite} {c : Checked} {id : String}
    (hc : WriteChecked ks (Batch.ofLayout l) w c) (hw : Admissible l ks w)
    (hid : Assigned (Batch.ofLayout l) w ks id ks') :
    Invariant l ks' ∧ HoldsRecord ks' (l.keys.object id) c.record ∧
      (l.autoId = true → HasAssigned l ks' id) ∧ (l.structures = [] ∨ ':' ∉ id.toList) ∧
      ∀ spec ∈ (Batch.ofLayout l).indices, spec.unique = true → ∀ v,
        w.indexValue? spec.field = some v → ∀ owner,
        ks'.field? (l.keys.unique spec.field) v = some owner → owner = id := by
  cases hid with
  | named hid =>
    refine ⟨h, (hc.named _ hid).2, fun hauto => hw.assigned hauto _ hid,
      hw.plain.imp_right fun hplain => hplain _ hid, fun spec hspec hu v hv owner howner => ?_⟩
    have howner := hc.unique spec hspec hu v hv owner howner
    rw [hid] at howner
    exact (Option.some.inj howner).symm
  | @counted n hid hcounter hfits =>
    have hchanged : ChangedAt l.keys.counter .string ks
        (ks.update l.keys.counter (.string (Number.intText (n + 1)))) := .update ks rfl
    obtain ⟨h', hfresh, hassigned⟩ :=
      h.counted (hc.id hid) hcounter hchanged (counter?_update hfits _)
    refine ⟨h', ⟨iff_of_true (hc.unnamed hid) hfresh, fun f => ?_⟩, fun _ => hassigned,
      .inr (Number.colon_not_mem_intText _), fun spec hspec hu v hv owner howner => ?_⟩
    · rw [hc.unnamed hid]
      exact (field?_eq_none (b := Batch.ofLayout l) hfresh f).symm
    · have hne : l.keys.unique spec.field ≠ l.keys.counter :=
        ModelKeys.InSection.ne (.unique _ rfl) (.counter rfl) (by simp)
      -- an instance without an id may own no value yet
      have howner := hc.unique spec hspec hu v hv owner ((hchanged.field? hne v).symm.trans howner)
      rw [hid] at howner
      cases howner

/-- Writing an instance preserves the invariant. -/
theorem written (h : Invariant l ks) (hl : l.WellFormed)
    (hversion : ∀ f ∈ l.indexedFields, l.versionField ≠ some f.name) {w : InstanceWrite}
    {c : Checked} {id : String} {ks₁ : Keyspace} (hc : WriteChecked ks (Batch.ofLayout l) w c)
    (hw : Admissible l ks w) (hid : Assigned (Batch.ofLayout l) w ks id ks₁)
    (hwritten : Written (Batch.ofLayout l) w c id ks₁ ks') : Invariant l ks' := by
  obtain ⟨h₁, hstored, hassigned, hplain, hfree⟩ := h.assign hc hw hid
  obtain ⟨identity, r, expected, rfl⟩ := hw.record
  have hmoved := hwritten.moved (soundIndices hl)
    (lookup_storedFields_ofRecord hl hversion identity r expected c.version id)
  have hcounter : ks'.counter? l.keys.counter = ks₁.counter? l.keys.counter :=
    counter?_congr hwritten.counter
  have hsame : ∀ c, ks₁.counter? l.keys.counter = some c →
      ∃ c', ks'.counter? l.keys.counter = some c' ∧ c ≤ c' :=
    fun c hc => ⟨c, by rw [hcounter, hc], Int.le_refl c⟩
  have hobject : ∀ i, i ≠ id → ks'.data? (l.keys.object i) = ks₁.data? (l.keys.object i) :=
    hmoved.objects
  refine ⟨h₁.agree.moved hmoved (fun spec _ => hstored.2 spec.field) hfree, fun c hc => ?_,
    fun hauto i hi => ?_, ?_⟩
  · rw [hcounter] at hc
    exact h₁.counter c hc
  · by_cases heq : i = id
    · rw [heq]
      exact (hassigned hauto).mono hsame
    · exact (h₁.assigned hauto i (by rwa [hobject i heq] at hi)).mono hsame
  · rcases h₁.plain with hnone | hall
    · exact .inl hnone
    · refine hplain.imp_right fun hplain i hi => ?_
      by_cases heq : i = id
      · rwa [heq]
      · exact hall i (by rwa [hobject i heq] at hi)

/-- The deletions and writes of commits preserve the invariant. -/
theorem preserved (hl : l.WellFormed)
    (hversion : ∀ f ∈ l.indexedFields, l.versionField ≠ some f.name) :
    Preserved l (Invariant l) where
  start := .start l
  deleted h hstored hdeleted := h.deleted hl hstored hdeleted
  written h hc hw hid hwritten := h.written hl hversion hc hw hid hwritten

/-- Whatever commits of a model lead to has the invariant. -/
theorem of_reachable (hl : l.WellFormed)
    (hversion : ∀ f ∈ l.indexedFields, l.versionField ≠ some f.name) (h : Reachable l ks) :
    Invariant l ks :=
  (preserved hl hversion).of_reachable h

/-- The invariant makes a key space consistent. -/
theorem consistent (h : Invariant l ks) : Consistent l ks := by
  have hspec : ∀ f ∈ l.indexedFields, ⟨f.name, f.unique⟩ ∈ (Batch.ofLayout l).indices :=
    fun f hf => List.mem_map.mpr ⟨f, hf, rfl⟩
  have hunique : ∀ f ∈ l.indexedFields, f.unique = true → ∀ id v,
      ks.field? (l.keys.unique f.name) v = some id ↔
        ks.field? (l.keys.object id) f.name = some v :=
    fun f hf hu id v => h.agree.unique ⟨f.name, f.unique⟩ (hspec f hf) hu id v
  refine ⟨h.agree.ids, fun f hf hu id v => ?_, hunique, fun f hf hu id id' v hv hv' => ?_,
    fun _ f hf hu id v x hx => ?_, fun id => h.agree.kinds _ _ (expects_object _ id)⟩
  · exact h.agree.plain ⟨f.name, f.unique⟩ (hspec f hf) hu id v
  · have howner := (hunique f hf hu id v).mpr hv
    rw [(hunique f hf hu id' v).mpr hv'] at howner
    exact (Option.some.inj howner).symm
  · exact h.agree.score ⟨f.name, f.unique⟩ (hspec f hf) hu id v x hx

end Invariant

/-- Whatever commits of a model lead to is consistent. -/
theorem consistent_of_reachable {space : String} {s : Schema} (hl : s.layout space = .ok l)
    (hversion : ∀ f ∈ l.indexedFields, l.versionField ≠ some f.name) (h : Reachable l ks) :
    Consistent l ks :=
  (Invariant.of_reachable (Schema.layout_wellFormed hl) hversion h).consistent

/-- A planet is written, entered in its group and made the owner of its code, and another is deleted
that is not there. -/
theorem consistent_of_reachable_planet :
    ∃ l, Sample.planet.schema.layout "kvm." = .ok l ∧
      (∀ f ∈ l.indexedFields, l.versionField ≠ some f.name) ∧
      ∃ ks, (ks.field? (l.keys.object "1") "name" = some "Mars" ∧
        (ks.score? (l.keys.index "group" "inner") "1").isSome ∧
        ks.field? (l.keys.unique "code") "M" = some "1") ∧ Reachable l ks ∧ Consistent l ks := by
  let l : Layout :=
    { tag := Sample.planet.tag, keys := .ofModel "kvm." "planet"
      identity := (Sample.assignedId .int64).field, fields := Sample.planet.schema.fields
      defaultOrdering := some ⟨"score", false⟩, versionField := none }
  let mars : Record := ⟨[("name", .text "Mars"), ("group", .text "inner"), ("code", .text "M")]⟩
  have hl : Sample.planet.schema.layout "kvm." = .ok l := by rfl
  have hversion : ∀ f ∈ l.indexedFields, l.versionField ≠ some f.name := by simp [l]
  let write := InstanceWrite.ofRecord l "new:000000000001" mars none
  have hreachable : Reachable l
      (execute ⟨∅, 0⟩ (.eval (.commit (batchOf l [write] [.ids ["7"]])))).2 := by
    refine .commit (.start 0) fun ids _ v hv w hw => ?_
    obtain rfl := List.mem_singleton.mp (mem_writes_of_visits hv hw)
    -- the record has no id, so the store assigns it
    have hid : write.id = none := rfl
    exact ⟨⟨_, _, _, rfl⟩, .inr (by simp [hid]), by simp [hid]⟩
  exact ⟨l, hl, hversion, _, by decide +kernel, hreachable,
    consistent_of_reachable hl hversion hreachable⟩

end CommitScript

end KeyedRecords
