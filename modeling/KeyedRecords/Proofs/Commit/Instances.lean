import KeyedRecords.Proofs.Commit.Entries

/-!
# Deleting and writing an instance

What has become of a key space when an instance has been deleted (`Deleted`) or written (`Written`).
An instance that has passed its checks is deleted without fail (`run_deleteOne`); one that is
written can fail no more once it has its id (`run_writeAs`).
-/

namespace KeyedRecords

namespace CommitScript

open Keyspace

variable {ks ks' : Keyspace} {b : Batch} {id : String}

/-- The stored values of the indexed fields. -/
def oldValues (record : Option (Table String)) (spec : IndexSpec) : Option String :=
  oldValue? record spec.field

/-- The new values of the indexed fields. -/
def newValues (w : InstanceWrite) (spec : IndexSpec) : Option String := w.indexValue? spec.field

/-- The stored values that are not kept. -/
def droppedValues (w : InstanceWrite) (record : Option (Table String)) (spec : IndexSpec) :
    Option String :=
  (oldValues record spec).filter fun v => newValues w spec ≠ some v

/-- The values that are dropped are the stored ones that are not kept. -/
theorem droppedValues_eq_some_iff {w : InstanceWrite} {record : Option (Table String)}
    {spec : IndexSpec} {v : String} :
    droppedValues w record spec = some v ↔
      oldValues record spec = some v ∧ newValues w spec ≠ some v := by
  simp [droppedValues, Option.filter_eq_some_iff]

/-- Old values are taken out of the indexes like any that are chosen. -/
theorem unlinkOld_eq (b : Batch) (w : InstanceWrite) (record : Option (Table String))
    (id : String) :
    unlinkOld b w record id = each (unlinkChosen b (droppedValues w record) id) b.indices := by
  unfold unlinkOld
  congr 1
  funext spec
  unfold unlinkChosen droppedValues oldValues newValues
  cases oldValue? record spec.field with
  | none => rfl
  | some old =>
    by_cases h : w.indexValue? spec.field = some old
    -- a value that is kept is not dropped
    · simp [h, Option.filter]
    · simp [h, Option.filter]

/-- New values are entered like any that are chosen. -/
theorem linkNew_eq (b : Batch) (w : InstanceWrite) (score : Double) (id : String) :
    linkNew b w score id = each (linkChosen b (newValues w) score id) b.indices := rfl

/-- Keys of entries are none of the collection of all ids. -/
theorem ids_not_entry (b : Batch) :
    ¬b.keys.InSection b.keys.ids .index ∧ ¬b.keys.InSection b.keys.ids .unique :=
  ⟨ModelKeys.InSection.not_of_ne (.ids rfl) (by simp),
    ModelKeys.InSection.not_of_ne (.ids rfl) (by simp)⟩

theorem object_not_entry (b : Batch) (id : String) :
    ¬b.keys.InSection (b.keys.object id) .index ∧ ¬b.keys.InSection (b.keys.object id) .unique :=
  ⟨ModelKeys.InSection.not_of_ne (.object id rfl) (by simp),
    ModelKeys.InSection.not_of_ne (.object id rfl) (by simp)⟩

theorem counter_not_entry (b : Batch) :
    ¬b.keys.InSection b.keys.counter .index ∧ ¬b.keys.InSection b.keys.counter .unique :=
  ⟨ModelKeys.InSection.not_of_ne (.counter rfl) (by simp),
    ModelKeys.InSection.not_of_ne (.counter rfl) (by simp)⟩

/-- An instance has been deleted. -/
structure Deleted (b : Batch) (id : String) (record : Option (Table String))
    (ks ks' : Keyspace) : Prop where
  /-- All keys keep their kinds. -/
  kinds : KeepsKinds b ks ks'
  /-- The id has left the collection of all ids. -/
  ids : ∀ m, ks'.score? b.keys.ids m = if m = id then none else ks.score? b.keys.ids m
  /-- There is no record of the id. -/
  gone : ks'.data? (b.keys.object id) = none
  /-- All other records are as they were, unless they lie where the containers did. -/
  objects : ∀ i, i ≠ id →
    ks.data? (b.keys.object i) = none ∨ (∀ name ∈ b.structures, i ≠ id ++ ":" ++ name) →
    ks'.data? (b.keys.object i) = ks.data? (b.keys.object i)
  /-- The counter stands where it stood. -/
  counter : ks'.data? b.keys.counter = ks.data? b.keys.counter
  /-- The id has left the collections of its values. -/
  left : ∀ k, PlainEntry b (oldValues record) b.indices k → ks'.score? k id = none
  /-- All other members are as they were. -/
  sameMember : ∀ k m, b.keys.InSection k .index →
    ¬(m = id ∧ PlainEntry b (oldValues record) b.indices k) → ks'.score? k m = ks.score? k m
  /-- The id owns its unique values no more. -/
  disowned : ∀ k v, UniqueEntry b (oldValues record) b.indices k v →
    ks'.field? k v = disowned id (ks.field? k v)
  /-- All other owners are as they were. -/
  sameOwner : ∀ k v, b.keys.InSection k .unique →
    ¬UniqueEntry b (oldValues record) b.indices k v → ks'.field? k v = ks.field? k v

/-- If there is no record, an id that leaves the collection of all ids is deleted. -/
theorem Deleted.of_missing (hgone : ks.data? (b.keys.object id) = none)
    (hchanged : ChangedAt b.keys.ids (memberKind b) ks ks')
    (hscore : ∀ m, ks'.score? b.keys.ids m = if m = id then none else ks.score? b.keys.ids m) :
    Deleted b id none ks ks' := by
  have hne : ∀ {k s}, b.keys.InSection k s → s ≠ .ids → k ≠ b.keys.ids :=
    fun hk hs => hk.ne (.ids rfl) hs
  -- without a record, there are no old values
  have hnone : ∀ spec, oldValues none spec = none := fun _ => rfl
  constructor
  case kinds => exact .of_changedAt (expects_ids b) hchanged
  case ids => exact hscore
  case gone => rw [hchanged.data? (hne (.object id rfl) (by simp)), hgone]
  case objects => exact fun i _ _ => hchanged.data? (hne (.object i rfl) (by simp))
  case counter => exact hchanged.data? (hne (.counter rfl) (by simp))
  case left =>
    rintro k ⟨spec, -, -, v, hv, -⟩
    rw [hnone] at hv
    cases hv
  case sameMember => exact fun k m hk _ => hchanged.score? (hne hk (by simp)) m
  case disowned =>
    rintro k v ⟨spec, -, -, hv, -⟩
    rw [hnone] at hv
    cases hv
  case sameOwner => exact fun k v hk _ => hchanged.field? (hne hk (by simp)) v

/-- The keys that are deleted with an instance: its record and its containers. -/
def doomedKeys (b : Batch) (id : String) : List String :=
  b.keys.object id :: b.structures.map (b.keys.container id)

/-- The keys that are deleted lie where records do. -/
theorem inSection_of_mem_doomedKeys {k : String} (hk : k ∈ doomedKeys b id) :
    b.keys.InSection k .object := by
  rcases List.mem_cons.mp hk with rfl | hk
  · exact .object id rfl
  · obtain ⟨name, -, rfl⟩ := List.mem_map.mp hk
    exact .object _ (b.keys.container_eq_object id name)

/-- The record of another id is deleted only if it lies where a container did. -/
theorem exists_of_object_mem_doomedKeys {i : String} (hi : i ≠ id)
    (hmem : b.keys.object i ∈ doomedKeys b id) : ∃ name ∈ b.structures, i = id ++ ":" ++ name := by
  rcases List.mem_cons.mp hmem with heq | hmem
  · exact absurd (ModelKeys.object_inj.mp heq) hi
  · obtain ⟨name, hname, heq⟩ := List.mem_map.mp hmem
    rw [ModelKeys.container_eq_object, ModelKeys.object_inj] at heq
    exact ⟨name, hname, heq.symm⟩

/-- An id that has left all collections is deleted with its record and its containers. -/
theorem Deleted.of_unlinked {fields : Table String} {ks₁ ks₂ : Keyspace}
    (hchanged : ChangedAt b.keys.ids (memberKind b) ks ks₁)
    (hscore : ∀ m, ks₁.score? b.keys.ids m = if m = id then none else ks.score? b.keys.ids m)
    (h : EntriesChanged b id (oldValues (some fields)) none (CommitScript.disowned id) b.indices
      ks₁ ks₂) :
    Deleted b id (some fields) ks (ks₂.delete (doomedKeys b id)) := by
  have hne : ∀ {k s}, b.keys.InSection k s → s ≠ .ids → k ≠ b.keys.ids :=
    fun hk hs => hk.ne (.ids rfl) hs
  have hkept : ∀ {k s}, b.keys.InSection k s → s ≠ .object → k ∉ doomedKeys b id :=
    fun hk hs hmem => hs (hk.eq (inSection_of_mem_doomedKeys hmem))
  have hkinds : KeepsKinds b ks ks₁ := .of_changedAt (expects_ids b) hchanged
  constructor
  case kinds => exact fun k kind he hk => (h.kinds k kind he (hkinds k kind he hk)).delete _
  case ids =>
    intro m
    rw [score?_delete, if_neg (hkept (.ids rfl) (by simp)),
      h.sameMember _ _ fun hand => (ids_not_entry b).1 hand.2.inSection, hscore]
  case gone =>
    have hmem : b.keys.object id ∈ doomedKeys b id := List.mem_cons_self ..
    rw [data?_delete, if_pos hmem]
  case objects =>
    intro i hi hcontainer
    have hsame : ks₂.data? (b.keys.object i) = ks.data? (b.keys.object i) := by
      rw [h.data? (object_not_entry b i), hchanged.data? (hne (.object i rfl) (by simp))]
    rw [data?_delete, hsame]
    split
    next hmem =>
      -- a key that is deleted is that of a container, which was not there
      obtain ⟨name, hname, heq⟩ := exists_of_object_mem_doomedKeys hi hmem
      exact (hcontainer.resolve_right fun hnot => hnot name hname heq).symm
    next => rfl
  case counter =>
    rw [data?_delete, if_neg (hkept (.counter rfl) (by simp)), h.data? (counter_not_entry b),
      hchanged.data? (hne (.counter rfl) (by simp))]
  case left =>
    intro k hk
    rw [score?_delete, if_neg (hkept hk.inSection (by simp)), h.member k hk]
  case sameMember =>
    intro k m hk hsame
    rw [score?_delete, if_neg (hkept hk (by simp)), h.sameMember k m hsame,
      hchanged.score? (hne hk (by simp))]
  case disowned =>
    intro k v hk
    rw [field?_delete, if_neg (hkept hk.inSection (by simp)), h.owner k v hk,
      hchanged.field? (hne hk.inSection (by simp))]
  case sameOwner =>
    intro k v hk hsame
    rw [field?_delete, if_neg (hkept hk (by simp)), h.sameOwner k v hsame,
      hchanged.field? (hne hk (by simp))]

/-- A delete that has been checked does not fail. -/
theorem run_deleteOne {record : Option (Table String)} (h : DeleteChecked ks b id record) :
    ∃ ks', ks.run (deleteOne b id record) = (.ok record.isSome, ks') ∧
      Deleted b id record ks ks' := by
  obtain ⟨ks₁, hrun₁, hchanged, hscore⟩ := run_removeMember h.ids id
  unfold deleteOne
  rw [run_bind_ok hrun₁]
  cases record with
  | none => exact ⟨ks₁, rfl, .of_missing (h.stored.1.mp rfl) hchanged hscore⟩
  | some fields =>
    have hfits : EntriesFit b (oldValues (some fields)) b.indices ks₁ :=
      EntriesFit.mono h.entries (.of_changedAt (expects_ids b) hchanged)
    obtain ⟨ks₂, hrun₂, hunlinked⟩ := run_unlinkChosen hfits id
    exact ⟨_, run_bind_ok hrun₂ _, .of_unlinked hchanged hscore hunlinked⟩

/-- Replaces the record of an id, and enters the id into the collection of all ids. -/
def place (b : Batch) (id : String) (pairs : List (String × String)) (score : Double) :
    Step Unit := do
  discard (Step.delete [b.keys.object id])
  discard (Step.setFields (b.keys.object id) pairs)
  addMember b b.keys.ids score id

/-- The record of an id has been replaced, and the id is in the collection of all ids. -/
structure Placed (b : Batch) (id : String) (pairs : List (String × String)) (score : Double)
    (ks ks' : Keyspace) : Prop where
  /-- All keys keep their kinds. -/
  kinds : KeepsKinds b ks ks'
  /-- The id is in the collection of all ids. -/
  ids : ∀ m, ks'.score? b.keys.ids m =
    if m = id then some (placed b score) else ks.score? b.keys.ids m
  /-- The record has nothing but the fields given. -/
  fields : ∀ f, ks'.field? (b.keys.object id) f = pairs.reverse.lookup f
  /-- The record does not expire. -/
  lasts : ks'.Lasts (b.keys.object id)
  /-- All other keys have their entries still. -/
  other : ∀ k, k ≠ b.keys.ids → k ≠ b.keys.object id → ks'.entries[k]? = ks.entries[k]?

/-- All other keys hold what they held. -/
theorem Placed.data? {pairs : List (String × String)} {score : Double}
    (h : Placed b id pairs score ks ks') {k : String} (hids : k ≠ b.keys.ids)
    (hobject : k ≠ b.keys.object id) : ks'.data? k = ks.data? k := by
  rw [Keyspace.data?, Keyspace.data?, h.other k hids hobject]

/-- A record can be replaced, whatever lies under its key. -/
theorem run_place (hids : ks.Fits b.keys.ids (memberKind b)) (id : String)
    (pairs : List (String × String)) (hne : pairs ≠ []) (score : Double) :
    ∃ ks', ks.run (place b id pairs score) = (.ok ⟨⟩, ks') ∧ Placed b id pairs score ks ks' := by
  -- the old record is deleted first, so no field of it is left and its kind does not matter
  let object := b.keys.object id
  let ks₁ := ks.delete [object]
  have hobject : b.keys.ids ≠ object := ModelKeys.InSection.ne (.ids rfl) (.object id rfl) (by simp)
  have hnone : ks₁.entries[object]? = none := by
    simp [ks₁, Keyspace.delete, Table.getElem?_eraseAll]
  have hsame₁ : ∀ k, k ≠ object → ks₁.entries[k]? = ks.entries[k]? := by
    intro k hk
    show (ks.entries.eraseAll [object])[k]? = _
    rw [Table.getElem?_eraseAll, if_neg (by simpa using hk)]
  have hdata : ks₁.data? object = none := by rw [data?, hnone, Option.map_none]
  obtain ⟨n, ks₂, hrun₂, hchanged₂, hfield₂⟩ := run_setFields (.of_none hdata) pairs hne
  have hlasts₂ : ks₂.Lasts object := by
    have hset := (revises_setFields object pairs).lasts (Lasts.of_none hnone)
    rwa [hrun₂] at hset
  have hkinds₂ : KeepsKinds b ks ks₂ := fun k kind he hk =>
    KeepsKinds.of_changedAt (expects_object b id) hchanged₂ k kind he (hk.delete _)
  obtain ⟨ks₃, hrun₃, hchanged₃, hscore₃⟩ :=
    run_addMember (hkinds₂ _ _ (expects_ids b) hids) score id
  refine ⟨ks₃, ?_, fun k kind he hk => ?_, fun m => ?_, fun f => ?_, ?_, fun k hk hk' => ?_⟩
  · unfold place
    rw [run_bind_ok (run_discard_ok (run_delete ks [object])),
      run_bind_ok (run_discard_ok hrun₂), hrun₃]
  · exact KeepsKinds.of_changedAt (expects_ids b) hchanged₃ k kind he (hkinds₂ k kind he hk)
  · have hsame : ks₂.score? b.keys.ids m = ks.score? b.keys.ids m := by
      rw [hchanged₂.score? hobject, score?_delete, if_neg (by simpa using hobject)]
    rw [hscore₃, hsame]
  · rw [hchanged₃.field? hobject.symm, hfield₂, field?, hdata]
    exact Option.or_none
  · exact hlasts₂.of_entries (hchanged₃.other object hobject.symm)
  · rw [hchanged₃.other k hk, hchanged₂.other k hk', hsame₁ k hk']

/-- Takes an id out of the entries of values that change, and puts a write into the store under
it. -/
def writeAs (b : Batch) (w : InstanceWrite) (c : Checked) (id : String) : Step Unit := do
  let score := w.score.getD .zero
  unlinkOld b w c.record id
  place b id (storedFields b w c.version id) score
  linkNew b w score id

/-- An instance has been written under an id. -/
structure Written (b : Batch) (w : InstanceWrite) (c : Checked) (id : String)
    (ks ks' : Keyspace) : Prop where
  /-- All keys keep their kinds. -/
  kinds : KeepsKinds b ks ks'
  /-- The id is in the collection of all ids. -/
  ids : ∀ m, ks'.score? b.keys.ids m =
    if m = id then some (placed b (w.score.getD .zero)) else ks.score? b.keys.ids m
  /-- The record has nothing but the new fields. -/
  fields : ∀ f, ks'.field? (b.keys.object id) f =
    (storedFields b w c.version id).reverse.lookup f
  /-- The record does not expire. -/
  lasts : ks'.Lasts (b.keys.object id)
  /-- All other records have their entries still. -/
  others : ∀ i, i ≠ id → ks'.entries[b.keys.object i]? = ks.entries[b.keys.object i]?
  /-- The counter stands where it stood. -/
  counter : ks'.data? b.keys.counter = ks.data? b.keys.counter
  /-- The id is in the collections of its new values. -/
  entered : ∀ k, PlainEntry b (newValues w) b.indices k →
    ks'.score? k id = some (placed b (w.score.getD .zero))
  /-- The id has left the collections of other values. -/
  left : ∀ k, ¬PlainEntry b (newValues w) b.indices k →
    PlainEntry b (droppedValues w c.record) b.indices k → ks'.score? k id = none
  /-- All other members are as they were. -/
  sameMember : ∀ k m, b.keys.InSection k .index →
    ¬(m = id ∧ (PlainEntry b (newValues w) b.indices k ∨
      PlainEntry b (droppedValues w c.record) b.indices k)) →
    ks'.score? k m = ks.score? k m
  /-- The id owns its new unique values. -/
  owned : ∀ k v, UniqueEntry b (newValues w) b.indices k v → ks'.field? k v = some id
  /-- The id owns no other values that it had. -/
  disowned : ∀ k v, ¬UniqueEntry b (newValues w) b.indices k v →
    UniqueEntry b (droppedValues w c.record) b.indices k v →
    ks'.field? k v = disowned id (ks.field? k v)
  /-- All other owners are as they were. -/
  sameOwner : ∀ k v, b.keys.InSection k .unique → ¬UniqueEntry b (newValues w) b.indices k v →
    ¬UniqueEntry b (droppedValues w c.record) b.indices k v → ks'.field? k v = ks.field? k v

/-- All other records are as they were. -/
theorem Written.objects {w : InstanceWrite} {c : Checked} (h : Written b w c id ks ks')
    (i : String) (hi : i ≠ id) : ks'.data? (b.keys.object i) = ks.data? (b.keys.object i) := by
  rw [data?, data?, h.others i hi]

/-- The entries of dropped values fit if those of all stored values do. -/
theorem EntriesFit.dropped {w : InstanceWrite} {record : Option (Table String)}
    (h : EntriesFit b (oldValues record) b.indices ks) :
    EntriesFit b (droppedValues w record) b.indices ks :=
  fun spec hspec v hv => h spec hspec v (droppedValues_eq_some_iff.mp hv).1

/-- An instance is written by taking out its old values, placing its record, and entering its new
values. -/
theorem Written.of_steps {w : InstanceWrite} {c : Checked} {ks₁ ks₂ : Keyspace}
    (h₁ : EntriesChanged b id (droppedValues w c.record) none (CommitScript.disowned id) b.indices
      ks ks₁)
    (h₂ : Placed b id (storedFields b w c.version id) (w.score.getD .zero) ks₁ ks₂)
    (h₃ : EntriesChanged b id (newValues w) (some (placed b (w.score.getD .zero)))
      (fun _ => some id) b.indices ks₂ ks') :
    Written b w c id ks ks' := by
  -- placing the record changes nothing under the keys of entries
  have hdata : ∀ {k s}, b.keys.InSection k s → s ≠ .ids → s ≠ .object →
      ks₂.data? k = ks₁.data? k :=
    fun hk hi ho => h₂.data? (hk.ne (.ids rfl) hi) (hk.ne (.object id rfl) ho)
  have hindex : ∀ {k}, b.keys.InSection k .index → ∀ m, ks₂.score? k m = ks₁.score? k m :=
    fun hk m => by rw [score?, score?, hdata hk (by simp) (by simp)]
  have hunique : ∀ {k}, b.keys.InSection k .unique → ∀ f, ks₂.field? k f = ks₁.field? k f :=
    fun hk f => by rw [field?, field?, hdata hk (by simp) (by simp)]
  constructor
  case kinds =>
    intro k kind he hk
    exact h₃.kinds k kind he (h₂.kinds k kind he (h₁.kinds k kind he hk))
  case ids =>
    intro m
    rw [h₃.sameMember _ _ fun hand => (ids_not_entry b).1 hand.2.inSection, h₂.ids,
      h₁.sameMember _ _ fun hand => (ids_not_entry b).1 hand.2.inSection]
  case fields =>
    intro f
    rw [h₃.sameOwner _ _ fun hk => (object_not_entry b id).2 hk.inSection, h₂.fields]
  case lasts =>
    obtain ⟨hindex, hunique⟩ := object_not_entry b id
    exact h₂.lasts.of_entries (h₃.other _ hindex hunique)
  case others =>
    intro i hi
    obtain ⟨hindex, hunique⟩ := object_not_entry b i
    have hids : b.keys.object i ≠ b.keys.ids :=
      ModelKeys.InSection.ne (.object i rfl) (.ids rfl) (by simp)
    rw [h₃.other _ hindex hunique, h₂.other _ hids (by simpa using hi),
      h₁.other _ hindex hunique]
  case counter =>
    rw [h₃.data? (counter_not_entry b), hdata (.counter rfl) (by simp) (by simp),
      h₁.data? (counter_not_entry b)]
  case entered => exact fun k hk => h₃.member k hk
  case left =>
    intro k hk hk'
    rw [h₃.sameMember k id fun hand => hk hand.2, hindex hk'.inSection, h₁.member k hk']
  case sameMember =>
    intro k m hk hsame
    rw [h₃.sameMember k m fun hand => hsame ⟨hand.1, .inl hand.2⟩, hindex hk,
      h₁.sameMember k m fun hand => hsame ⟨hand.1, .inr hand.2⟩]
  case owned => exact fun k v hk => h₃.owner k v hk
  case disowned =>
    intro k v hk hk'
    rw [h₃.sameOwner k v hk, hunique hk'.inSection, h₁.owner k v hk']
  case sameOwner =>
    intro k v hk hsame hsame'
    rw [h₃.sameOwner k v hsame, hunique hk, h₁.sameOwner k v hsame']

/-- What a checked write puts into the store under an id does not fail. -/
theorem run_writeAs {w : InstanceWrite} {c : Checked} (hids : ks.Fits b.keys.ids (memberKind b))
    (hnew : EntriesFit b (newValues w) b.indices ks)
    (hold : EntriesFit b (oldValues c.record) b.indices ks) (id : String) :
    ∃ ks', ks.run (writeAs b w c id) = (.ok ⟨⟩, ks') ∧ Written b w c id ks ks' := by
  -- each part keeps the kinds that the next one relies on
  have hdropped : EntriesFit b (droppedValues w c.record) b.indices ks := hold.dropped
  obtain ⟨ks₁, hrun₁, h₁⟩ := run_unlinkChosen hdropped id
  have hne : storedFields b w c.version id ≠ [] := by simp [storedFields]
  obtain ⟨ks₂, hrun₂, h₂⟩ :=
    run_place (h₁.kinds _ _ (expects_ids b) hids) id _ hne (w.score.getD .zero)
  obtain ⟨ks₃, hrun₃, h₃⟩ :=
    run_linkChosen ((hnew.mono h₁.kinds).mono h₂.kinds) (w.score.getD .zero) id
  refine ⟨ks₃, ?_, .of_steps h₁ h₂ h₃⟩
  simp only [writeAs, unlinkOld_eq, linkNew_eq]
  rw [run_bind_ok hrun₁, run_bind_ok hrun₂, hrun₃]

/-- How an instance comes by its id: it has one, or the counter takes the next number. -/
inductive Assigned (b : Batch) (w : InstanceWrite) (ks : Keyspace) : String → Keyspace → Prop
  | named {id : String} (hid : w.id = some id) : Assigned b w ks id ks
  | counted {n : Int} (hid : w.id = none) (hcounter : ks.counter? b.keys.counter = some n)
      (hfits : Number.fitsInt64 (n + 1) = true) :
      Assigned b w ks (Number.intText (n + 1))
        (ks.update b.keys.counter (.string (Number.intText (n + 1))))

/-- All keys keep their kinds while an id is assigned. -/
theorem Assigned.kinds {w : InstanceWrite} (h : Assigned b w ks id ks') : KeepsKinds b ks ks' := by
  cases h with
  | named hid => exact fun _ _ _ hk => hk
  | counted hid hcounter hfits => exact .of_changedAt (expects_counter b) (.update ks rfl)

/-- The counter is no record, so all records have their entries still. -/
theorem Assigned.others {w : InstanceWrite} (h : Assigned b w ks id ks') (i : String) :
    ks'.entries[b.keys.object i]? = ks.entries[b.keys.object i]? := by
  cases h with
  | named => rfl
  | counted =>
    have hcounter : b.keys.object i ≠ b.keys.counter :=
      ModelKeys.InSection.ne (.object i rfl) (.counter rfl) (by simp)
    rw [getElem?_update, if_neg hcounter]

/-- A step that must not fail runs as it would by itself. -/
theorem run_attempt_ok {α : Type} {s : Step α} {a : α} (h : ks.run s = (.ok a, ks')) :
    ks.run s.attempt = (.ok a, ks') := by
  have hrun : ks.run s.attempt = ((ks.run s).1.mapError CommandFault.refusal, (ks.run s).2) := rfl
  rw [hrun, h]
  rfl

/-- A step that fails refuses its instance. -/
theorem run_attempt_error {α : Type} {s : Step α} {e : CommandFault}
    (h : ks.run s = (.error e, ks')) : ks.run s.attempt = (.error e.refusal, ks') := by
  have hrun : ks.run s.attempt = ((ks.run s).1.mapError CommandFault.refusal, (ks.run s).2) := rfl
  rw [hrun, h]
  rfl

/-- The id of an instance, assigned if it has none. -/
def assign (b : Batch) (w : InstanceWrite) : Attempt String :=
  match w.id with
  | some id => pure id
  | none => Number.intText <$> (Step.increment b.keys.counter).attempt

/-- A write first gets its id, and then puts the instance into the store. -/
theorem writeOne_eq (b : Batch) (w : InstanceWrite) (c : Checked) :
    writeOne b w c = do
      let id ← assign b w
      (writeAs b w c id).attempt
      return ⟨id, c.version⟩ := by
  unfold writeOne assign writeAs place
  simp only [bind_assoc]
  cases w.id <;> rfl

/-- An instance gets its id, or is refused before anything has changed. -/
theorem run_assign (ks : Keyspace) (b : Batch) (w : InstanceWrite) :
    (∃ e, ks.run (assign b w) = (.error e, ks)) ∨
      ∃ id ks', Assigned b w ks id ks' ∧ ks.run (assign b w) = (.ok id, ks') := by
  unfold assign
  cases hid : w.id with
  | some id => exact .inr ⟨id, ks, .named hid, rfl⟩
  | none =>
    obtain ⟨e, hrun⟩ | ⟨n, hcounter, hfits, hrun⟩ := run_increment ks b.keys.counter
    · exact .inl ⟨_, run_map_error (run_attempt_error hrun) _⟩
    · exact .inr ⟨_, _, .counted hid hcounter hfits, run_map_ok (run_attempt_ok hrun) _⟩

/-- A write is refused and nothing has changed, or it is carried out under the id assigned. -/
theorem run_tryWrite (ks : Keyspace) (b : Batch) (w : InstanceWrite) :
    (∃ e, ks.run (tryWrite b w) = (.error e, ks)) ∨
      ∃ c id ks₁ ks', WriteChecked ks b w c ∧ Assigned b w ks id ks₁ ∧
        Written b w c id ks₁ ks' ∧ ks.run (tryWrite b w) = (.ok ⟨id, c.version⟩, ks') := by
  unfold tryWrite
  rw [run_bind_ok (run_get ks)]
  cases hcheck : checkWrite ks b w with
  | error e => exact .inl ⟨e, rfl⟩
  | ok c =>
    have hc := writeChecked hcheck
    simp only [writeOne_eq]
    obtain ⟨e, hrun⟩ | ⟨id, ks₁, hid, hrun⟩ := run_assign ks b w
    · exact .inl ⟨e, run_bind_error hrun _⟩
    -- the checks were made before the counter went up, which changes no kind
    · have hkinds := hid.kinds
      have hnew : EntriesFit b (newValues w) b.indices ks := hc.newEntries
      have hold : EntriesFit b (oldValues c.record) b.indices ks := hc.oldEntries
      obtain ⟨ks', hrun', hwritten⟩ := run_writeAs (hkinds _ _ (expects_ids b) hc.ids)
        (hnew.mono hkinds) (hold.mono hkinds) id
      refine .inr ⟨c, id, ks₁, ks', hc, hid, hwritten, ?_⟩
      rw [run_bind_ok hrun, run_bind_ok (run_attempt_ok hrun'), run_pure]

end CommitScript

end KeyedRecords
