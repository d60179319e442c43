import KeyedRecords.Proofs.Commit.Neighbours
import KeyedRecords.Proofs.Commit.Versions

/-!
# The index of a version

The store counts the versions of records, but takes the values of indexes from the instances that it
is sent. The index of a version field therefore follows the stored versions (`Follows`) only while
every accepted write brings the version that it is going to get (`Visit.Foretells`), and no delete
takes the record of a neighbour along (`Visit.Spares`). This is so in both directions
(`version_index_follows_iff`).
-/

namespace KeyedRecords

namespace CommitScript

open Keyspace

variable {l : Layout} {ks ks' : Keyspace} {b : Batch} {spec : IndexSpec} {id : String}

/-- An id is entered under a value of an index: it is in the collection of the value, or owns it. -/
def Enters (keys : ModelKeys) (spec : IndexSpec) (ks : Keyspace) (id v : String) : Prop :=
  if spec.unique then ks.field? (keys.unique spec.field) v = some id
  else (ks.score? (keys.index spec.field v) id).isSome

/-- Every id is entered under the value that its record holds, and under no other. -/
def Follows (keys : ModelKeys) (spec : IndexSpec) (ks : Keyspace) : Prop :=
  ∀ id v, Enters keys spec ks id v ↔ ks.field? (keys.object id) spec.field = some v

theorem enters_plain {keys : ModelKeys} (hu : spec.unique = false) {v : String} :
    Enters keys spec ks id v ↔ (ks.score? (keys.index spec.field v) id).isSome := by
  simp [Enters, hu]

theorem enters_unique {keys : ModelKeys} (hu : spec.unique = true) {v : String} :
    Enters keys spec ks id v ↔ ks.field? (keys.unique spec.field) v = some id := by
  simp [Enters, hu]

/-- Nothing is entered in a key space without keys, which has no records either. -/
theorem follows_empty (keys : ModelKeys) (spec : IndexSpec) (now : Nat) :
    Follows keys spec ⟨∅, now⟩ := by
  intro id v
  cases hu : spec.unique with
  | false => simp [enters_plain hu, score?, field?, data?]
  | true => simp [enters_unique hu, field?, data?]

/-- A delete takes an id out under its stored value, and changes no other entry. -/
theorem Deleted.enters_iff {record : Option (Table String)} (h : Deleted b id record ks ks')
    (hb : SoundIndices b.indices) (hspec : spec ∈ b.indices) (i v : String) :
    Enters b.keys spec ks' i v ↔
      Enters b.keys spec ks i v ∧ ¬(i = id ∧ oldValues record spec = some v) := by
  cases hu : spec.unique with
  | false =>
    rw [enters_plain hu, enters_plain hu, h.score?_index hb hspec hu]
    split <;> simp_all
  | true =>
    rw [enters_unique hu, enters_unique hu, h.field?_unique hb hspec hu]
    grind [CommitScript.disowned]

/-- A write enters an id under its new value, takes it out under the stored one, and changes no
entry of another id, if nobody else owns the new value. -/
theorem Written.enters_iff {w : InstanceWrite} {c : Checked} (h : Written b w c id ks ks')
    (hb : SoundIndices b.indices) (hspec : spec ∈ b.indices)
    (hfree : spec.unique = true → ∀ v, newValues w spec = some v →
      ∀ owner, ks.field? (b.keys.unique spec.field) v = some owner → owner = id) (i v : String) :
    Enters b.keys spec ks' i v ↔
      (i = id ∧ newValues w spec = some v) ∨
        Enters b.keys spec ks i v ∧ ¬(i = id ∧ oldValues c.record spec = some v) := by
  cases hu : spec.unique with
  | false =>
    rw [enters_plain hu, enters_plain hu, h.score?_index hb hspec hu]
    grind
  | true =>
    have hfree := hfree hu v
    rw [enters_unique hu, enters_unique hu, h.field?_unique hb hspec hu]
    grind [CommitScript.disowned]

/-- While an index follows its records, it goes on to do so behind a delete just if the delete takes
the value of no other record away. -/
theorem Follows.deleted_iff {record : Option (Table String)} (h : Follows b.keys spec ks)
    (hb : SoundIndices b.indices) (hspec : spec ∈ b.indices)
    (hrecord : HoldsRecord ks (b.keys.object id) record) (hdeleted : Deleted b id record ks ks') :
    Follows b.keys spec ks' ↔ ∀ i, i ≠ id →
      ks'.field? (b.keys.object i) spec.field = ks.field? (b.keys.object i) spec.field := by
  have hold : oldValues record spec = ks.field? (b.keys.object id) spec.field :=
    hrecord.2 spec.field
  constructor
  · intro hafter i hi
    refine Option.ext fun v => ?_
    rw [← hafter i v, ← h i v, hdeleted.enters_iff hb hspec]
    simp [hi]
  · intro hsame i v
    rw [hdeleted.enters_iff hb hspec, h i v]
    by_cases hi : i = id
    · rw [hi, hold, field?_eq_none hdeleted.gone]
      simp
    · simp [hi, hsame i hi]

/-- While an index follows its records, it goes on to do so behind a write just if the record that
is stored holds the value that the id is entered under. -/
theorem Follows.written_iff {w : InstanceWrite} {c : Checked} (h : Follows b.keys spec ks)
    (hb : SoundIndices b.indices) (hspec : spec ∈ b.indices) (hc : WriteChecked ks b w c)
    (hid : w.id = some id) (hwritten : Written b w c id ks ks') :
    Follows b.keys spec ks' ↔
      ks'.field? (b.keys.object id) spec.field = w.indexValue? spec.field := by
  have hold : oldValues c.record spec = ks.field? (b.keys.object id) spec.field :=
    (hc.named id hid).2.2 spec.field
  have hfree : spec.unique = true → ∀ v, newValues w spec = some v → ∀ owner,
      ks.field? (b.keys.unique spec.field) v = some owner → owner = id := by
    intro hu v hv owner howner
    have hsame := hc.unique spec hspec hu v hv owner howner
    exact (Option.some.inj (hid.symm.trans hsame)).symm
  have henters := hwritten.enters_iff hb hspec hfree
  -- what was entered before was the stored value, and that is taken out
  have hid' : ∀ v, Enters b.keys spec ks' id v ↔ w.indexValue? spec.field = some v := by
    intro v
    rw [henters, h id v, hold]
    simp [newValues]
  constructor
  · intro hafter
    exact Option.ext fun v => by rw [← hafter id v, hid' v]
  · intro hsame i v
    by_cases hi : i = id
    · rw [hi, hid' v, hsame]
    · rw [henters, field?, hwritten.objects i hi, ← field?, h i v]
      simp [hi]

/-- An accepted write brings the version that it gets as a value of its index. -/
def Visit.Foretells (field : String) (u : Visit) : Prop :=
  match u.turn, u.result with
  | .write w, .ok (.written ack) => w.indexValue? field = ack.version.map Number.intText
  | _, _ => True

/-- An accepted delete of a record takes the field of no other record along, which lies where a
container of the one is kept. -/
def Visit.Spares (b : Batch) (field : String) (u : Visit) : Prop :=
  match u.turn with
  | .delete id => u.accepted → (u.before.data? (b.keys.object id)).isSome →
    ∀ name ∈ b.structures, u.before.field? (b.keys.object (id ++ ":" ++ name)) field = none
  | .write _ => True

instance (field : String) : (u : Visit) → Decidable (u.Foretells field)
  | ⟨.write w, _, .ok (.written ack), _⟩ =>
    inferInstanceAs (Decidable (w.indexValue? field = ack.version.map Number.intText))
  | ⟨.write _, _, .ok (.deleted _), _⟩ | ⟨.write _, _, .error _, _⟩ | ⟨.delete _, _, _, _⟩ =>
    isTrue trivial

instance (b : Batch) (field : String) : (u : Visit) → Decidable (u.Spares b field)
  | ⟨.delete _, _, _, _⟩ => inferInstanceAs (Decidable (_ → _ → ∀ name ∈ b.structures, _ = _))
  | ⟨.write _, _, _, _⟩ => isTrue trivial

/-- A delete leaves a field of all other records as it was just if none with that field lies where
a container is swept away. -/
theorem Swept.fields_iff {field : String} (h : Swept b id ks ks') :
    (∀ i, i ≠ id → ks'.field? (b.keys.object i) field = ks.field? (b.keys.object i) field) ↔
      ((ks.data? (b.keys.object id)).isSome → ∀ name ∈ b.structures,
        ks.field? (b.keys.object (id ++ ":" ++ name)) field = none) := by
  constructor
  · intro hsame hthere name hname
    have hgone := h (id ++ ":" ++ name)
    rw [if_pos ⟨hthere, .inr ⟨name, hname, rfl⟩⟩] at hgone
    rw [← hsame _ (container_id_ne id name), field?_eq_none hgone]
  · intro hnone i hi
    have hrecord := h i
    split at hrecord
    next hswept =>
      obtain ⟨hthere, rfl | ⟨name, hname, rfl⟩⟩ := hswept
      · exact absurd rfl hi
      · rw [field?_eq_none hrecord, hnone hthere name hname]
    next => rw [field?, field?, hrecord]

/-- While the index of a version follows the stored versions, it goes on to do so behind an instance
just if the instance, written, foretells its version, or, deleted, spares those of others. -/
theorem Follows.visit_iff (h : Follows b.keys spec ks) (hb : SoundIndices b.indices)
    (hspec : spec ∈ b.indices) (hversion : b.versionField = some spec.field) {t : Turn}
    (hnamed : ∀ w, t = .write w → w.id.isSome) :
    Follows b.keys spec (visit b ks t).after ↔
      (visit b ks t).Foretells spec.field ∧ (visit b ks t).Spares b spec.field := by
  cases t with
  | delete id =>
    obtain ⟨e, hvisit⟩ | ⟨record, ks', hc, hdeleted, -, hvisit⟩ := visit_delete b ks id
    · rw [hvisit]
      exact iff_of_true h ⟨trivial, fun haccepted => nomatch haccepted⟩
    · have haccepted : (visit b ks (.delete id)).accepted := by
        rw [hvisit]
        rfl
      have hswept := (of_visit_delete haccepted).2
      rw [hvisit] at hswept ⊢
      rw [h.deleted_iff hb hspec hc.stored hdeleted, hswept.fields_iff]
      exact ⟨fun hspares => ⟨trivial, fun _ => hspares⟩, fun hspares => hspares.2 rfl⟩
  | write w =>
    obtain ⟨e, hvisit⟩ | ⟨c, id, ks₁, ks', hc, hid, hwritten, hvisit⟩ := visit_write b ks w
    · rw [hvisit]
      exact iff_of_true h ⟨trivial, trivial⟩
    · rw [hvisit]
      cases hid with
      | counted hid =>
        have hsome := hnamed w rfl
        rw [hid] at hsome
        cases hsome
      | named hid =>
        obtain ⟨n, -, -, hnext⟩ := checkVersion_ok hversion (hc.named id hid).2 hc.version
        have hstored : ks'.field? (b.keys.object id) spec.field =
            c.version.map Number.intText := by
          rw [hwritten.fields]
          simp [storedFields, hversion, hnext]
        rw [h.written_iff hb hspec hc hid hwritten, hstored]
        exact ⟨fun hsame => ⟨hsame.symm, trivial⟩, fun hforetells => hforetells.1.symm⟩

/-- An accepted write that brings the version that it expects does not foretell its version: it gets
the next one. -/
theorem not_foretells_of_expected {field : String} (hversion : b.versionField = some field)
    {w : InstanceWrite} (hid : w.id.isSome)
    (hexpected : w.indexValue? field = some (Number.intText (w.expectedVersion.getD 0)))
    (h : (visit b ks (.write w)).accepted) : ¬(visit b ks (.write w)).Foretells field := by
  obtain ⟨e, hvisit⟩ | ⟨c, i, ks₁, ks', hc, hassigned, -, hvisit⟩ := visit_write b ks w
  · simp [hvisit, Visit.accepted, Except.isOk, Except.toBool] at h
  · cases hassigned with
    | counted hnone => simp [hnone] at hid
    | named hid =>
      obtain ⟨n, -, hn, hnext⟩ := checkVersion_ok hversion (hc.named i hid).2 hc.version
      simp only [hvisit, Visit.Foretells, hexpected, ← hn, hnext, Option.map_some,
        Option.some.injEq, Number.intText_inj, Int64.toInt_inj]
      exact (Number.add_one_ne n).symm

/-- Over any run of a model whose version field is indexed, from a key space without keys and with
explicit ids only, the index of that field follows the stored versions behind every instance just if
every accepted write brings the version that it gets, and every accepted delete spares the versions
of others. If all writes bring the version that they expect, as clients read it, this fails with the
first write that is accepted. -/
theorem version_index_follows_iff {space : String} {s : Schema} (hl : s.layout space = .ok l)
    {f : Field} (hf : f ∈ l.indexedFields) (hversion : l.versionField = some f.name) (now : Nat)
    {ss : List Submission} (hnamed : ∀ s ∈ ss, ∀ w ∈ s.writes, w.id.isSome) :
    ((∀ u ∈ history (.ofLayout l) ⟨∅, now⟩ ss, Follows l.keys ⟨f.name, f.unique⟩ u.after) ↔
      ∀ u ∈ history (.ofLayout l) ⟨∅, now⟩ ss,
        u.Foretells f.name ∧ u.Spares (.ofLayout l) f.name) ∧
    ((∀ s ∈ ss, ∀ w ∈ s.writes,
        w.indexValue? f.name = some (Number.intText (w.expectedVersion.getD 0))) →
      (∀ u ∈ history (.ofLayout l) ⟨∅, now⟩ ss, Follows l.keys ⟨f.name, f.unique⟩ u.after) →
      ∀ u ∈ history (.ofLayout l) ⟨∅, now⟩ ss, u.turn.write?.isSome → u.accepted = false) := by
  let b := Batch.ofLayout l
  have hspec : ⟨f.name, f.unique⟩ ∈ b.indices := List.mem_map.mpr ⟨f, hf, rfl⟩
  have hiff : (∀ u ∈ history b ⟨∅, now⟩ ss, Follows b.keys ⟨f.name, f.unique⟩ u.after) ↔
      ∀ u ∈ history b ⟨∅, now⟩ ss, u.Foretells f.name ∧ u.Spares b f.name :=
    forall_history_iff (fun ks t hid h => h.visit_iff (soundIndices (Schema.layout_wellFormed hl))
      hspec hversion hid) (follows_empty b.keys ⟨f.name, f.unique⟩ now) hnamed
  refine ⟨hiff, fun hexpected hfollows u hu hwrite => ?_⟩
  cases hturn : u.turn with
  | delete id => simp [hturn, Turn.write?] at hwrite
  | write w =>
    rw [← Bool.not_eq_true]
    intro haccepted
    obtain ⟨s, hs, hmem⟩ := mem_writes_of_history hu hturn
    have hforetells := (hiff.mp hfollows u hu).1
    have hvisit := eq_visit_of_mem_history hu
    rw [hturn] at hvisit
    rw [hvisit] at haccepted hforetells
    exact not_foretells_of_expected hversion (hnamed s hs w hmem) (hexpected s hs w hmem) haccepted
      hforetells

/-- Drafts, in the order of their revisions, which are counted by the store and indexed. -/
def draft : ShapedModel where
  tag := ⟨"draft", some "revision", []⟩
  fields :=
    let revision := Sample.versionField "revision" .int64
    [Sample.chosenId "slug" .text, { revision with field := { revision.field with index := true } }]
  ownFailures := Sample.noRules

/-- The field that counts the revisions of drafts. -/
def revision : Field := { Field.plain "revision" .int with version := true, index := true }

/-- The layout of the drafts. -/
def drafts : Layout :=
  { tag := draft.tag, keys := .ofModel "kvm." "draft"
    identity := (Sample.chosenId "slug" .text).field, fields := draft.schema.fields
    defaultOrdering := some ⟨"revision", false⟩, versionField := some "revision" }

/-- The drafts are laid out as their declaration says. -/
theorem layout_draft : draft.schema.layout "kvm." = .ok drafts := by rfl

/-- The write of a draft. -/
def draftWrite (slug : String) (revision : Int64) (expected : Int) : InstanceWrite :=
  .ofRecord drafts slug ⟨[("slug", .text slug), ("revision", .int revision)]⟩ (some expected)

/-- A draft that brings the revision that it gets is found under it, and is deleted from there. -/
theorem version_index_follows_iff_drafts :
    draft.schema.layout "kvm." = .ok drafts ∧ revision ∈ drafts.indexedFields ∧
      drafts.versionField = some revision.name ∧
      ∃ ss, (∀ s ∈ ss, ∀ w ∈ s.writes, w.id.isSome) ∧
        ∀ u ∈ history (.ofLayout drafts) ⟨∅, 0⟩ ss,
          u.accepted ∧ Follows drafts.keys ⟨revision.name, revision.unique⟩ u.after := by
  let ss : List Submission := [⟨[draftWrite "a" 1 0], []⟩, ⟨[], [.ids ["a"]]⟩]
  have hf : revision ∈ drafts.indexedFields := List.mem_cons_self
  have hnamed : ∀ s ∈ ss, ∀ w ∈ s.writes, w.id.isSome := by decide +kernel
  have haccepted : ∀ u ∈ history (.ofLayout drafts) ⟨∅, 0⟩ ss, u.accepted := by decide +kernel
  have hkept : ∀ u ∈ history (.ofLayout drafts) ⟨∅, 0⟩ ss,
      u.Foretells revision.name ∧ u.Spares (.ofLayout drafts) revision.name := by decide +kernel
  have hfollows := (version_index_follows_iff layout_draft hf rfl 0 hnamed).1.mpr hkept
  exact ⟨layout_draft, hf, rfl, ss, hnamed, fun u hu => ⟨haccepted u hu, hfollows u hu⟩⟩

/-- A draft that brings the revision that it expects is stored at the next one, and found under the
one before, even when it has been deleted. -/
theorem version_index_stays_behind :
    draft.schema.layout "kvm." = .ok drafts ∧ drafts.versionField = some "revision" ∧
      ∃ u v, history (.ofLayout drafts) ⟨∅, 0⟩ [⟨[draftWrite "a" 0 0], []⟩, ⟨[], [.ids ["a"]]⟩] =
          [u, v] ∧ u.accepted ∧ v.accepted ∧
        u.after.field? (drafts.keys.object "a") "revision" = some "1" ∧
        (u.after.score? (drafts.keys.index "revision" "1") "a").isNone ∧
        (u.after.score? (drafts.keys.index "revision" "0") "a").isSome ∧
        (v.after.data? (drafts.keys.object "a")).isNone ∧
        (v.after.score? (drafts.keys.index "revision" "0") "a").isSome :=
  ⟨layout_draft, rfl, _, _, rfl, by decide +kernel⟩

end CommitScript

end KeyedRecords
