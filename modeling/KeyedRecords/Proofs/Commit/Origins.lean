import KeyedRecords.Proofs.Commit.Consistency

/-!
# The records that instances are written from

What a store keeps of an instance was written from a record: its score in the collections of an
ordered model, and the texts of its fields (`WrittenFrom`). Every store that has been through
nothing but commits of one model has such records (`exists_writtenFrom`).
-/

namespace KeyedRecords

open Keyspace

/-- The instances of a model have been written from records: they have the scores of these in all
collections, and the texts of these in all fields besides the identity and the version. -/
structure Layout.WrittenFrom (l : Layout) (ks : Keyspace) (records : String → Record) : Prop where
  score : ∀ id x, ks.score? l.keys.ids id = some x → ((records id).score l).getD .zero = x
  text : ∀ f ∈ l.fields, f.primaryKey = false → l.versionField ≠ some f.name → ∀ id,
    ks.Has l.keys.ids id → ks.field? (l.keys.object id) f.name = (records id).text? f
  /-- The scores in the indexes are those of all ids. -/
  index : ∀ f ∈ l.indexedFields, f.unique = false → ∀ v id x,
    ks.score? (l.keys.index f.name v) id = some x → ks.score? l.keys.ids id = some x

namespace CommitScript

variable {l : Layout} {ks ks' : Keyspace}

/-- What a store keeps of an instance, besides the indexes, was written from a record. -/
structure Kept (l : Layout) (ks : Keyspace) (id : String) (r : Record) : Prop where
  score : ∀ x, ks.score? l.keys.ids id = some x → (r.score l).getD .zero = x
  text : ∀ f ∈ l.fields, f.primaryKey = false → l.versionField ≠ some f.name →
    ks.Has l.keys.ids id → ks.field? (l.keys.object id) f.name = r.text? f

/-- What is kept of an instance stays so while its score and its record do. -/
theorem Kept.of_same {id : String} {r : Record} (h : Kept l ks id r)
    (hscore : ks'.score? l.keys.ids id = ks.score? l.keys.ids id)
    (hobject : ks'.data? (l.keys.object id) = ks.data? (l.keys.object id)) : Kept l ks' id r := by
  refine ⟨fun x hx => h.score x (hscore ▸ hx), fun f hf hkey hversion hhas => ?_⟩
  rw [field?, hobject]
  exact h.text f hf hkey hversion (by rwa [Has, ← hscore])

/-- Nothing is kept of an instance that is not there. -/
theorem Kept.of_missing {id : String} (h : ks.score? l.keys.ids id = none) (r : Record) :
    Kept l ks id r := by
  refine ⟨fun x hx => ?_, fun f _ _ _ hhas => ?_⟩
  · rw [h] at hx
    cases hx
  · rw [Has, h] at hhas
    cases hhas

/-- On an ordered model, a write keeps of an instance what it has of a record. -/
theorem Written.kept (hl : l.WellFormed) (hordered : l.isOrdered = true) {identity : IdentityKey}
    {r : Record} {expected : Option Int} {c : Checked} {id : String}
    (h : Written (Batch.ofLayout l) (.ofRecord l identity r expected) c id ks ks') :
    Kept l ks' id r := by
  refine ⟨fun x hx => ?_, fun f hf hkey hversion _ => ?_⟩
  · have hids := h.ids id
    have hsorted : (Batch.ofLayout l).ordered = true := hordered
    rw [if_pos rfl, placed, if_pos hsorted] at hids
    exact Option.some.inj (hids.symm.trans hx)
  · rw [← lookup_storedFields_text hl hf hkey hversion identity r expected c.version id]
    exact h.fields f.name

/-- The deletions and writes of commits preserve that instances have been written from records. -/
theorem preserved_kept (hl : l.WellFormed)
    (hversion : ∀ f ∈ l.indexedFields, l.versionField ≠ some f.name)
    (hordered : l.isOrdered = true) :
    Preserved l fun ks => Invariant l ks ∧ ∀ id, ∃ r, Kept l ks id r where
  start now := by
    refine ⟨.start l now, fun id => ⟨.empty, .of_missing ?_ _⟩⟩
    simp [score?, data?]
  deleted {ks ks' id record} h hstored hdeleted := by
    obtain ⟨hinvariant, hkept⟩ := h
    refine ⟨hinvariant.deleted hl hstored hdeleted, fun i => ?_⟩
    have hids := hdeleted.ids i
    by_cases hi : i = id
    · rw [if_pos hi] at hids
      exact ⟨.empty, .of_missing hids _⟩
    · rw [if_neg hi] at hids
      have hmoved := hdeleted.moved (soundIndices hl) (hinvariant.containers id)
      exact (hkept i).imp fun r hr => hr.of_same hids (hmoved.objects i hi)
  written {ks ks₁ ks' w c id} h hc hw hid hwritten := by
    obtain ⟨hinvariant, hkept⟩ := h
    refine ⟨hinvariant.written hl hversion hc hw hid hwritten, fun i => ?_⟩
    obtain ⟨identity, r, expected, rfl⟩ := hw.record
    by_cases hi : i = id
    · rw [hi]
      exact ⟨r, hwritten.kept hl hordered⟩
    -- assigning an id changes nothing but the counter
    have hsame : ∀ {k s}, l.keys.InSection k s → s ≠ .counter → ks₁.data? k = ks.data? k := by
      intro k s hk hs
      cases hid with
      | named => rfl
      | counted => exact (ChangedAt.update ks rfl).data? (hk.ne (.counter rfl) hs)
    have hids := hwritten.ids i
    rw [if_neg hi] at hids
    refine (hkept i).imp fun r' hr' => hr'.of_same (hids.trans ?_) ?_
    · exact congrArg (Option.bind · (·.score? i)) (hsame (.ids rfl) (by decide))
    · exact (hwritten.objects i hi).trans (hsame (.object i rfl) (by decide))

/-- The instances of an ordered model that commits have led to have been written from records. -/
theorem exists_writtenFrom (hl : l.WellFormed)
    (hversion : ∀ f ∈ l.indexedFields, l.versionField ≠ some f.name)
    (hordered : l.isOrdered = true) (h : Reachable l ks) : ∃ records, l.WrittenFrom ks records := by
  obtain ⟨hinvariant, hkept⟩ := (preserved_kept hl hversion hordered).of_reachable h
  choose records hrecords using hkept
  refine ⟨records, fun id => (hrecords id).score, fun f hf hkey hfversion id => ?_,
    fun f hf hunique v id x => ?_⟩
  · exact (hrecords id).text f hf hkey hfversion
  · exact hinvariant.consistent.score hordered f hf hunique id v x

end CommitScript

end KeyedRecords
