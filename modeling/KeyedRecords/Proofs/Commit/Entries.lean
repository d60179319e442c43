import KeyedRecords.Proofs.Commit.Checks
import KeyedRecords.Proofs.Store.Steps

/-!
# Entries of an instance

Entering an id under the values of a record, and taking it out again, changes nothing but the keys
of those values (`EntriesChanged`). Neither fails if these keys hold nothing but values of their
kinds (`run_unlinkChosen`, `run_linkChosen`).
-/

namespace KeyedRecords

namespace CommitScript

open Keyspace

variable {ks ks' ks'' : Keyspace} {b : Batch}

/-- The score that a member of a collection is given. -/
def placed (b : Batch) (score : Double) : Double := if b.ordered then score else .one

/-- An id enters a collection. -/
theorem run_addMember {key : String} (h : ks.Fits key (memberKind b)) (score : Double)
    (id : String) :
    ∃ ks', ks.run (addMember b key score id) = (.ok ⟨⟩, ks') ∧
      ChangedAt key (memberKind b) ks ks' ∧
      ∀ m, ks'.score? key m = if m = id then some (placed b score) else ks.score? key m := by
  unfold addMember placed
  unfold memberKind at h ⊢
  cases hordered : b.ordered with
  | true =>
    rw [hordered] at h
    obtain ⟨n, ks', hrun, hchanged, hscore⟩ := run_addScored h score id
    exact ⟨ks', run_discard_ok hrun, hchanged, hscore⟩
  | false =>
    rw [hordered] at h
    obtain ⟨n, ks', hrun, hchanged, hscore⟩ := run_addMembers h [id] (by simp)
    refine ⟨ks', run_discard_ok hrun, hchanged, fun m => ?_⟩
    rw [hscore]
    simp

/-- An id leaves a collection. -/
theorem run_removeMember {key : String} (h : ks.Fits key (memberKind b)) (id : String) :
    ∃ ks', ks.run (removeMember b key id) = (.ok ⟨⟩, ks') ∧ ChangedAt key (memberKind b) ks ks' ∧
      ∀ m, ks'.score? key m = if m = id then none else ks.score? key m := by
  unfold removeMember
  unfold memberKind at h ⊢
  cases hordered : b.ordered with
  | true =>
    rw [hordered] at h
    obtain ⟨n, ks', hrun, hchanged, hscore⟩ := run_removeScored h [id]
    refine ⟨ks', run_discard_ok hrun, hchanged, fun m => ?_⟩
    rw [hscore]
    simp
  | false =>
    rw [hordered] at h
    obtain ⟨n, ks', hrun, hchanged, hscore⟩ := run_removeMembers h [id]
    refine ⟨ks', run_discard_ok hrun, hchanged, fun m => ?_⟩
    rw [hscore]
    simp

theorem entryKey_plain {spec : IndexSpec} (h : spec.unique = false) (b : Batch) (v : String) :
    entryKey b spec v = (b.keys.index spec.field v, memberKind b) := by
  simp [entryKey, h]

theorem entryKey_unique {spec : IndexSpec} (h : spec.unique = true) (b : Batch) (v : String) :
    entryKey b spec v = (b.keys.unique spec.field, .hash) := by
  simp [entryKey, h]

/-- All keys of the model keep their kinds. -/
def KeepsKinds (b : Batch) (ks ks' : Keyspace) : Prop :=
  ∀ key kind, b.Expects key kind → ks.Fits key kind → ks'.Fits key kind

/-- A change of one key to its kind keeps all kinds. -/
theorem KeepsKinds.of_changedAt {key : String} {kind : DataKind} (he : b.Expects key kind)
    (h : ChangedAt key kind ks ks') : KeepsKinds b ks ks' := by
  intro k kind' hk hfits
  refine h.fits_of hfits ?_
  rintro rfl
  exact he.eq hk

/-- The key of a collection in which an id is entered, when `chosen` says under which values. -/
def PlainEntry (b : Batch) (chosen : IndexSpec → Option String) (specs : List IndexSpec)
    (key : String) : Prop :=
  ∃ spec ∈ specs, spec.unique = false ∧
    ∃ v, chosen spec = some v ∧ key = b.keys.index spec.field v

/-- The key of a hash in which an id owns a value, when `chosen` says which values. -/
def UniqueEntry (b : Batch) (chosen : IndexSpec → Option String) (specs : List IndexSpec)
    (key v : String) : Prop :=
  ∃ spec ∈ specs, spec.unique = true ∧ chosen spec = some v ∧ key = b.keys.unique spec.field

section Entry

variable {chosen : IndexSpec → Option String} {spec : IndexSpec} {specs : List IndexSpec}
  {key v : String}

@[simp]
theorem plainEntry_nil : ¬PlainEntry b chosen [] key := by
  simp [PlainEntry]

@[simp]
theorem uniqueEntry_nil : ¬UniqueEntry b chosen [] key v := by
  simp [UniqueEntry]

@[simp]
theorem plainEntry_cons :
    PlainEntry b chosen (spec :: specs) key ↔
      (spec.unique = false ∧ ∃ v, chosen spec = some v ∧ key = b.keys.index spec.field v) ∨
        PlainEntry b chosen specs key := by
  simp [PlainEntry]

@[simp]
theorem uniqueEntry_cons :
    UniqueEntry b chosen (spec :: specs) key v ↔
      (spec.unique = true ∧ chosen spec = some v ∧ key = b.keys.unique spec.field) ∨
        UniqueEntry b chosen specs key v := by
  simp [UniqueEntry]

/-- Collections of ids lie in the section of the indexes. -/
theorem PlainEntry.inSection (h : PlainEntry b chosen specs key) :
    b.keys.InSection key .index := by
  obtain ⟨spec, -, -, v, -, rfl⟩ := h
  exact .index _ _ rfl

/-- Hashes of owners lie in the section of the unique values. -/
theorem UniqueEntry.inSection (h : UniqueEntry b chosen specs key v) :
    b.keys.InSection key .unique := by
  obtain ⟨spec, -, -, -, rfl⟩ := h
  exact .unique _ rfl

end Entry

/-- The entries of an instance have changed. What becomes of the id in collections is `score`, and
what becomes of the owner of a value is `owner`. -/
structure EntriesChanged (b : Batch) (id : String) (chosen : IndexSpec → Option String)
    (score : Option Double) (owner : Option String → Option String) (specs : List IndexSpec)
    (ks ks' : Keyspace) : Prop where
  /-- All keys keep their kinds. -/
  kinds : KeepsKinds b ks ks'
  /-- All keys but those of entries have their entries still. -/
  other : ∀ k, ¬b.keys.InSection k .index → ¬b.keys.InSection k .unique →
    ks'.entries[k]? = ks.entries[k]?
  /-- No time has passed. -/
  now : ks'.now = ks.now
  /-- The id has changed in the collections of its values. -/
  member : ∀ k, PlainEntry b chosen specs k → ks'.score? k id = score
  /-- All other members are as they were. -/
  sameMember : ∀ k m, ¬(m = id ∧ PlainEntry b chosen specs k) → ks'.score? k m = ks.score? k m
  /-- The owners of its unique values have changed. -/
  owner : ∀ k v, UniqueEntry b chosen specs k v → ks'.field? k v = owner (ks.field? k v)
  /-- All other fields are as they were. -/
  sameOwner : ∀ k v, ¬UniqueEntry b chosen specs k v → ks'.field? k v = ks.field? k v

namespace EntriesChanged

variable {id : String} {chosen : IndexSpec → Option String} {score : Option Double}
  {owner : Option String → Option String} {spec : IndexSpec} {specs : List IndexSpec}

/-- All keys but those of entries hold what they held. -/
theorem data? (h : EntriesChanged b id chosen score owner specs ks ks') {k : String}
    (hk : ¬b.keys.InSection k .index ∧ ¬b.keys.InSection k .unique) :
    ks'.data? k = ks.data? k := by
  unfold Keyspace.data?
  rw [h.other k hk.1 hk.2]

/-- Nothing has changed if no value is chosen. -/
theorem refl (h : ∀ spec ∈ specs, chosen spec = none) (ks : Keyspace) :
    EntriesChanged b id chosen score owner specs ks ks := by
  have hplain : ∀ k, ¬PlainEntry b chosen specs k := by
    rintro k ⟨spec, hspec, -, v, hv, -⟩
    rw [h spec hspec] at hv
    cases hv
  have hunique : ∀ k v, ¬UniqueEntry b chosen specs k v := by
    rintro k v ⟨spec, hspec, -, hv, -⟩
    rw [h spec hspec] at hv
    cases hv
  exact ⟨fun _ _ _ hfits => hfits, fun _ _ _ => rfl, rfl, fun k hk => absurd hk (hplain k),
    fun _ _ _ => rfl, fun k v hk => absurd hk (hunique k v), fun _ _ _ => rfl⟩

/-- The entries of one index change, and then those of others. -/
theorem cons (howner : ∀ o, owner (owner o) = owner o)
    (h : EntriesChanged b id chosen score owner [spec] ks ks')
    (h' : EntriesChanged b id chosen score owner specs ks' ks'') :
    EntriesChanged b id chosen score owner (spec :: specs) ks ks'' where
  kinds k kind he hfits := h'.kinds k kind he (h.kinds k kind he hfits)
  other k hindex hunique := (h'.other k hindex hunique).trans (h.other k hindex hunique)
  now := h'.now.trans h.now
  member k hk := by
    -- the later change counts, if there is one
    by_cases hrest : PlainEntry b chosen specs k
    · exact h'.member k hrest
    · rw [h'.sameMember k id fun hand => hrest hand.2]
      refine h.member k ?_
      simp_all
  sameMember k m hk := by
    rw [h'.sameMember k m (by grind [plainEntry_cons]),
      h.sameMember k m (by grind [plainEntry_cons, plainEntry_nil])]
  owner k v hk := by
    -- a value that two indexes choose changes twice, and `howner` makes that once
    by_cases hrest : UniqueEntry b chosen specs k v
    · rw [h'.owner k v hrest]
      by_cases hfirst : UniqueEntry b chosen [spec] k v
      · rw [h.owner k v hfirst, howner]
      · rw [h.sameOwner k v hfirst]
    · rw [h'.sameOwner k v hrest]
      refine h.owner k v ?_
      simp_all
  sameOwner k v hk := by
    rw [h'.sameOwner k v (by grind [uniqueEntry_cons]),
      h.sameOwner k v (by grind [uniqueEntry_cons, uniqueEntry_nil])]

/-- A change of the collection of one value. -/
theorem plain {v : String} (hu : spec.unique = false) (hv : chosen spec = some v)
    (h : ks.Fits (b.keys.index spec.field v) (memberKind b))
    (hchanged : ChangedAt (b.keys.index spec.field v) (memberKind b) ks ks')
    (hscore : ∀ m, ks'.score? (b.keys.index spec.field v) m =
      if m = id then score else ks.score? (b.keys.index spec.field v) m) :
    EntriesChanged b id chosen score owner [spec] ks ks' where
  kinds := .of_changedAt (expects_index b _ _) hchanged
  other k hindex _ := hchanged.other k fun hk => hindex (.index _ _ hk)
  now := hchanged.now
  member k hk := by
    obtain rfl : k = b.keys.index spec.field v := by simpa [hu, hv] using hk
    simpa using hscore id
  sameMember k m hk := by
    by_cases hkey : k = b.keys.index spec.field v
    · subst k
      rw [hscore, if_neg]
      rintro rfl
      exact hk ⟨rfl, by simp [hu, hv]⟩
    · exact hchanged.score? hkey m
  owner k v' hk := by simp [hu] at hk
  sameOwner k v' _ := by
    by_cases hkey : k = b.keys.index spec.field v
    -- a collection of ids has no fields, before or after
    · have hne : memberKind b ≠ .hash := by unfold memberKind; split <;> simp
      rw [hkey, hchanged.fits.field?_eq_none hne, h.field?_eq_none hne]
    · exact hchanged.field? hkey v'

/-- A change of the owner of one value. -/
theorem unique {v : String} (hu : spec.unique = true) (hv : chosen spec = some v)
    (h : ks.Fits (b.keys.unique spec.field) .hash)
    (hchanged : ChangedAt (b.keys.unique spec.field) .hash ks ks')
    (howner : ∀ v', ks'.field? (b.keys.unique spec.field) v' =
      if v' = v then owner (ks.field? (b.keys.unique spec.field) v)
      else ks.field? (b.keys.unique spec.field) v') :
    EntriesChanged b id chosen score owner [spec] ks ks' where
  kinds := .of_changedAt (expects_unique b _) hchanged
  other k _ hunique := hchanged.other k fun hk => hunique (.unique _ hk)
  now := hchanged.now
  member k hk := by simp [hu] at hk
  sameMember k m _ := by
    by_cases hkey : k = b.keys.unique spec.field
    -- a hash of owners has no members, before or after
    · rw [hkey, hchanged.fits.score?_eq_none (by simp) (by simp),
        h.score?_eq_none (by simp) (by simp)]
    · exact hchanged.score? hkey m
  owner k v' hk := by
    obtain ⟨rfl, rfl⟩ : v = v' ∧ k = b.keys.unique spec.field := by simpa [hu, hv] using hk
    simpa using howner v
  sameOwner k v' hk := by
    by_cases hkey : k = b.keys.unique spec.field
    · subst k
      rw [howner, if_neg]
      rintro rfl
      exact hk (by simp [hu, hv])
    · exact hchanged.field? hkey v'

end EntriesChanged

/-- The entries of all values that `chosen` chooses hold nothing but values of their kinds. -/
def EntriesFit (b : Batch) (chosen : IndexSpec → Option String) (specs : List IndexSpec)
    (ks : Keyspace) : Prop :=
  ∀ spec ∈ specs, ∀ v, chosen spec = some v →
    ks.Fits (entryKey b spec v).1 (entryKey b spec v).2

/-- Entries that fit go on to do so. -/
theorem EntriesFit.mono {chosen : IndexSpec → Option String} {specs : List IndexSpec}
    (h : EntriesFit b chosen specs ks) (hkinds : KeepsKinds b ks ks') :
    EntriesFit b chosen specs ks' :=
  fun spec hspec v hv => hkinds _ _ (expects_entryKey b spec v) (h spec hspec v hv)

/-- A step for each index that changes its entry changes the entries of all. -/
theorem run_each {id : String} {chosen : IndexSpec → Option String} {score : Option Double}
    {owner : Option String → Option String} (howner : ∀ o, owner (owner o) = owner o)
    {f : IndexSpec → Step Unit} {specs : List IndexSpec}
    (hstep : ∀ spec ∈ specs, ∀ ks, EntriesFit b chosen [spec] ks → ∃ ks',
      ks.run (f spec) = (.ok ⟨⟩, ks') ∧ EntriesChanged b id chosen score owner [spec] ks ks')
    (h : EntriesFit b chosen specs ks) :
    ∃ ks', ks.run (each f specs) = (.ok ⟨⟩, ks') ∧
      EntriesChanged b id chosen score owner specs ks ks' := by
  induction specs generalizing ks with
  | nil => exact ⟨ks, rfl, .refl (by simp) ks⟩
  | cons spec rest ih =>
    obtain ⟨ks₁, hrun₁, h₁⟩ := hstep spec (by simp) ks fun s hs => h s (by simp_all)
    have hrest : EntriesFit b chosen rest ks := fun s hs => h s (by simp [hs])
    obtain ⟨ks₂, hrun₂, h₂⟩ := ih (fun s hs => hstep s (by simp [hs])) (hrest.mono h₁.kinds)
    exact ⟨ks₂, by rw [each, run_bind_ok hrun₁, hrun₂], h₁.cons howner h₂⟩

/-- Takes an id out of the entry of the value that is chosen for an index. -/
def unlinkChosen (b : Batch) (chosen : IndexSpec → Option String) (id : String)
    (spec : IndexSpec) : Step Unit :=
  match chosen spec with
  | some v => unlink b spec v id
  | none => pure ()

/-- The owner of a value that an id owns no more. -/
def disowned (id : String) (owner : Option String) : Option String :=
  if owner = some id then none else owner

/-- An id leaves the entries of all values that are chosen. -/
theorem run_unlinkChosen {chosen : IndexSpec → Option String} {specs : List IndexSpec}
    (h : EntriesFit b chosen specs ks) (id : String) :
    ∃ ks', ks.run (each (unlinkChosen b chosen id) specs) = (.ok ⟨⟩, ks') ∧
      EntriesChanged b id chosen none (disowned id) specs ks ks' := by
  refine run_each (fun o => by unfold disowned; split <;> simp_all) (fun spec _ ks hfits => ?_) h
  unfold unlinkChosen
  cases hv : chosen spec with
  | none => exact ⟨ks, rfl, .refl (by simpa using hv) ks⟩
  | some v =>
    have hfits := hfits spec (by simp) v hv
    unfold unlink
    cases hu : spec.unique with
    | false =>
      rw [entryKey_plain hu] at hfits
      obtain ⟨ks', hrun, hchanged, hscore⟩ := run_removeMember hfits id
      exact ⟨ks', hrun, .plain hu hv hfits hchanged hscore⟩
    | true =>
      rw [entryKey_unique hu] at hfits
      obtain ⟨t, ht, -, hfield⟩ := hfits.hash?
      have hread : ks.run (Step.read (·.hash? (b.keys.unique spec.field))) = (.ok t, ks) := by
        rw [run_read, ht]
      simp only [if_true, run_bind_ok hread]
      by_cases howner : (t.getD ∅)[v]? = some id
      · obtain ⟨n, ks', hrun, hchanged, hremoved⟩ := run_removeFields hfits [v]
        refine ⟨ks', by rw [if_pos howner]; exact run_discard_ok hrun,
          .unique hu hv hfits hchanged fun v' => ?_⟩
        rw [hremoved, hfield v, howner]
        simp [disowned]
      · refine ⟨ks, by rw [if_neg howner]; rfl, .unique hu hv hfits (.refl hfits) fun v' => ?_⟩
        split
        next hv' => rw [hv', hfield v, disowned, if_neg howner]
        next => rfl

/-- The owner of a value that an id comes to own. -/
def owned (id : String) (_ : Option String) : Option String := some id

/-- Enters an id under the value that is chosen for an index. -/
def linkChosen (b : Batch) (chosen : IndexSpec → Option String) (score : Double) (id : String)
    (spec : IndexSpec) : Step Unit :=
  match chosen spec with
  | none => pure ()
  | some v =>
    if spec.unique then discard (Step.setFields (b.keys.unique spec.field) [(v, id)])
    else addMember b (b.keys.index spec.field v) score id

/-- An id enters under all values that are chosen. -/
theorem run_linkChosen {chosen : IndexSpec → Option String} {specs : List IndexSpec}
    (h : EntriesFit b chosen specs ks) (score : Double) (id : String) :
    ∃ ks', ks.run (each (linkChosen b chosen score id) specs) = (.ok ⟨⟩, ks') ∧
      EntriesChanged b id chosen (some (placed b score)) (owned id) specs ks ks' := by
  have howner : ∀ o, owned id (owned id o) = owned id o := fun _ => rfl
  refine run_each howner (fun spec _ ks hfits => ?_) h
  unfold linkChosen
  cases hv : chosen spec with
  | none => exact ⟨ks, rfl, .refl (by simpa using hv) ks⟩
  | some v =>
    have hfits := hfits spec (by simp) v hv
    cases hu : spec.unique with
    | false =>
      rw [entryKey_plain hu] at hfits
      obtain ⟨ks', hrun, hchanged, hscore⟩ := run_addMember hfits score id
      exact ⟨ks', hrun, .plain hu hv hfits hchanged hscore⟩
    | true =>
      rw [entryKey_unique hu] at hfits
      obtain ⟨n, ks', hrun, hchanged, hset⟩ := run_setFields hfits [(v, id)] (by simp)
      refine ⟨ks', run_discard_ok hrun, .unique hu hv hfits hchanged fun v' => ?_⟩
      rw [hset]
      by_cases hv' : v' = v
      · simp [hv', owned]
      · have hne : (v' == v) = false := by simpa using hv'
        simp [hne, hv']

end CommitScript

end KeyedRecords
