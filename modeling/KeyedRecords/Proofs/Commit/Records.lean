import KeyedRecords.Proofs.Commit.Versions
import KeyedRecords.Proofs.Model.Coherence

/-!
# The records that a batch leaves

Behind a batch, the record of an id that was written is the one that the write which came last has
left there (`CommitScript.recorded_of_run`): what is deleted goes before anything is written, and
writes of other ids leave the record alone. In a coherent model its fields are the texts of the value
with the id and the version that the store has answered (`Model.Coherent.lookup_storedFields`).
-/

namespace KeyedRecords

namespace CommitScript

open Keyspace

variable {ks ks' : Keyspace} {b : Batch} {w : InstanceWrite} {ws : List InstanceWrite}
  {rs₁ rs₂ : List WriteReply} {key : IdentityKey} {ack : WriteAck}

/-- The record of an id is the one that an accepted write has left. -/
structure Recorded (b : Batch) (w : InstanceWrite) (ack : WriteAck) (ks : Keyspace) : Prop where
  /-- The write names its id, or the counter has assigned the next number. -/
  id : w.id = some ack.id ∨ w.id = none ∧ b.autoId = true ∧
    ∃ n, Number.fitsInt64 n = true ∧ ack.id = Number.intText n
  /-- The version is the one that follows the expected one. -/
  version : ∀ field, b.versionField = some field →
    ∃ n : Int64, n.toInt = w.expectedVersion.getD 0 ∧ ack.version = some (n + 1).toInt
  /-- The record does not expire. -/
  lasts : ks.Lasts (b.keys.object ack.id)
  /-- The record has nothing but the fields of the write. -/
  fields : ∀ f, ks.field? (b.keys.object ack.id) f =
    (storedFields b w ack.version ack.id).reverse.lookup f

/-- A record stays where its key has its entry still. -/
theorem Recorded.of_entries (h : Recorded b w ack ks)
    (hsame : ks'.entries[b.keys.object ack.id]? = ks.entries[b.keys.object ack.id]?) :
    Recorded b w ack ks' where
  id := h.id
  version := h.version
  lasts := h.lasts.of_entries hsame
  fields f := by rw [← h.fields, field?, field?, data?, data?, hsame]

/-- A reply to a write comes before those to the writes behind it. -/
theorem writes_replyOf_cons {v : Visit} {r : WriteReply} (h : v.writeReply? = some r)
    (vs : List Visit) : (replyOf (v :: vs)).writes = r :: (replyOf vs).writes := by
  simp [replyOf, List.filterMap_cons, h]

/-- A write that is reached is refused and changes nothing, or its record is left under the id in
the reply, and no other record is touched. -/
theorem reply_visit (b : Batch) (ks : Keyspace) (w : InstanceWrite) :
    (∃ e, (visit b ks (.write w)).writeReply? = some ⟨w.identity, .error e⟩ ∧
        (visit b ks (.write w)).after = ks) ∨
      ∃ ack, (visit b ks (.write w)).writeReply? = some ⟨w.identity, .ok ack⟩ ∧
        Recorded b w ack (visit b ks (.write w)).after ∧ ∀ i, i ≠ ack.id →
          (visit b ks (.write w)).after.entries[b.keys.object i]? =
            ks.entries[b.keys.object i]? := by
  obtain ⟨e, hvisit⟩ | ⟨c, id, ks₁, ks', hc, hid, hwritten, hvisit⟩ := visit_write b ks w
  · rw [hvisit]
    exact .inl ⟨e, rfl, rfl⟩
  · rw [hvisit]
    refine .inr ⟨⟨id, c.version⟩, rfl, ⟨?_, ?_, hwritten.lasts, hwritten.fields⟩, fun i hi =>
      (hwritten.others i hi).trans (hid.others i)⟩
    · cases hid with
      | named hid => exact .inl hid
      | counted hid hcounter hfits => exact .inr ⟨hid, hc.id hid, _, hfits, rfl⟩
    · intro field hfield
      obtain ⟨n, -, hversion⟩ := checkVersion_cases hfield hc.version
      exact ⟨n, hversion⟩

/-- Writes that are refused or get other ids leave the record of an id as it is. -/
theorem entries_writes_of_ne {id : String}
    (h : ∀ r ∈ (replyOf (visits b ks (ws.map .write))).writes, ∀ ack, r.result = .ok ack →
      ack.id ≠ id) :
    (behind ks (visits b ks (ws.map .write))).entries[b.keys.object id]? =
      ks.entries[b.keys.object id]? := by
  induction ws generalizing ks with
  | nil => rfl
  | cons w rest ih =>
    rw [List.map_cons, visits] at h ⊢
    obtain ⟨e, hreply, hafter⟩ | ⟨ack, hreply, -, hothers⟩ := reply_visit b ks w
    · rw [writes_replyOf_cons hreply, List.forall_mem_cons] at h
      rw [behind, ih h.2, hafter]
    · rw [writes_replyOf_cons hreply, List.forall_mem_cons] at h
      rw [behind, ih h.2, hothers id (h.1 _ rfl).symm]

/-- Behind writes, the record of an id is that of the last write that got the id. Each write is
answered in its turn. -/
theorem recorded_of_writes
    (h : (replyOf (visits b ks (ws.map .write))).writes = rs₁ ++ ⟨key, .ok ack⟩ :: rs₂)
    (hlast : ∀ r ∈ rs₂, ∀ ack', r.result = .ok ack' → ack'.id ≠ ack.id) :
    ∃ ws₁ w ws₂, ws = ws₁ ++ w :: ws₂ ∧ ws₁.length = rs₁.length ∧ w.identity = key ∧
      Recorded b w ack (behind ks (visits b ks (ws.map .write))) := by
  induction ws generalizing ks rs₁ with
  | nil => simp [visits, replyOf] at h
  | cons w rest ih =>
    rw [List.map_cons, visits] at h ⊢
    obtain ⟨r, hreply⟩ : ∃ r, (visit b ks (.write w)).writeReply? = some r := by
      obtain ⟨e, hreply, -⟩ | ⟨ack, hreply, -⟩ := reply_visit b ks w
      · exact ⟨_, hreply⟩
      · exact ⟨_, hreply⟩
    rw [writes_replyOf_cons hreply] at h
    cases rs₁ with
    | cons r' rs =>
      -- the reply is that to a write behind this one
      obtain ⟨ws₁, w', ws₂, rfl, hlength, hkey, hrecorded⟩ := ih (List.cons.inj h).2
      exact ⟨w :: ws₁, w', ws₂, rfl, congrArg (· + 1) hlength, hkey, hrecorded⟩
    | nil =>
      obtain ⟨rfl, hrest⟩ := List.cons.inj h
      obtain ⟨e, herror, -⟩ | ⟨ack', hreply', hrecorded, -⟩ := reply_visit b ks w
      · cases hreply.symm.trans herror
      · cases hreply.symm.trans hreply'
        refine ⟨[], w, rest, rfl, rfl, rfl, ?_⟩
        -- what is written behind it gets other ids
        rw [behind]
        exact hrecorded.of_entries (entries_writes_of_ne (hrest ▸ hlast))

/-- Behind a batch, the record of an id is that of the last write that got the id. -/
theorem recorded_of_run {r : BatchReply} (hrun : ks.run (run b) = (.ok r, ks'))
    (h : r.writes = rs₁ ++ ⟨key, .ok ack⟩ :: rs₂)
    (hlast : ∀ r ∈ rs₂, ∀ ack', r.result = .ok ack' → ack'.id ≠ ack.id) :
    ∃ ws₁ w ws₂, b.writes = ws₁ ++ w :: ws₂ ∧ ws₁.length = rs₁.length ∧ w.identity = key ∧
      Recorded b w ack ks' := by
  obtain ⟨e, hids⟩ | ⟨ids, hids⟩ := run_idsOf ks b.deletes
  · rw [run_eq_of_error hids] at hrun
    cases hrun
  rw [run_eq hids, turnsOf, visits_append, behind_append,
    replyOf_append (fun v => id?_of_mem_visits) (fun v => write?_of_mem_visits)] at hrun
  cases hrun
  exact recorded_of_writes h hlast

section Names

variable {l : Layout}

/-- Each field is stored once. -/
theorem nodup_storedFields (hw : (w.fields.map Prod.fst).Nodup)
    (hidentity : b.identity ∉ w.fields.map Prod.fst) (hversion : b.versionField ≠ some b.identity)
    (version : Option Int) (id : String) :
    ((storedFields b w version id).map Prod.fst).Nodup := by
  unfold storedFields
  rw [List.map_cons, List.nodup_cons]
  split
  next _ _ field n hfield =>
    have hfilter := List.filter_sublist (l := w.fields) (p := fun e => e.1 != field)
    have hother : field ∉ (w.fields.filter fun e => e.1 != field).map Prod.fst := by
      simp [List.mem_map]
    rw [List.map_append, List.map_singleton]
    refine ⟨?_, (hw.sublist (hfilter.map _)).append (List.nodup_singleton _) ?_⟩
    · rw [List.mem_append, List.mem_singleton, not_or]
      exact ⟨fun hmem => hidentity ((hfilter.map _).subset hmem),
        fun heq : b.identity = field => hversion (heq ▸ hfield)⟩
    · exact List.disjoint_singleton.mpr hother
  next => exact ⟨hidentity, hw⟩

/-- The id is stored under the name of the identity. -/
theorem lookup_storedFields_identity (hl : l.WellFormed)
    (hversion : Schema.VersionChecked l.fields ⟨some l.identity, l.versionField⟩)
    (key : IdentityKey) (r : Record) (expected version : Option Int) (id : String) :
    (storedFields (Batch.ofLayout l) (.ofRecord l key r expected) version id).reverse.lookup
      l.identity.name = some id := by
  have hnodup := nodup_storedFields (b := .ofLayout l) (w := .ofRecord l key r expected)
    (hl.nodup_toHash r) (hl.identity_not_mem_toHash r) (hl.versionField_ne hversion) version id
  rw [lookup_reverse hnodup]
  simp [storedFields, Batch.ofLayout]

end Names

end CommitScript

namespace Model.Coherent

variable {α : Type} {m : Model α} {l : Layout} {v v₁ v₂ : α} {ack : WriteAck}

/-- A value that has got an id and a version is else as it was. -/
theorem get?_eq (hm : m.Coherent l) (hid : m.withPrimaryKey ack.id v = .ok v₁)
    (hv₂ : v₂ = (ack.version.map (m.withVersion · v₁)).getD v₁) {name : String}
    (hname : name ≠ l.identity.name) (hversion : ack.version = none ∨ l.versionField ≠ some name) :
    (m.toRecord v₂).get? name = (m.toRecord v).get? name := by
  rw [hv₂, ← hm.identity hid name hname]
  cases hack : ack.version with
  | none => rfl
  | some n =>
    rw [hack] at hversion
    exact hm.others n v₁ name (hversion.resolve_left (by simp))

/-- What is stored of a value is what its record has once it has got the id and the version that
were stored with it. -/
theorem lookup_storedFields (hm : m.Coherent l) (hl : l.WellFormed)
    (hversion : Schema.VersionChecked l.fields ⟨some l.identity, l.versionField⟩)
    (hid : m.withPrimaryKey ack.id v = .ok v₁)
    (hv₂ : v₂ = (ack.version.map (m.withVersion · v₁)).getD v₁)
    (hshown : ∀ n, ack.version = some n → m.version v₂ = some n) (key : IdentityKey)
    (expected : Option Int) (ws : List InstanceWrite) (ds : List DeleteSource) (name : String) :
    (CommitScript.storedFields (CommitScript.batchOf l ws ds)
        (.ofRecord l key (m.toRecord v) expected) ack.version ack.id).reverse.lookup name =
      ((l.identity.name, ack.id) :: (m.toRecord v₂).toHash l).lookup name := by
  by_cases hname : name = l.identity.name
  · subst hname
    rw [List.lookup_cons_self]
    exact CommitScript.lookup_storedFields_identity hl hversion key _ expected ack.version ack.id
  rw [List.lookup_cons, beq_false_of_ne hname]
  by_cases hcounted : ack.version = none ∨ l.versionField ≠ some name
  · -- what is not the version is as it was
    rw [CommitScript.lookup_storedFields (b := CommitScript.batchOf l ws ds)
      (w := .ofRecord l key (m.toRecord v) expected) (hl.nodup_toHash _) hname hcounted]
    refine hl.lookup_toHash_congr ?_
    rintro f - rfl
    rw [Record.text?, Record.text?, hm.get?_eq hid hv₂ hname hcounted]
  · obtain ⟨hack, hfield⟩ := not_or.mp hcounted
    obtain ⟨n, hack⟩ := Option.ne_none_iff_exists'.mp hack
    have hfield := not_ne_iff.mp hfield
    obtain ⟨f, hf, rfl, hmarked⟩ := hversion.found _ hfield
    have hplain : f ∈ l.fields.filter fun f => !f.primaryKey :=
      List.mem_filter.mpr ⟨hf, by simp [(hversion.marked f hf hmarked).2.2]⟩
    rw [hack, CommitScript.lookup_storedFields_version (b := CommitScript.batchOf l ws ds) hfield,
      Record.toHash_eq,
      Record.lookup_texts _ (hl.distinct.sublist (List.filter_sublist.map _)) hplain,
      hm.version (hshown n hack) f hf hfield]

end Model.Coherent

end KeyedRecords
