import KeyedRecords.Proofs.Query.ReadBack
import KeyedRecords.Proofs.Query.StorageOrder

/-!
# Reading some fields only

To read some fields of records answers what reading all of them does, with the other fields left out
(`ResultSet.records_projected`). The two reads are different commands with replies of different
forms: one has all fields that are stored, in their order, and the other those that were asked for, in
the order in which they were, with gaps. An id whose record is gone shows as an empty reply to the
one and as nothing but gaps to the other; these agree since a record that was written has its
identity among its fields.
-/

namespace KeyedRecords

open Keyspace

namespace Record

/-- A record with the fields that another one has under some names. -/
def fill (r found : Record) : List String → Record
  | [] => r
  | name :: rest =>
    match found.get? name with
    | some v => fill (r.set name v) found rest
    | none => fill r found rest

/-- The fields of a record under some names, in the order of these. -/
def onto (found : Record) (names : List String) : Record := empty.fill found names

variable {l : Layout} {r found : Record} {names : List String} {name id : String}

theorem get?_fill (r found : Record) (names : List String) (name : String) :
    (r.fill found names).get? name =
      if name ∈ names then (found.get? name).or (r.get? name) else r.get? name := by
  induction names generalizing r with
  | nil => simp [fill]
  | cons n rest ih =>
    unfold fill
    cases hn : found.get? n with
    | none =>
      simp only [ih, List.mem_cons]
      by_cases hname : name = n
      · subst hname
        simp [hn]
      · simp [hname]
    | some v =>
      simp only [ih, get?_set, List.mem_cons]
      by_cases hname : name = n
      · subst hname
        simp [hn]
      · simp [hname]

/-- Just the names that were asked for have the values that they had. -/
@[simp]
theorem get?_onto (found : Record) (names : List String) (name : String) :
    (found.onto names).get? name = if name ∈ names then found.get? name else none := by
  have hempty : empty.get? name = none := rfl
  rw [onto, get?_fill, hempty, Option.or_none]

/-- A field that is there already need not be asked for. -/
theorem fill_filter_ne {v : Value} (hr : r.get? name = some v) (hfound : found.get? name = some v)
    (names : List String) : r.fill found (names.filter (· != name)) = r.fill found names := by
  induction names generalizing r with
  | nil => rfl
  | cons n rest ih =>
    by_cases hn : n = name
    · subst hn
      rw [List.filter_cons_of_neg (by simp), fill, hfound]
      simp only
      rw [set_eq_self hr, ih hr]
    · rw [List.filter_cons_of_pos (by simpa using hn), fill, fill]
      cases hget : found.get? n with
      | none => exact ih hr
      | some u => exact ih (by rw [get?_set, if_neg (Ne.symm hn), hr])

/-- Of a stored text, a record shows its value, and of none or one that is passed over nothing. -/
def Shows (l : Layout) (t : Table String) (found : Record) (name : String) : Prop :=
  (t[name]? = none ∨ ¬l.Keeps name) ∧ found.get? name = none ∨
    ∃ f raw v, (l.field? name = some f ∧ f.primaryKey = false) ∧ t[name]? = some raw ∧
      f.kind.decode raw = .ok v ∧ found.get? name = some v

/-- A record that is read of a hash shows what is stored there, and has the identity of its id. -/
theorem shows_of_ofHash (hl : l.WellFormed) {t : Table String}
    (h : ofHash l id t.toList = .ok found) :
    (∃ v, l.identity.kind.decode id = .ok v ∧ found.get? l.identity.name = some v) ∧
      ∀ name, name ≠ l.identity.name → Shows l t found name := by
  obtain ⟨v, hv, hpairs⟩ := bind_ok_iff.mp h
  have hdecodes := decodes_of_addPairs hpairs
  -- what a text decodes to is the value wanted
  let wanted name := (l.field? name).bind fun f =>
    (t[name]?).bind fun raw => (f.kind.decode raw).toOption
  have htexts : ∀ f ∈ l.fields, f.primaryKey = false →
      t[f.name]? = none ∧ wanted f.name = none ∨
        ∃ raw v, t[f.name]? = some raw ∧ wanted f.name = some v ∧ f.kind.decode raw = .ok v := by
    intro f hf hkey
    have hfield := hl.field?_eq_some_iff.mpr ⟨hf, rfl⟩
    cases hraw : t[f.name]? with
    | none => exact .inl ⟨rfl, by simp [wanted, hraw]⟩
    | some raw =>
      have hmem := Std.ExtTreeMap.mem_toList_iff_getElem?_eq_some.mpr hraw
      obtain ⟨u, hu⟩ := hdecodes f.name raw f hmem hfield hkey
      exact .inr ⟨raw, u, rfl, by simp [wanted, hfield, hraw, hu, Except.toOption], hu⟩
  obtain ⟨found', hfound', hidentity, hkept, hnone⟩ := exists_ofHash hl hv htexts
  obtain rfl : found' = found := Except.ok.inj (hfound'.symm.trans h)
  refine ⟨⟨v, hv, hidentity⟩, fun name hname => ?_⟩
  by_cases hfields : name ∈ l.fields.map Field.name
  · obtain ⟨f, hf, rfl⟩ := List.mem_map.mp hfields
    have hfield := hl.field?_eq_some_iff.mpr ⟨hf, rfl⟩
    have hkey := hl.primaryKey_eq_false hfield hname
    unfold Shows
    rw [hkept f hf hkey]
    obtain ⟨hraw, hwanted⟩ | ⟨raw, u, hraw, hwanted, hu⟩ := htexts f hf hkey
    · exact .inl ⟨.inl hraw, hwanted⟩
    · exact .inr ⟨f, raw, u, ⟨hfield, hkey⟩, hraw, hu, hwanted⟩
  · exact .inl ⟨.inr (hl.not_keeps_of_not_mem hfields), hnone name hfields⟩

/-- The texts of names that a record shows are read as its fields. -/
theorem addPairs_of_shows {t : Table String} (h : ∀ name ∈ names, Shows l t found name)
    (r : Record) :
    addPairs l r (names.filterMap fun name => t[name]?.map (name, ·)) =
      .ok (r.fill found names) := by
  induction names generalizing r with
  | nil => rfl
  | cons name rest ih =>
    obtain ⟨hname, hrest⟩ := List.forall_mem_cons.mp h
    unfold fill
    obtain ⟨hskip, hnone⟩ | ⟨f, raw, v, ⟨hf, hkey⟩, hraw, hdecode, hget⟩ := hname
    -- neither a gap nor a text that is passed over changes the record
    · rw [hnone, ← ih hrest]
      cases hraw : t[name]? with
      | none => rw [List.filterMap_cons_none (by simp [hraw])]
      | some raw =>
        rw [List.filterMap_cons_some (b := (name, raw)) (by simp [hraw])]
        exact addPairs_cons_of_not_keeps (hskip.resolve_left (by simp [hraw])) r raw _
    · rw [List.filterMap_cons_some (b := (name, raw)) (by simp [hraw]), hget]
      simp only [addPairs, hf, hkey, Bool.false_eq_true, if_false, hdecode]
      exact ih hrest _

/-- If a hash is read as a record, then what it has under some names is read as their part of it. -/
theorem ofHash_projected (hl : l.WellFormed) {t : Table String}
    (h : ofHash l id t.toList = .ok found) (fields : List String) :
    ofHash l id ((ResultSet.projected l fields).filterMap fun name => t[name]?.map (name, ·)) =
      .ok (found.onto (l.identity.name :: fields)) := by
  obtain ⟨⟨v, hv, hidentity⟩, hshows⟩ := shows_of_ofHash hl h
  refine bind_ok_iff.mpr ⟨v, hv, ?_⟩
  have hset : (empty.set l.identity.name v).get? l.identity.name = some v := by
    rw [get?_set, if_pos rfl]
  rw [onto, fill, hidentity]
  simp only
  rw [← fill_filter_ne hset hidentity, ← addPairs_of_shows fun name hname =>
    hshows name (by simpa using (List.mem_filter.mp hname).2)]
  -- the text of the identity is passed over, as the id tells it
  rw [ResultSet.projected, List.filterMap_cons]
  cases t[l.identity.name]? with
  | none => rfl
  | some raw => exact addPairs_cons_of_not_keeps hl.not_keeps_identity _ raw _

end Record

/-- A list with an element of some kind has a last one of the kind. -/
theorem exists_last_of_exists {α : Type} {p : α → Prop} {as : List α} (h : ∃ a ∈ as, p a) :
    ∃ before a after, as = before ++ a :: after ∧ p a ∧ ∀ b ∈ after, ¬p b := by
  induction as with
  | nil =>
    obtain ⟨a, ha, -⟩ := h
    cases ha
  | cons x rest ih =>
    by_cases hrest : ∃ a ∈ rest, p a
    · obtain ⟨before, a, after, rfl, ha, hafter⟩ := ih hrest
      exact ⟨x :: before, a, after, rfl, ha, hafter⟩
    · obtain ⟨a, ha, hpa⟩ := h
      obtain rfl := (List.mem_cons.mp ha).resolve_right fun hmem => hrest ⟨a, hmem, hpa⟩
      exact ⟨[], a, rest, rfl, hpa, fun b hb hpb => hrest ⟨b, hb, hpb⟩⟩

/-- What is at the key of an id is as a commit has left it that accepted a write of the id. -/
def CommitScript.LeftByWrite (l : Layout) (ks : Keyspace) (id : String) : Prop :=
  ∃ (ks₀ ks₁ : Keyspace) (ws : List InstanceWrite) (ds : List DeleteSource) (reply : BatchReply),
    ks₀.run (CommitScript.run (CommitScript.batchOf l ws ds)) = (.ok reply, ks₁) ∧
      (∃ r ∈ reply.writes, ∃ ack, r.result = .ok ack ∧ ack.id = id) ∧
      ks.data? (l.keys.object id) = ks₁.data? (l.keys.object id)

namespace CommitScript

variable {l : Layout} {ks : Keyspace} {id : String}

/-- What a write leaves has the identity among its fields, whatever it is a write of. -/
theorem Recorded.isSome_identity {b : Batch} {w : InstanceWrite} {ack : WriteAck}
    (h : Recorded b w ack ks) : (ks.field? (b.keys.object ack.id) b.identity).isSome = true := by
  rw [h.fields, List.lookup_isSome_iff]
  exact ⟨(b.identity, ack.id), List.mem_reverse.mpr List.mem_cons_self, beq_self_eq_true _⟩

theorem LeftByWrite.isSome_identity (h : LeftByWrite l ks id) :
    (ks.field? (l.keys.object id) l.identity.name).isSome = true := by
  obtain ⟨ks₀, ks₁, ws, ds, reply, hrun, ⟨r, hr, ack, hack, rfl⟩, hdata⟩ := h
  -- the last of the accepted writes of the id is the one whose record is there
  obtain ⟨before, ⟨key, result⟩, after, hwrites, ⟨ack', rfl, hid⟩, hothers⟩ :=
    exists_last_of_exists (p := fun r => ∃ a, r.result = .ok a ∧ a.id = ack.id)
      ⟨r, hr, ack, hack, rfl⟩
  have hnone : ∀ r ∈ after, ∀ a, r.result = .ok a → a.id ≠ ack'.id :=
    fun r hr a ha heq => hothers r hr ⟨a, ha, heq.trans hid⟩
  obtain ⟨-, w, -, -, -, -, hrecorded⟩ := recorded_of_run hrun hwrites hnone
  rw [field?, hdata, ← hid]
  exact hrecorded.isSome_identity

end CommitScript

namespace ResultSet

variable {l : Layout} {ks : Keyspace} {client : Client} {ids : List String}
  {fields : Option (List String)} {rows : List (String × Record)}

/-- To read a record changes nothing. -/
theorem snd_execute_recordCommand (ks : Keyspace) (l : Layout) (fields : Option (List String))
    (id : String) : (ks.execute (recordCommand l fields id)).2 = ks := by
  cases fields with
  | none => exact execute_read_snd (c := .hgetall _) (·.hash? (l.keys.object id)) rfl ks
  | some names => exact execute_read_snd (c := .hmget _ names) (·.hash? (l.keys.object id)) rfl ks

/-- Records are made of the replies that the store gives to each read. -/
theorem runFrom_records_ok_iff (hclient : client.Works) :
    (runFrom client (records l ids fields)).1 = .ok rows ↔
      readRecords l (fields.map (projected l)) (ids.map fun id => (id,
        (client.server.sweep.space.execute
          (recordCommand l (fields.map (projected l)) id)).1)) = .ok rows := by
  unfold records
  cases ids with
  | nil => exact ⟨fun h => congrArg _ (Except.ok.inj h), fun h => congrArg _ (Except.ok.inj h)⟩
  | cons id rest =>
    simp only [List.isEmpty_cons, Bool.false_eq_true, if_false]
    rw [runFrom_bind_ok hclient.runFrom_checkpoint, runFrom_bind_ok (hclient.runFrom_pipeline _),
      executeAll_map _ _ _ fun id _ => snd_execute_recordCommand _ l _ id]
    simp only [List.length_map, ne_eq, not_true_eq_false, if_false]
    rw [Operation.fst_runFrom_ofExcept_ok_iff, ← List.map_prod_left_eq_zip]

/-- Where all fields can be read, there is a hash, or nothing. -/
theorem exists_hash_of_storedPairs {id : String} {pairs : List (String × String)}
    (h : storedPairs none (ks.execute (recordCommand l none id)).1 = .ok pairs) :
    ∃ t, ks.hash? (l.keys.object id) = .ok t ∧ pairs = (t.getD ∅).toList := by
  cases hhash : ks.hash? (l.keys.object id) with
  | error e =>
    rw [recordCommand, execute_read_error (c := .hgetall _) (·.hash? _) rfl hhash] at h
    cases h
  | ok t =>
    rw [recordCommand, execute_hgetall hhash] at h
    refine ⟨t, rfl, (Except.ok.inj h).symm.trans ?_⟩
    cases t <;> rfl

/-- Of a hash, some fields are read in the order in which they are asked for. -/
theorem storedPairs_projected {id : String} {t : Option (Table String)}
    (h : ks.hash? (l.keys.object id) = .ok t) (names : List String) :
    storedPairs (some names) (ks.execute (recordCommand l (some names) id)).1 =
      .ok (names.filterMap fun name => (t.getD ∅)[name]?.map (name, ·)) := by
  rw [recordCommand, execute_hmget h]
  refine bind_ok_iff.mpr ⟨_, rfl, congrArg Except.ok ?_⟩
  induction names with
  | nil => rfl
  | cons name rest ih =>
    rw [List.map_cons, List.zip_cons_cons, List.filterMap_cons, List.filterMap_cons, ih]

/-- If all fields of records can be read, then what is read of some of them is the same. -/
theorem readRecords_projected (hl : l.WellFormed) (fields : List String)
    (hidentity : ∀ id ∈ ids, ∀ t, ks.hash? (l.keys.object id) = .ok (some t) →
      (t[l.identity.name]?).isSome = true)
    (h : readRecords l none (ids.map fun id => (id, (ks.execute (recordCommand l none id)).1)) =
      .ok rows) :
    readRecords l (some (projected l fields))
        (ids.map fun id => (id, (ks.execute (recordCommand l (some (projected l fields)) id)).1)) =
      .ok (rows.map fun row => (row.1, row.2.onto (l.identity.name :: fields))) := by
  induction ids generalizing rows with
  | nil =>
    cases h
    rfl
  | cons id rest ih =>
    obtain ⟨hid, hrest⟩ := List.forall_mem_cons.mp hidentity
    rw [List.map_cons, readRecords] at h ⊢
    obtain ⟨pairs, hpairs, h⟩ := bind_ok_iff.mp h
    obtain ⟨t, hhash, rfl⟩ := exists_hash_of_storedPairs hpairs
    refine bind_ok_iff.mpr ⟨_, storedPairs_projected hhash _, ?_⟩
    cases t with
    | none =>
      -- without any text, all that is asked for is missing
      have hempty : (∅ : Table String).toList = [] := rfl
      rw [Option.getD_none, hempty, if_pos List.isEmpty_nil] at h
      rw [if_pos (by simp)]
      exact ih hrest h
    | some t =>
      -- the identity is asked for first, and it is there
      obtain ⟨text, htext⟩ := Option.isSome_iff_exists.mp (hid t hhash)
      have hmem := Std.ExtTreeMap.mem_toList_iff_getElem?_eq_some.mpr htext
      rw [Option.getD_some, if_neg fun hempty => List.ne_nil_of_mem hmem
        (List.isEmpty_iff.mp hempty)] at h
      obtain ⟨record, hrecord, h⟩ := bind_ok_iff.mp h
      obtain ⟨others, hothers, h⟩ := bind_ok_iff.mp h
      cases h
      rw [if_neg (by simp [projected, htext])]
      exact bind_ok_iff.mpr ⟨_, Record.ofHash_projected hl hrecord fields,
        bind_ok_iff.mpr ⟨_, ih hrest hothers, rfl⟩⟩

/-- To read some fields of records answers what reading all of them does, with the other fields left
out. It does so on every store in which records are as accepted writes have left them, for all ids
whose records can be read, and for fields that may be repeated or unknown. -/
theorem records_projected {space : String} {s : Schema} (hs : s.layout space = .ok l)
    (hclient : client.Works)
    (hwritten : ∀ id ∈ ids, ∀ t, client.server.space.data? (l.keys.object id) = some (.hash t) →
      CommitScript.LeftByWrite l client.server.space id)
    (h : (runFrom client (records l ids none)).1 = .ok rows) (fields : List String) :
    (runFrom client (records l ids (some fields))).1 =
      .ok (rows.map fun row => (row.1, row.2.onto (l.identity.name :: fields))) := by
  rw [runFrom_records_ok_iff hclient] at h ⊢
  refine readRecords_projected (Schema.layout_wellFormed hs) fields (fun id hid t ht => ?_) h
  -- what has not expired when it is read is what was there
  have hdata := hash?_eq_some_iff.mp ht
  obtain hnone | hsame :=
    client.server.space.data?_sweep_or client.server.clock.now (l.keys.object id)
  · cases hnone.symm.trans hdata
  · have hhash := hsame.symm.trans hdata
    rw [← field?_of_hash? (hash?_eq_some_iff.mpr hhash)]
    exact (hwritten id hid t hhash).isSome_identity

open Request in
/-- One document about a star is read twice, and another one is not there. Of the fields that are
asked for, one is unknown and one comes twice. -/
theorem records_projected_stars :
    ∃ rows : List (String × Record), rows.map Prod.fst = ["b", "b"] ∧
      (runFrom starClient (records starLayout ["b", "z", "b"] none)).1 = .ok rows ∧
      (runFrom starClient (records starLayout ["b", "z", "b"]
        (some ["weight", "mass", "weight"]))).1 =
          .ok (rows.map fun row => (row.1, row.2.onto ["slug", "weight", "mass", "weight"])) := by
  have hread : ((runFrom starClient (records starLayout ["b", "z", "b"] none)).1.toOption.map
      fun rows => rows.map Prod.fst) = some ["b", "b"] := by decide +kernel
  obtain ⟨rows, hrows, hids⟩ : ∃ rows,
      (runFrom starClient (records starLayout ["b", "z", "b"] none)).1 = .ok rows ∧
        rows.map Prod.fst = ["b", "b"] := by
    cases hresult : (runFrom starClient (records starLayout ["b", "z", "b"] none)).1 with
    | error e =>
      rw [hresult] at hread
      cases hread
    | ok rows =>
      rw [hresult] at hread
      exact ⟨rows, rfl, Option.some.inj hread⟩
  -- the commit has accepted its one write
  have hb : CommitScript.LeftByWrite starLayout starSpace "b" := by
    let c : Command := .eval (.commit (CommitScript.batchOf starLayout [starWrite] []))
    have haccepted : ((Keyspace.empty.execute c).1.asCommit.toOption.map fun reply =>
        reply.writes.map fun r => r.result.toOption) = some [some ⟨"b", some 1⟩] := by
      decide +kernel
    obtain ⟨reply, hreply⟩ : ∃ reply, (Keyspace.empty.execute c).1 = .commit reply := by
      cases hanswer : (Keyspace.empty.execute c).1 with
      | commit reply => exact ⟨reply, rfl⟩
      | _ =>
        rw [hanswer] at haccepted
        cases haccepted
    rw [hreply] at haccepted
    obtain ⟨r, hwrites, hresult⟩ := List.map_eq_singleton_iff.mp (Option.some.inj haccepted)
    have hok : r.result = .ok ⟨"b", some 1⟩ := by
      cases hr : r.result with
      | error e =>
        rw [hr] at hresult
        cases hresult
      | ok ack =>
        rw [hr] at hresult
        exact congrArg Except.ok (Option.some.inj hresult)
    have hrun := execute_commit_ok (Prod.ext hreply rfl)
    exact ⟨_, _, _, _, reply, hrun, ⟨r, by simp [hwrites], _, hok, rfl⟩, rfl⟩
  have hz : (starSpace.data? (starLayout.keys.object "z")).isNone = true := by decide +kernel
  have hwritten : ∀ id ∈ ["b", "z", "b"], ∀ t,
      starClient.server.space.data? (starLayout.keys.object id) = some (.hash t) →
        CommitScript.LeftByWrite starLayout starClient.server.space id := by
    intro id hid t ht
    obtain rfl | rfl | rfl : id = "b" ∨ id = "z" ∨ id = "b" := by simpa using hid
    · exact hb
    · cases (Option.isNone_iff_eq_none.mp hz).symm.trans ht
    · exact hb
  exact ⟨rows, hids, hrows,
    records_projected layout_starDoc ⟨rfl, rfl⟩ hwritten hrows ["weight", "mass", "weight"]⟩

end ResultSet

end KeyedRecords
