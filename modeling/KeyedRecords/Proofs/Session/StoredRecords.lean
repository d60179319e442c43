import KeyedRecords.Proofs.Commit.Records
import KeyedRecords.Proofs.Session.Accounting
import KeyedRecords.Proofs.Session.Parts
import KeyedRecords.Proofs.Session.Tracking

/-!
# Loaded instances and stored records

Behind a commit, an instance that was written is loaded under its id, and what is stored under that
id is its record (`Session.written_stored`), as far as nothing else of the same commit gets in its
way. A session takes over what became of the deletes behind what became of the writes, though the
store has done them in front: an instance that was written under an id which was also to be deleted
is stored, but forgotten (`Session.written_and_forgotten`).
-/

namespace KeyedRecords

/-- The hash of an id has the texts of a record and the id itself, and nothing else. -/
def Keyspace.StoresRecord (ks : Keyspace) (l : Layout) (id : String) (r : Record) : Prop :=
  ∀ name, ks.field? (l.keys.object id) name = ((l.identity.name, id) :: r.toHash l).lookup name

/-- An answer that says something of writes answers each of them. -/
theorem Session.Answer.Fits.writes_eq {a : Session.Answer} (h : a.Fits) (hwrites : a.writes ≠ []) :
    a.writes.map (·.identity) = a.prepared.batch.writes.map (·.identity) := by
  unfold Session.Answer.writes at hwrites ⊢
  cases hreply : a.reply with
  | error e =>
    rw [hreply] at hwrites
    exact absurd rfl hwrites
  | ok r => exact (h r hreply).writes

namespace Tracker

variable {α : Type} {t t' t₁ : Tracker α} {a : Session.Answer} {session : SessionId}
  {validate : Bool} {lifetime n : Nat} {o o' : InstanceOutcome Error}
  {writes deletes before after : List (InstanceOutcome Error)} {rs₁ rs₂ : List WriteReply}
  {ack : WriteAck}

/-- An instance whose write was accepted has got its id and its version. -/
theorem acknowledge_ok {m : Model α} {i i' : Instance α} (h : acknowledge m ack i = .ok i') :
    ∃ v, m.withPrimaryKey ack.id i.value = .ok v ∧
      i'.value = (ack.version.map (m.withVersion · v)).getD v := by
  obtain ⟨v, hv, h⟩ := bind_ok_iff.mp h
  refine ⟨v, hv, ?_⟩
  cases pure_ok_iff.mp h
  cases ack.version <;> rfl

namespace Settlement

/-- No two of the instances that did not pass their checks and those that the store has answered for
have one key. -/
theorem nodup_keys (ht : t.Sound)
    (hprepare : t.prepare session validate lifetime n = .ok a.prepared) (hfits : a.Fits)
    (hwrites : a.writes ≠ []) :
    (a.prepared.invalid.map (·.1) ++ a.writes.map (·.identity)).Nodup := by
  rw [hfits.writes_eq hwrites]
  exact (keys_of_prepare hprepare).nodup_iff.mpr ht.nodup_dirty

/-- Behind the line of a write, the lines of writes are those for the replies behind its own. -/
theorem exists_reply_behind (h : t.Settlement a writes deletes t₁ t') (ht : t.Sound)
    (hprepare : t.prepare session validate lifetime n = .ok a.prepared) (hfits : a.Fits)
    (hlines : writes ++ deletes = before ++ o :: after) (haction : o.action = .write)
    (hreplies : a.writes = rs₁ ++ ⟨o.key, .ok ack⟩ :: rs₂) (ho' : o' ∈ after)
    (haction' : o'.action = .write) (hsuccess' : o'.error = none) :
    ∃ ack', ⟨o'.key, .ok ack'⟩ ∈ rs₂ ∧ o'.id = some ack'.id := by
  have hanswered : a.writes ≠ [] := by simp [hreplies]
  have hids := hfits.writes_eq hanswered
  have hkeys := nodup_keys ht hprepare hfits hanswered
  -- the lines of writes have the keys of the replies, and no two have one key
  have hwrites : writes.map (·.key) =
      a.prepared.invalid.map (·.1) ++ a.writes.map (·.identity) := by
    have hsubjects := congrArg (List.map fun subject => subject.2.2) h.subjects
    rw [hids]
    simpa [List.map_map, Function.comp_def, InstanceOutcome.subject] using hsubjects
  have hsplit := congrArg (fun lines => (lines.filter (·.action = .write)).map (·.key)) hlines
  have hbehind : (after.filter (·.action = .write)).map (·.key) = rs₂.map (·.identity) := by
    simp only [h.filter_write, hwrites, hreplies, List.filter_append, List.map_append, haction,
      List.filter_cons_of_pos, decide_true, List.map_cons] at hsplit hkeys
    rw [← List.append_assoc] at hsplit hkeys
    obtain ⟨-, hnodup, hdisjoint⟩ := List.nodup_append'.mp hkeys
    have hfront : o.key ∉ a.prepared.invalid.map (·.1) ++ rs₁.map (·.identity) :=
      fun hmem => hdisjoint hmem List.mem_cons_self
    exact ((List.append_cons_inj_of_notMem hfront (List.nodup_cons.mp hnodup).1).mp hsplit).2.2.symm
  -- the reply that the line tells of is the one with its key
  obtain ⟨r, hr, hkey⟩ : ∃ r ∈ rs₂, r.identity = o'.key := by
    rw [← List.mem_map, ← hbehind]
    exact List.mem_map_of_mem (List.mem_filter.mpr ⟨ho', by simpa using haction'⟩)
  obtain ⟨t₂, htakes, -⟩ := h.exists_takes
  obtain ⟨front, back, rfl⟩ := List.append_of_mem ho'
  rw [hlines, ← List.cons_append, ← List.append_assoc] at htakes
  obtain ⟨ack', -, -, -, -, -, hreply, hid, -⟩ := htakes.exists_written ht haction' hsuccess'
  have hmem : r ∈ a.writes := by rw [hreplies]; simp [hr]
  obtain rfl := List.inj_on_of_nodup_map hkeys.of_append_right hmem hreply hkey
  exact ⟨ack', hr, hid⟩

/-- What was written is loaded under its id, unless a success behind it is about that id. -/
theorem loaded_of_last (h : t.Settlement a writes deletes t₁ t') (ht : t.Sound)
    (hprepare : t.prepare session validate lifetime n = .ok a.prepared) (hfits : a.Fits)
    (hlines : writes ++ deletes = before ++ o :: after) (haction : o.action = .write)
    (hsuccess : o.error = none) (hreplies : a.writes = rs₁ ++ ⟨o.key, .ok ack⟩ :: rs₂)
    (hlast : ∀ r ∈ rs₂, ∀ ack', r.result = .ok ack' → ack'.id ≠ ack.id) :
    ∃ i i', acknowledge t.model ack i = .ok i' ∧
      ((∀ o' ∈ before, ¬o'.Settles o.key) → ∃ p, t.slot o.key = some (p, i)) ∧
      t'.loaded[ack.id]? = if ∃ o' ∈ after, o'.Settles ack.id then none else some i' := by
  obtain ⟨t₃, htakes, ht'⟩ := h.exists_takes
  rw [hlines] at htakes
  obtain ⟨ack', p, i, i', t₀, t₂, hreply, -, hbefore, hslot, hack, hslot₂, ht₂, hafter⟩ :=
    htakes.exists_written ht haction hsuccess
  have hkeys := nodup_keys ht hprepare hfits (by simp [hreplies])
  obtain rfl : ack = ack' := by
    have heq := List.inj_on_of_nodup_map hkeys.of_append_right (by rw [hreplies]; simp) hreply
      (show (⟨o.key, .ok ack⟩ : WriteReply).identity = o.key from rfl)
    cases heq
    rfl
  refine ⟨i, i', hack, fun hunsettled => ⟨p, ?_⟩, ?_⟩
  · rw [← hbefore.slot_eq ht hunsettled, hslot]
  -- no line behind it writes anything under the id
  have hunwritten : ∀ o' ∈ after, o'.action = .write → o'.error = none → o'.id ≠ some ack.id := by
    intro o' ho' haction' hsuccess' hid
    obtain ⟨ack', hr, hid'⟩ := h.exists_reply_behind ht hprepare hfits hlines haction hreplies ho'
      haction' hsuccess'
    exact hlast _ hr ack' rfl (Option.some.inj (hid'.symm.trans hid))
  have hslot₃ := hafter.slot_of_unwritten ht₂ hunwritten
  have hloaded : t'.loaded = t₃.held .loaded := by rw [ht']; rfl
  rw [hloaded]
  split at hslot₃
  next hsettled => rw [if_pos hsettled, slot_eq_none_iff.mp hslot₃]
  next hunsettled => rw [if_neg hunsettled, held_of_slot (hslot₃.trans hslot₂)]

/-- What is stored under the id is the record of the instance that is loaded, if no success in front
was about the key that the instance had. -/
theorem stores_of_last (h : t.Settlement a writes deletes t₁ t') (ht : t.Sound)
    (hprepare : t.prepare session validate lifetime n = .ok a.prepared) (hfits : a.Fits)
    (hlines : writes ++ deletes = before ++ o :: after) (haction : o.action = .write)
    (hsuccess : o.error = none) (hreplies : a.writes = rs₁ ++ ⟨o.key, .ok ack⟩ :: rs₂)
    (hlast : ∀ r ∈ rs₂, ∀ ack', r.result = .ok ack' → ack'.id ≠ ack.id)
    (hunsettled : ∀ o' ∈ before, ¬o'.Settles o.key) (hcoherent : t.model.Coherent t.layout)
    (hwell : t.layout.WellFormed)
    (hversion : Schema.VersionChecked t.layout.fields
      ⟨some t.layout.identity, t.layout.versionField⟩)
    {ks ks' : Keyspace} {r : BatchReply}
    (hrun : ks.run (CommitScript.run a.prepared.batch) = (.ok r, ks')) (hr : r.writes = a.writes)
    {i : Instance α} (hi : t'.loaded[ack.id]? = some i)
    (htakes : ∀ n, ack.version = some n → t.model.TakesVersion n) :
    ks'.StoresRecord t.layout ack.id (i.record t.model) := by
  obtain ⟨i₀, i', hack, hslot, hloaded⟩ :=
    h.loaded_of_last ht hprepare hfits hlines haction hsuccess hreplies hlast
  obtain ⟨p, hslot⟩ := hslot hunsettled
  obtain rfl : i' = i := by
    rw [hi] at hloaded
    split at hloaded
    · cases hloaded
    · exact (Option.some.inj hloaded).symm
  obtain ⟨ws₁, w, ws₂, hws, -, hkey, hrecorded⟩ :=
    CommitScript.recorded_of_run hrun (hr.trans hreplies) hlast
  have hw : w ∈ a.prepared.batch.writes := by simp [hws]
  -- the write is that of the instance that the line is about
  obtain ⟨i₁, hi₁, hwrite⟩ := exists_of_mem_writes hprepare hw
  obtain rfl : i₁ = i₀ := by
    rw [hkey] at hi₁
    rcases ht.mem_dirty_iff.mp hi₁ with hslot₁ | hslot₁
    · exact (Prod.mk.inj (Option.some.inj (hslot₁.symm.trans hslot))).2
    · exact (Prod.mk.inj (Option.some.inj (hslot₁.symm.trans hslot))).2
  obtain ⟨ws, ds, hbatch⟩ := batch_of_prepare hprepare
  obtain ⟨v, hv, hvalue⟩ := acknowledge_ok hack
  have hshown : ∀ n, ack.version = some n → t.model.version i'.value = some n := by
    intro n hn
    rw [hvalue, hn]
    exact htakes n hn v
  intro name
  have hfields := hrecorded.fields name
  rw [hwrite, hbatch] at hfields
  exact hfields.trans
    (hcoherent.lookup_storedFields hwell hversion hv hvalue hshown w.identity _ ws ds name)

end Settlement

end Tracker

namespace Session

open Keyspace

variable {α σ : Type} {w w₁ w' : Work α σ} {shares : List (Share α)} {report : CommitReport Error}

/-- Behind a commit, the keys of a model hold what its own script has left there. -/
theorem Commits.run_of_reply (hw : Reachable w) (hlink : w.client.fault = .none)
    (hcatalog : w.session.catalog.Registered) (h : Commits w w₁ shares report w') {s : Share α}
    (hs : s ∈ shares) {r : BatchReply} (hreply : s.answer.reply = .ok r) (hwrites : r.writes ≠ []) :
    ∃ ks ks' : Keyspace, ks.run (CommitScript.run s.answer.prepared.batch) = (.ok r, ks') ∧
      ∀ key, s.before.layout.keys.Owns key →
        w'.client.server.space.data? key = ks'.data? key := by
  obtain ⟨k, ks, hpart⟩ := h.exists_part (registered_of_reachable hw) hlink hcatalog hs
  rw [hpart.answered] at hreply
  obtain ⟨-, rfl⟩ | ⟨hbatch, hrun⟩ := Session.run_of_reply hreply
  · exact absurd rfl hwrites
  refine ⟨_, _, hrun, fun key hkey => ?_⟩
  have hsent : sentBy shares ≠ [] := by
    intro hnone
    have hnone := List.flatMap_eq_nil_iff.mp hnone _ (List.mem_map_of_mem hs)
    simp [commandsFor, hbatch] at hnone
  rw [(h.answers_eq hlink).2.2 hsent]
  exact hpart.later.data? (not_not.mpr hkey)

/-- A line is about a write that was accepted, and no write behind it got its id. -/
structure Share.Leaves (s : Share α) (before : List (InstanceOutcome Error))
    (o : InstanceOutcome Error) (after : List (InstanceOutcome Error)) (ack : WriteAck) : Prop where
  lines : s.applied.outcomes = before ++ o :: after
  action : o.action = .write
  success : o.error = none
  last : ∃ rs₁ rs₂, s.answer.writes = rs₁ ++ ⟨o.key, .ok ack⟩ :: rs₂ ∧
    ∀ r ∈ rs₂, ∀ ack', r.result = .ok ack' → ack'.id ≠ ack.id

/-- What a tracker holds as loaded agrees with what is stored, as far as a commit has written it. -/
structure Share.Agrees (s : Share α) (space : Keyspace) : Prop where
  /-- A success about a write is about one that was accepted, under the id that it got. -/
  accepted : ∀ o ∈ s.applied.outcomes, o.action = .write → o.error = none →
    ∃ ack, ⟨o.key, .ok ack⟩ ∈ s.answer.writes ∧ o.id = some ack.id
  /-- What was written is loaded under its id exactly if no success behind it is about that id. -/
  loaded : ∀ {before o after ack}, s.Leaves before o after ack →
    ((∃ i, s.after.loaded[ack.id]? = some i) ↔ ∀ o' ∈ after, ¬o'.Settles ack.id)
  /-- What is stored under the id is the record of what is loaded there, if the model keeps its laws
  and no success in front was about the key that the instance had. -/
  stored : ∀ {before o after ack i}, s.before.model.Coherent s.before.layout →
    s.Leaves before o after ack → (∀ o' ∈ before, ¬o'.Settles o.key) →
    s.after.loaded[ack.id]? = some i →
    (∀ n, ack.version = some n → s.before.model.TakesVersion n) →
    space.StoresRecord s.before.layout ack.id (i.record s.before.model)

/-- Behind a commit, what was written is loaded as it is stored, unless something else of the same
commit is about the same id or key. -/
theorem written_stored (hw : Reachable w) (hlink : w.client.fault = .none)
    (hcatalog : w.session.catalog.Registered)
    (h : Commits w w₁ shares report w') :
    runFrom w commit = (verdict report, w') ∧
      report.outcomes = shares.flatMap (·.applied.outcomes) ∧
      w'.session.trackers = shares.map (·.after) ∧
      ∀ s ∈ shares, s.Agrees w'.client.server.space := by
  refine ⟨h.runFrom_commit, h.outcomes_eq, h.trackers_eq, fun s hs => ?_⟩
  obtain ⟨ht, ⟨session, validate, lifetime, n, hprepare⟩, writes, deletes, t₁, houtcomes,
    hsettlement⟩ := h.settlement hlink hw s hs
  have hfits := h.fits hlink s hs
  have hlayout : s.before.layout ∈ w.session.catalog.layouts :=
    ((h.registers hw).of _ (List.mem_map_of_mem hs)).1
  obtain ⟨schema, hschema⟩ := hcatalog.exists_schema hlayout
  constructor
  case accepted =>
    intro o ho haction hsuccess
    rw [houtcomes] at ho
    obtain ⟨t₂, htakes, -⟩ := hsettlement.exists_takes
    obtain ⟨front, back, hlines⟩ := List.append_of_mem ho
    rw [hlines] at htakes
    obtain ⟨ack, -, -, -, -, -, hreply, hid, -⟩ := htakes.exists_written ht haction hsuccess
    exact ⟨ack, hreply, hid⟩
  case loaded =>
    intro before o after ack hleaves
    obtain ⟨rs₁, rs₂, hreplies, hlast⟩ := hleaves.last
    obtain ⟨i, i', -, -, hloaded⟩ := hsettlement.loaded_of_last ht hprepare hfits
      (houtcomes.symm.trans hleaves.lines) hleaves.action hleaves.success hreplies hlast
    rw [hloaded]
    split
    next hsettled => simpa using hsettled
    next hunsettled => simpa using hunsettled
  case stored =>
    intro before o after ack i hcoherent hleaves hunsettled hi htakes
    obtain ⟨rs₁, rs₂, hreplies, hlast⟩ := hleaves.last
    obtain ⟨r, hreply, hwrites⟩ : ∃ r, s.answer.reply = .ok r ∧ r.writes = s.answer.writes := by
      unfold Answer.writes at hreplies ⊢
      cases hreply : s.answer.reply with
      | error e =>
        rw [hreply] at hreplies
        simp at hreplies
      | ok r => exact ⟨r, rfl, rfl⟩
    obtain ⟨ks, ks', hrun, hspace⟩ := h.run_of_reply hw hlink hcatalog hs hreply
      (by rw [hwrites, hreplies]; simp)
    have hstores := hsettlement.stores_of_last ht hprepare hfits
      (houtcomes.symm.trans hleaves.lines) hleaves.action hleaves.success hreplies hlast hunsettled
      hcoherent (Schema.layout_wellFormed hschema)
      (Schema.layout_version hschema) hrun hwrites hi htakes
    intro name
    rw [field?, hspace _ (s.before.layout.keys.owns_object ack.id)]
    exact hstores name

/-- A session that has stored a hero writes it again under another name, and with it a new one. -/
theorem written_stored_heroes :
    ∃ (w w₁ w' : Work Record Unit) (shares : List (Share Record)) (report : CommitReport Error),
      Reachable w ∧ w.client.fault = .none ∧ w.session.catalog.Registered ∧
      Commits w w₁ shares report w' ∧
      (report.outcomes.map fun o => (o.action, o.key, o.id, o.error.isSome)) =
        [(.write, "new:2", some "2", false), (.write, "1", some "1", false)] ∧
      w'.session.trackers.flatMap (·.loaded.keys) = ["1", "2"] ∧
      w'.client.server.space.field? (CommitScript.heroes.keys.object "1") "name" = some "Cleo" ∧
      runFrom w commit = (verdict report, w') ∧
      report.outcomes = shares.flatMap (·.applied.outcomes) ∧
      w'.session.trackers = shares.map (·.after) ∧
      ∀ s ∈ shares, s.Agrees w'.client.server.space := by
  let m : Model Record := Sample.hero.model
  let renamed : Instance Record :=
    { storedHero 1 "Cleo" with value := m.withVersion 1 (storedHero 1 "Cleo").value }
  let stored := (runFrom (runFrom amongHeroes (add m (newHero "new:1" .null "Ada"))).2 commit).2
  let w := (runFrom (runFrom stored (add m renamed)).2 (add m (newHero "new:2" .null "Brin"))).2
  have hw : Reachable w := (((Reachable.start _ _ _ _ _).add m _).commit.add m _).add m _
  have hheroes : amongHeroes.session.catalog.Registered := .singleton rfl CommitScript.layout_hero
  have hcatalog : w.session.catalog.Registered := by
    simp only [w, stored, catalog_add, catalog_commit]
    exact hheroes
  obtain ⟨w₁, shares, report, w', h⟩ :=
    exists_commits_of_isOk hw (by decide +kernel) (by decide +kernel) (by decide +kernel)
  have hw' : (runFrom w commit).2 = w' := congrArg Prod.snd h.runFrom_commit
  refine ⟨w, w₁, w', shares, report, hw, by decide +kernel, hcatalog, h, ?_, ?_, ?_,
    written_stored hw (by decide +kernel) hcatalog h⟩
  · rw [← h.reported_eq]
    decide +kernel
  · rw [← hw']
    decide +kernel
  · rw [← hw']
    decide +kernel

/-- The id of a stored hero is queued for deletion, and another hero is to be written under it. Both
succeed: the new hero is stored, but the session has forgotten it. -/
theorem written_and_forgotten :
    ∃ (w w₁ w' : Work Record Unit) (shares : List (Share Record)) (report : CommitReport Error),
      Reachable w ∧ w.client.fault = .none ∧ Commits w w₁ shares report w' ∧
      (report.outcomes.map fun o => (o.action, o.key, o.id, o.error.isSome)) =
        [(.write, "new:2", some "1", false), (.delete, "1", some "1", false)] ∧
      w'.session.trackers.flatMap (·.loaded.keys) = [] ∧
      w'.client.server.space.field? (CommitScript.heroes.keys.object "1") "name" = some "Brin" := by
  let m : Model Record := Sample.hero.model
  let stored := (runFrom (runFrom amongHeroes (add m (newHero "new:1" .null "Ada"))).2 commit).2
  let forgotten := { stored with session := stored.session.expungeAll }
  let w := (runFrom (runFrom forgotten (deleteKey m (.int 1))).2
    (add m (newHero "new:2" (.int 1) "Brin"))).2
  have hw : Reachable w :=
    ((((Reachable.start _ _ _ _ _).add m _).commit.expungeAll).deleteKey m _).add m _
  obtain ⟨w₁, shares, report, w', h⟩ :=
    exists_commits_of_isOk hw (by decide +kernel) (by decide +kernel) (by decide +kernel)
  have hw' : (runFrom w commit).2 = w' := congrArg Prod.snd h.runFrom_commit
  refine ⟨w, w₁, w', shares, report, hw, by decide +kernel, h, ?_, ?_, ?_⟩
  · rw [← h.reported_eq]
    decide +kernel
  · rw [← hw']
    decide +kernel
  · rw [← hw']
    decide +kernel

end Session

end KeyedRecords
