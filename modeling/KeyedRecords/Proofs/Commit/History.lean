import KeyedRecords.Proofs.Commit.Consistency

/-!
# Histories

Clients submit commits of one model one after another, and every commit takes its instances in turn.
`history` lists all of these visits. It is one list of visits from the first key space to the last
(`history_eq_visits`, `behind_history`), so what each visit preserves, a history preserves.
-/

namespace KeyedRecords

namespace CommitScript

open Keyspace

variable {ks ks' : Keyspace} {b : Batch}

/-- What a client submits in one commit. -/
structure Submission where
  /-- The instances to write. -/
  writes : List InstanceWrite
  /-- Where the ids to delete come from. -/
  deletes : List DeleteSource

/-- The instances of a submission as they are taken in turn: none, if the ids to delete cannot be
found out. -/
def Submission.turns (s : Submission) (ks : Keyspace) : List Turn :=
  match (ks.run (idsOf s.deletes)).1 with
  | .ok ids => turnsOf ids.eraseDups s.writes
  | .error _ => []

/-- The command that commits a submission. -/
def Submission.command (l : Layout) (s : Submission) : Command :=
  .eval (.commit (batchOf l s.writes s.deletes))

/-- The visits of submissions that are committed one after another. -/
def history (b : Batch) : Keyspace → List Submission → List Visit
  | _, [] => []
  | ks, s :: rest =>
    visits b ks (s.turns ks) ++ history b (behind ks (visits b ks (s.turns ks))) rest

/-- A commit leads where the visits of its submission lead. -/
theorem execute_command_snd (l : Layout) (ks : Keyspace) (s : Submission) :
    (ks.execute (s.command l)).2 = behind ks (visits (.ofLayout l) ks (s.turns ks)) := by
  unfold Submission.command Submission.turns
  rw [execute_commit_snd]
  obtain ⟨e, hids⟩ | ⟨ids, hids⟩ := run_idsOf ks s.deletes
  · rw [run_eq_of_error (b := batchOf l s.writes s.deletes) hids, hids]
    rfl
  · have hwith := visits_with (.ofLayout l) s.writes s.deletes ks (turnsOf ids.eraseDups s.writes)
    rw [run_eq (b := batchOf l s.writes s.deletes) hids, hids, ← hwith]
    rfl

/-- Commits lead where their history leads. -/
theorem behind_history (l : Layout) (ks : Keyspace) (ss : List Submission) :
    behind ks (history (.ofLayout l) ks ss) = (ks.executeAll (ss.map (·.command l))).2 := by
  induction ss generalizing ks with
  | nil => rfl
  | cons s rest ih =>
    rw [history, behind_append, ih, ← execute_command_snd]
    rfl

/-- A history is one list of visits. -/
theorem history_eq_visits (b : Batch) (ks : Keyspace) (ss : List Submission) :
    ∃ ts, history b ks ss = visits b ks ts := by
  induction ss generalizing ks with
  | nil => exact ⟨[], rfl⟩
  | cons s rest ih =>
    obtain ⟨ts, hts⟩ := ih (behind ks (visits b ks (s.turns ks)))
    exact ⟨s.turns ks ++ ts, by rw [history, hts, visits_append]⟩

/-- An instance that a history has reached as a write is one that a client has submitted. -/
theorem mem_writes_of_history {ss : List Submission} {u : Visit} (hu : u ∈ history b ks ss)
    {w : InstanceWrite} (hw : u.turn = .write w) : ∃ s ∈ ss, w ∈ s.writes := by
  induction ss generalizing ks with
  | nil => simp [history] at hu
  | cons s rest ih =>
    rcases List.mem_append.mp hu with hu | hu
    · refine ⟨s, List.mem_cons_self .., ?_⟩
      unfold Submission.turns at hu
      cases hids : (ks.run (idsOf s.deletes)).1 with
      | error e => simp [hids, visits] at hu
      | ok ids => exact mem_writes_of_visits (by simpa only [hids] using hu) hw
    · obtain ⟨s', hs', hmem⟩ := ih hu
      exact ⟨s', List.mem_cons_of_mem _ hs', hmem⟩

/-- Every visit of a history reached its instance where it says. -/
theorem eq_visit_of_mem_history {ss : List Submission} {u : Visit} (hu : u ∈ history b ks ss) :
    u = visit b u.before u.turn := by
  obtain ⟨ts, hts⟩ := history_eq_visits b ks ss
  exact eq_visit_of_mem (hts ▸ hu)

/-- A submission, and the time at which it arrives. -/
structure Arrival where
  now : Nat
  submission : Submission

/-- The visits of submissions that are committed one after another, each when it arrives: what has
expired by then is dropped first. -/
def historyAt (b : Batch) : Keyspace → List Arrival → List Visit
  | _, [] => []
  | ks, a :: rest =>
    let now := ks.sweep a.now
    let vs := visits b now (a.submission.turns now)
    vs ++ historyAt b (behind now vs) rest

/-- The key space behind submissions that are committed when they arrive. -/
def commitAt (l : Layout) : Keyspace → List Arrival → Keyspace
  | ks, [] => ks
  | ks, a :: rest => commitAt l ((ks.sweep a.now).execute (a.submission.command l)).2 rest

/-- Every visit reached its instance where it says, whatever has expired on the way. -/
theorem eq_visit_of_mem_historyAt {as : List Arrival} {u : Visit} (hu : u ∈ historyAt b ks as) :
    u = visit b u.before u.turn := by
  induction as generalizing ks with
  | nil => simp [historyAt] at hu
  | cons a rest ih =>
    rcases List.mem_append.mp hu with hu | hu
    · exact eq_visit_of_mem hu
    · exact ih hu

/-- What holds before the first of some visits, and what each of them preserves, holds before all of
them. -/
theorem holds_before {P : Keyspace → Prop} {ts : List Turn} (h : P ks)
    (hstep : ∀ u ∈ visits b ks ts, P u.before → P u.after) : ∀ u ∈ visits b ks ts, P u.before := by
  induction ts generalizing ks with
  | nil => simp [visits]
  | cons t rest ih =>
    obtain ⟨hfirst, hrest⟩ := List.forall_mem_cons.mp hstep
    exact List.forall_mem_cons.mpr ⟨h, ih (hfirst h) hrest⟩

/-- If what holds of a key space goes on to hold behind an instance just if the instance is of some
kind, it holds behind each of some instances just if all of them are. -/
theorem forall_visits_iff {P : Keyspace → Prop} {Q : Visit → Prop} {T : Turn → Prop}
    (hstep : ∀ ks t, T t → P ks → (P (visit b ks t).after ↔ Q (visit b ks t))) (h : P ks)
    {ts : List Turn} (hts : ∀ t ∈ ts, T t) :
    (∀ u ∈ visits b ks ts, P u.after) ↔ ∀ u ∈ visits b ks ts, Q u := by
  induction ts generalizing ks with
  | nil => simp [visits]
  | cons t rest ih =>
    obtain ⟨hfirst, hrest⟩ := List.forall_mem_cons.mp hts
    rw [visits, List.forall_mem_cons, List.forall_mem_cons, hstep ks t hfirst h]
    -- once the property is kept by the first instance, the others start from where it has led
    exact and_congr_right fun hkept => ih ((hstep ks t hfirst h).mpr hkept) hrest

/-- The same over a history, where the instances to write are those that clients have submitted. -/
theorem forall_history_iff {P : Keyspace → Prop} {Q : Visit → Prop} {W : InstanceWrite → Prop}
    (hstep : ∀ ks t, (∀ w, t = .write w → W w) → P ks →
      (P (visit b ks t).after ↔ Q (visit b ks t)))
    (h : P ks) {ss : List Submission} (hwrites : ∀ s ∈ ss, ∀ w ∈ s.writes, W w) :
    (∀ u ∈ history b ks ss, P u.after) ↔ ∀ u ∈ history b ks ss, Q u := by
  obtain ⟨ts, hts⟩ := history_eq_visits b ks ss
  rw [hts]
  refine forall_visits_iff hstep h fun t ht w hw => ?_
  rw [← map_turn_visits b ks ts] at ht
  obtain ⟨u, hu, rfl⟩ := List.mem_map.mp ht
  obtain ⟨s, hs, hmem⟩ := mem_writes_of_history (hts ▸ hu) hw
  exact hwrites s hs w hmem

/-- A write that is reached is refused, or it is checked, gets its id and is written. -/
theorem visit_write (b : Batch) (ks : Keyspace) (w : InstanceWrite) :
    (∃ e, visit b ks (.write w) = ⟨.write w, ks, .error e, ks⟩) ∨
      ∃ c id ks₁ ks', WriteChecked ks b w c ∧ Assigned b w ks id ks₁ ∧ Written b w c id ks₁ ks' ∧
        visit b ks (.write w) = ⟨.write w, ks, .ok (.written ⟨id, c.version⟩), ks'⟩ := by
  unfold visit
  obtain ⟨e, hrun⟩ | ⟨c, id, ks₁, ks', hc, hid, hwritten, hrun⟩ := run_tryWrite ks b w
  · exact .inl ⟨e, by rw [Turn.attempt, run_map_error hrun]⟩
  · exact .inr ⟨c, id, ks₁, ks', hc, hid, hwritten, by rw [Turn.attempt, run_map_ok hrun]⟩

/-- A delete takes away what lies under the keys of a record and its containers, if there is one,
and nothing else where records lie. -/
theorem entries_deleteOne {record : Option (Table String)} {id : String} {found : Bool}
    (hc : DeleteChecked ks b id record)
    (hrun : ks.run (deleteOne b id record) = (.ok found, ks')) (i : String) :
    ks'.entries[b.keys.object i]? =
      if record.isSome ∧ b.keys.object i ∈ doomedKeys b id then none
      else ks.entries[b.keys.object i]? := by
  obtain ⟨ks₁, hrun₁, hchanged, -⟩ := run_removeMember hc.ids id
  have hsame₁ : ks₁.entries[b.keys.object i]? = ks.entries[b.keys.object i]? :=
    hchanged.other _ (ModelKeys.InSection.ne (.object i rfl) (.ids rfl) (by simp))
  unfold deleteOne at hrun
  rw [run_bind_ok hrun₁] at hrun
  cases record with
  | none =>
    obtain rfl : ks₁ = ks' := (Prod.mk.inj hrun).2
    simpa using hsame₁
  | some fields =>
    have hfits : EntriesFit b (oldValues (some fields)) b.indices ks₁ :=
      EntriesFit.mono hc.entries (.of_changedAt (expects_ids b) hchanged)
    obtain ⟨ks₂, hrun₂, hunlinked⟩ := run_unlinkChosen hfits id
    have hdelete : ks' = ks₂.delete (doomedKeys b id) :=
      ((Prod.mk.inj ((run_bind_ok hrun₂ _).symm.trans hrun)).2).symm
    have hentry := object_not_entry b i
    have hsame₂ : ks₂.entries[b.keys.object i]? = ks.entries[b.keys.object i]? :=
      (hunlinked.other _ hentry.1 hentry.2).trans hsame₁
    simp only [hdelete, Keyspace.delete, Table.getElem?_eraseAll, hsame₂, Option.isSome_some,
      true_and]

/-- So it takes what a key held where a record lies, or leaves it. -/
theorem object_deleteOne {record : Option (Table String)} {id : String} {found : Bool}
    (hc : DeleteChecked ks b id record)
    (hrun : ks.run (deleteOne b id record) = (.ok found, ks')) (i : String) :
    ks'.data? (b.keys.object i) =
      if record.isSome ∧ b.keys.object i ∈ doomedKeys b id then none
      else ks.data? (b.keys.object i) := by
  rw [data?, entries_deleteOne hc hrun i, data?]
  split <;> rfl

/-- A delete that is reached is refused, or it is checked and carried out: then each record is taken
away or keeps its entry. -/
theorem visit_delete (b : Batch) (ks : Keyspace) (id : String) :
    (∃ e, visit b ks (.delete id) = ⟨.delete id, ks, .error e, ks⟩) ∨
      ∃ record ks', DeleteChecked ks b id record ∧ Deleted b id record ks ks' ∧
        (∀ i, ks'.entries[b.keys.object i]? = none ∨
          ks'.entries[b.keys.object i]? = ks.entries[b.keys.object i]?) ∧
        visit b ks (.delete id) = ⟨.delete id, ks, .ok (.deleted record.isSome), ks'⟩ := by
  unfold visit
  obtain ⟨e, -, hrun⟩ | ⟨record, ks', -, hc, hdeleted, hdelete, hrun⟩ := run_tryDelete ks b id
  · exact .inl ⟨e, by rw [Turn.attempt, run_map_error hrun]⟩
  · refine .inr ⟨record, ks', hc, hdeleted, fun i => ?_, by rw [Turn.attempt, run_map_ok hrun]⟩
    rw [entries_deleteOne hc hdelete i]
    split
    next => exact .inl rfl
    next => exact .inr rfl

/-- What is answered as written was an instance to write. -/
theorem exists_write_of_result {t : Turn} {ack : WriteAck}
    (h : (visit b ks t).result = .ok (.written ack)) : ∃ w, t = .write w := by
  cases t with
  | write w => exact ⟨w, rfl⟩
  | delete id =>
    obtain ⟨e, hvisit⟩ | ⟨record, ks', -, -, -, hvisit⟩ := visit_delete b ks id
    · rw [hvisit] at h
      cases h
    · rw [hvisit] at h
      cases h

/-- The id that the counter has assigned to an instance. -/
def Visit.assigned? (u : Visit) : Option String :=
  match u.turn, u.result with
  | .write w, .ok (.written ack) => if w.id = none then some ack.id else none
  | _, _ => none

/-- The id that an instance to write names. -/
def Visit.named? (u : Visit) : Option String := u.turn.write?.bind (·.id)

/-- An instance is deleted, and the record of a key goes with it. -/
def Visit.Removes (u : Visit) (key : String) : Prop :=
  u.turn.id?.isSome ∧ u.accepted ∧ (u.before.data? key).isSome ∧ (u.after.data? key).isNone

instance (u : Visit) (key : String) : Decidable (u.Removes key) :=
  inferInstanceAs (Decidable (_ ∧ _))

/-- The heroes, who have versions and are assigned their ids. -/
def heroes : Layout :=
  { tag := Sample.hero.tag, keys := .ofModel "kvm." "hero"
    identity := (Sample.assignedId .int64).field, fields := Sample.hero.schema.fields
    defaultOrdering := none, versionField := some "version" }

/-- The heroes are laid out as their declaration says. -/
theorem layout_hero : Sample.hero.schema.layout "kvm." = .ok heroes := by rfl

end CommitScript

end KeyedRecords
