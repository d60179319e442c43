import KeyedRecords.Proofs.Commit.Footprint
import KeyedRecords.Proofs.Session.FailedDeletes
import KeyedRecords.Proofs.Session.TakingOver
import Mathlib.Data.List.Perm.Subperm

/-!
# Contributions and their answers

What a tracker contributes to a commit is about what is pending in it: each instance to write is
sent or has broken rules (`Tracker.keys_of_prepare`). The store answers each contribution
(`Session.fits_answerOf`), whatever else is in the pipeline (`Session.answers_executeAll`).
-/

namespace KeyedRecords

namespace CommitScript

open Keyspace

variable {ks ks' : Keyspace} {b : Batch}

/-- Each write gets one reply. -/
theorem identities_replyOf (b : Batch) (ks : Keyspace) (ws : List InstanceWrite) :
    (replyOf (visits b ks (ws.map .write))).writes.map (·.identity) = ws.map (·.identity) := by
  induction ws generalizing ks with
  | nil => rfl
  | cons w rest ih =>
    have hcons : ∃ result, (replyOf (visits b ks ((w :: rest).map .write))).writes =
        ⟨w.identity, result⟩ ::
          (replyOf (visits b (visit b ks (.write w)).after (rest.map .write))).writes := by
      obtain ⟨e, hvisit⟩ | ⟨c, id, ks₁, ks', -, -, -, hvisit⟩ := visit_write b ks w
      all_goals
        rw [List.map_cons, visits, hvisit]
        exact ⟨_, rfl⟩
    obtain ⟨result, hcons⟩ := hcons
    rw [hcons, List.map_cons, List.map_cons, ih]

/-- Each delete has one result at most. -/
theorem nodup_replyOf {ids : List String} (h : ids.Nodup) (b : Batch) (ks : Keyspace) :
    ((replyOf (visits b ks (ids.map .delete))).deleted ++
      (replyOf (visits b ks (ids.map .delete))).failedDeletes.map Prod.fst).Nodup := by
  -- the results are about different ones of the ids
  have hsub : ∀ ids : List String, ∀ ks,
      ((replyOf (visits b ks (ids.map .delete))).deleted ++
        (replyOf (visits b ks (ids.map .delete))).failedDeletes.map Prod.fst).Subperm ids := by
    intro ids
    induction ids with
    | nil => exact fun ks => List.Subperm.refl []
    | cons id rest ih =>
      intro ks
      have ih := ih (visit b ks (.delete id)).after
      obtain ⟨e, hvisit⟩ | ⟨record, ks', -, -, -, hvisit⟩ := visit_delete b ks id
      · rw [hvisit] at ih
        rw [List.map_cons, visits, hvisit]
        exact List.perm_middle.subperm.trans ((List.subperm_cons id).mpr ih)
      · rw [hvisit] at ih
        rw [List.map_cons, visits, hvisit]
        cases record with
        | none => exact ih.trans (List.sublist_cons_self ..).subperm
        | some fields => exact (List.subperm_cons id).mpr ih
  obtain ⟨l, hperm, hsublist⟩ := hsub ids ks
  exact hperm.nodup_iff.mp (h.sublist hsublist)

/-- A commit answers its batch. -/
theorem answers_of_run {r : BatchReply} (h : ks.run (run b) = (.ok r, ks')) : r.Answers b := by
  obtain ⟨e, hids⟩ | ⟨ids, hids⟩ := run_idsOf ks b.deletes
  · rw [run_eq_of_error hids] at h
    cases h
  rw [run_eq hids, turnsOf, visits_append, replyOf_append (fun v => id?_of_mem_visits)
    (fun v => write?_of_mem_visits)] at h
  cases h
  exact ⟨identities_replyOf b _ b.writes, nodup_replyOf (nodup_eraseDups ids) b ks⟩

end CommitScript

namespace Tracker

variable {α : Type} {t : Tracker α} {session : SessionId} {validate : Bool} {lifetime n : Nat}
  {p : Prepared}

/-- The batch of a contribution is that of the model. -/
theorem batch_of_prepare (h : t.prepare session validate lifetime n = .ok p) :
    ∃ writes deletes, p.batch = CommitScript.batchOf t.layout writes deletes := by
  obtain ⟨plan, writes, -, hbatch, -⟩ := prepare_ok h
  exact ⟨writes, _, hbatch⟩

theorem deletes_of_prepare (h : t.prepare session validate lifetime n = .ok p) :
    p.deletes = t.deleteEvents := by
  obtain ⟨plan, -, h⟩ := bind_ok_iff.mp h
  cases h
  rfl

/-- The write of an instance is that of its record. -/
theorem eq_of_prepareWrite {key : IdentityKey} {i : Instance α} {w : InstanceWrite}
    (h : t.prepareWrite validate key i = .ok w) :
    w = .ofRecord t.layout key (i.record t.model)
      (t.layout.versionField.map fun _ => (t.model.version i.value).getD 0) := by
  unfold prepareWrite at h
  cases validate with
  | false => exact (Except.ok.inj h).symm
  | true =>
    simp only [if_true] at h
    obtain ⟨-, -, h⟩ := bind_ok_iff.mp h
    exact (pure_ok_iff.mp h).symm

/-- Each write that is sent is that of an instance that is to be written. -/
theorem exists_of_mem_writes (h : t.prepare session validate lifetime n = .ok p)
    {w : InstanceWrite} (hw : w ∈ p.batch.writes) :
    ∃ i, (w.identity, i) ∈ t.dirty ∧
      w = .ofRecord t.layout w.identity (i.record t.model)
        (t.layout.versionField.map fun _ => (t.model.version i.value).getD 0) := by
  obtain ⟨plan, -, h⟩ := bind_ok_iff.mp h
  cases h
  obtain ⟨tried, htried, hresult⟩ := List.mem_filterMap.mp hw
  obtain ⟨⟨key, i⟩, hmem, rfl⟩ := List.mem_map.mp htried
  dsimp only at hresult
  cases hprepared : t.prepareWrite validate key i with
  | error e => simp [hprepared, Except.toOption] at hresult
  | ok w' =>
    rw [hprepared] at hresult
    obtain rfl := Option.some.inj hresult
    have hw' := eq_of_prepareWrite hprepared
    have hkey : w'.identity = key := by rw [hw']; rfl
    rw [hkey]
    exact ⟨i, hmem, hw'⟩

/-- Each instance that is to be written is sent or has broken rules. -/
theorem keys_of_prepare (h : t.prepare session validate lifetime n = .ok p) :
    (p.invalid.map (·.1) ++ p.batch.writes.map (·.identity)).Perm (t.dirty.map Prod.fst) := by
  obtain ⟨plan, -, h⟩ := bind_ok_iff.mp h
  cases h
  dsimp only
  generalize t.dirty = dirty
  induction dirty with
  | nil => exact .refl _
  | cons entry rest ih =>
    obtain ⟨key, i⟩ := entry
    simp only [List.map_cons, List.filterMap_cons]
    cases hprepared : t.prepareWrite validate key i with
    | error e => exact ih.cons key
    | ok w =>
      -- a write that is sent has its place behind all that have broken rules
      have hkey : w.identity = key := by rw [eq_of_prepareWrite hprepared]; rfl
      simp only [Except.toOption, List.map_cons, hkey]
      exact List.perm_middle.trans (ih.cons key)

/-- A contribution changes keys of its own model only. -/
theorem beside_commandsFor (h : t.prepare session validate lifetime n = .ok p)
    (hqueries : ∀ q ∈ t.deleteQueries, q.origin.layout.keys = t.layout.keys) (ks : Keyspace) :
    Keyspace.Beside t.layout.keys.Owns ks (ks.executeAll (Session.commandsFor p)).2 := by
  cases hbatch : p.hasBatch with
  | false =>
    rw [Session.commandsFor, hbatch]
    exact .refl ks
  | true =>
    obtain ⟨plan, writes, -, hp, -⟩ := prepare_ok h
    have hkeys : p.batch.keys = t.layout.keys := by rw [hp]; rfl
    have hedits := (CommitScript.edits_run p.batch).map (f := Reply.commit)
    rw [hkeys] at hedits
    rw [Session.executeAll_commandsFor hbatch]
    exact ((beside_preamble h hqueries ks).mono fun _ htemporary => ⟨_, htemporary⟩).trans
      (Keyspace.beside_execute hedits.touches _)

end Tracker

namespace Session

open Keyspace

variable {p : Prepared} {ks : Keyspace}

/-- An answer is to its contribution. -/
theorem prepared_answerOf (p : Prepared) (replies : List Reply) :
    (answerOf p replies).prepared = p := by
  unfold answerOf
  split <;> rfl

/-- The reply in an answer is that of the script, or there was nothing to send. -/
theorem run_of_reply {r : BatchReply}
    (h : (answerOf p (ks.executeAll (commandsFor p)).1).reply = .ok r) :
    (p.batch.isEmpty = true ∧ r = .empty) ∨ p.hasBatch = true ∧
      (ks.executeAll p.preamble).2.run (CommitScript.run p.batch) =
        (.ok r, (ks.executeAll (commandsFor p)).2) := by
  cases hbatch : p.hasBatch with
  | false =>
    simp only [answerOf, hbatch, Bool.not_false, if_true] at h
    exact .inl ⟨by simpa [Prepared.hasBatch] using hbatch, (Except.ok.inj h).symm⟩
  | true =>
    have hcommand : Step.ofCommand (.eval (.commit p.batch)) =
        Reply.commit <$> CommitScript.run p.batch := rfl
    rw [reply_answerOf hbatch, mapError_ok_iff, execute_eq, hcommand] at h
    rw [executeAll_commandsFor hbatch, execute_eq, hcommand]
    cases hrun : (ks.executeAll p.preamble).2.run (CommitScript.run p.batch) with
    | mk result ks' =>
      cases result with
      | error e =>
        rw [run_map_error hrun] at h
        cases h
      | ok r' =>
        rw [run_map_ok hrun] at h ⊢
        obtain rfl := Except.ok.inj h
        exact .inr ⟨rfl, rfl⟩

/-- The store answers a contribution. -/
theorem fits_answerOf (p : Prepared) (ks : Keyspace) :
    (answerOf p (ks.executeAll (commandsFor p)).1).Fits := by
  intro r hr
  rw [prepared_answerOf]
  obtain ⟨hempty, rfl⟩ | ⟨-, hrun⟩ := run_of_reply hr
  · simp only [Batch.isEmpty, Bool.and_eq_true, List.isEmpty_iff] at hempty
    exact ⟨by rw [hempty.1]; rfl, List.nodup_nil⟩
  · exact CommitScript.answers_of_run hrun

/-- An answer does not depend on replies behind its own. -/
theorem answerOf_append {replies : List Reply} (h : replies.length = (commandsFor p).length)
    (more : List Reply) : answerOf p (replies ++ more) = answerOf p replies := by
  unfold answerOf
  cases hbatch : p.hasBatch with
  | false => rfl
  | true =>
    have hlength : p.preamble.length < replies.length := by
      rw [h, commandsFor, if_pos hbatch]
      simp
    simp only [Bool.not_true, Bool.false_eq_true, if_false, List.getElem?_append_left hlength,
      List.take_append_of_le_length (Nat.le_of_lt hlength)]

/-- What the store says of each contribution, one behind the other. -/
def answersFrom : Keyspace → List Prepared → List Answer
  | _, [] => []
  | ks, p :: rest =>
    answerOf p (ks.executeAll (commandsFor p)).1 ::
      answersFrom (ks.executeAll (commandsFor p)).2 rest

/-- The replies to a pipeline hold the answer to each contribution. -/
theorem answers_executeAll (ps : List Prepared) (ks : Keyspace) :
    answers ps (ks.executeAll (ps.flatMap commandsFor)).1 = answersFrom ks ps := by
  induction ps generalizing ks with
  | nil => rfl
  | cons p rest ih =>
    have hlength := length_executeAll ks (commandsFor p)
    rw [List.flatMap_cons, executeAll_append, answers, answersFrom, answerOf_append hlength,
      ← hlength, List.drop_left, ih]

/-- Each answer is one to the contribution in its place. -/
theorem map_prepared_answersFrom (ks : Keyspace) (ps : List Prepared) :
    (answersFrom ks ps).map (·.prepared) = ps := by
  induction ps generalizing ks with
  | nil => rfl
  | cons p rest ih => rw [answersFrom, List.map_cons, prepared_answerOf, ih]

/-- Each answer is what the store says of its contribution. -/
theorem exists_of_mem_answersFrom {ps : List Prepared} {a : Answer} (h : a ∈ answersFrom ks ps) :
    ∃ ks' : Keyspace,
      a = answerOf a.prepared (ks'.executeAll (commandsFor a.prepared)).1 := by
  induction ps generalizing ks with
  | nil => cases h
  | cons p rest ih =>
    rcases List.mem_cons.mp h with rfl | h
    · exact ⟨ks, by rw [prepared_answerOf]⟩
    · exact ih h

end Session

end KeyedRecords
