import KeyedRecords.Proofs.Commit.Instances
import Mathlib.Data.List.Basic

/-!
# A commit, instance by instance

A commit takes its instances in turn. `visits` lists what each of them met and left behind, and
`run_eq` says that the reply and the key space behind a commit are those of its visits. A refused
instance leaves the key space as it met it (`visit_refused`), so a commit without its refused
instances ends the same (`commit_atomic`).
-/

namespace KeyedRecords

namespace CommitScript

open Keyspace

variable {ks ks' : Keyspace} {b : Batch}

/-- One instance of a batch. -/
inductive Turn where
  /-- An instance to delete. -/
  | delete (id : String)
  /-- An instance to write. -/
  | write (w : InstanceWrite)

/-- What comes of an instance that is not refused. -/
inductive Answer where
  /-- It is deleted, if there was one. -/
  | deleted (found : Bool)
  /-- It is written. -/
  | written (ack : WriteAck)

/-- Checks and deletes an instance. Answers whether there was a record. -/
def tryDelete (b : Batch) (id : String) : Attempt Bool := do
  match checkDelete (← get) b id with
  | .error e => throw e
  | .ok record => (deleteOne b id record).attempt

/-- Checks an instance, and deletes or writes it. -/
def Turn.attempt (b : Batch) : Turn → Attempt Answer
  | .delete id => .deleted <$> tryDelete b id
  | .write w => .written <$> tryWrite b w

/-- What an instance met, and what came of it. -/
structure Visit where
  /-- The instance. -/
  turn : Turn
  /-- The key space when it was reached. -/
  before : Keyspace
  /-- What came of it. -/
  result : Except BackendError Answer
  /-- The key space behind it. -/
  after : Keyspace

/-- Whether an instance was not refused. -/
def Visit.accepted (v : Visit) : Bool := v.result.isOk

/-- Reaches an instance. -/
def visit (b : Batch) (ks : Keyspace) (t : Turn) : Visit :=
  ⟨t, ks, (ks.run (t.attempt b)).1, (ks.run (t.attempt b)).2⟩

/-- Reaches instances one after another. -/
def visits (b : Batch) : Keyspace → List Turn → List Visit
  | _, [] => []
  | ks, t :: rest => visit b ks t :: visits b (visit b ks t).after rest

/-- The key space behind all instances. -/
def behind (ks : Keyspace) : List Visit → Keyspace
  | [] => ks
  | v :: rest => behind v.after rest

/-- The reply to the write of an instance. -/
def Visit.writeReply? (v : Visit) : Option WriteReply :=
  match v.turn, v.result with
  | .write w, .ok (.written ack) => some ⟨w.identity, .ok ack⟩
  | .write w, .error e => some ⟨w.identity, .error e⟩
  | _, _ => none

/-- The id of an instance whose record was deleted. -/
def Visit.deleted? (v : Visit) : Option String :=
  match v.turn, v.result with
  | .delete id, .ok (.deleted true) => some id
  | _, _ => none

/-- The id of an instance whose deletion was refused, and why. -/
def Visit.failedDelete? (v : Visit) : Option (String × BackendError) :=
  match v.turn, v.result with
  | .delete id, .error e => some (id, e)
  | _, _ => none

/-- The reply to a commit. -/
def replyOf (vs : List Visit) : BatchReply :=
  ⟨vs.filterMap Visit.writeReply?, vs.filterMap Visit.deleted?, vs.filterMap Visit.failedDelete?⟩

/-- The instances of a commit: those to delete come first. -/
def turnsOf (ids : List String) (writes : List InstanceWrite) : List Turn :=
  ids.map .delete ++ writes.map .write

/-- The instance to delete, if it is one. -/
def Turn.id? : Turn → Option String
  | .delete id => some id
  | .write _ => none

/-- The instance to write, if it is one. -/
def Turn.write? : Turn → Option InstanceWrite
  | .delete _ => none
  | .write w => some w

/-- The same batch with the instances of some visits only, the ids to delete one by one. -/
def only (b : Batch) (vs : List Visit) : Batch :=
  { b with
    writes := vs.filterMap (·.turn.write?)
    deletes := [.ids (vs.filterMap (·.turn.id?))] }

/-- A delete is refused and nothing has changed, or it is carried out. -/
theorem run_tryDelete (ks : Keyspace) (b : Batch) (id : String) :
    (∃ e, checkDelete ks b id = .error e ∧ ks.run (tryDelete b id) = (.error e, ks)) ∨
      ∃ record ks', checkDelete ks b id = .ok record ∧ DeleteChecked ks b id record ∧
        Deleted b id record ks ks' ∧
        ks.run (deleteOne b id record) = (.ok record.isSome, ks') ∧
        ks.run (tryDelete b id) = (.ok record.isSome, ks') := by
  unfold tryDelete
  rw [run_bind_ok (run_get ks)]
  cases hcheck : checkDelete ks b id with
  | error e => exact .inl ⟨e, rfl, rfl⟩
  | ok record =>
    have hchecked := deleteChecked hcheck
    obtain ⟨ks', hrun, hdeleted⟩ := run_deleteOne hchecked
    exact .inr ⟨record, ks', rfl, hchecked, hdeleted, hrun, run_attempt_ok hrun⟩

/-- A refused instance leaves the key space as it met it. -/
theorem visit_refused {t : Turn} (h : (visit b ks t).accepted = false) :
    (visit b ks t).after = ks := by
  unfold visit Visit.accepted at *
  cases t with
  | delete id =>
    obtain ⟨e, -, hrun⟩ | ⟨record, ks', -, -, -, -, hrun⟩ := run_tryDelete ks b id
    · rw [Turn.attempt, run_map_error hrun]
    · simp [Turn.attempt, run_map_ok hrun, Except.isOk, Except.toBool] at h
  | write w =>
    obtain ⟨e, hrun⟩ | ⟨c, id, ks₁, ks', -, -, -, hrun⟩ := run_tryWrite ks b w
    · rw [Turn.attempt, run_map_error hrun]
    · simp [Turn.attempt, run_map_ok hrun, Except.isOk, Except.toBool] at h

/-- Every visit of a list reached its instance where it says. -/
theorem eq_visit_of_mem {ts : List Turn} {v : Visit} (h : v ∈ visits b ks ts) :
    v = visit b v.before v.turn := by
  induction ts generalizing ks with
  | nil => simp [visits] at h
  | cons t rest ih =>
    rcases List.mem_cons.mp h with rfl | h
    · rfl
    · exact ih h

/-- Instances are reached where those before them have led. -/
theorem visits_append (b : Batch) (ks : Keyspace) (ts us : List Turn) :
    visits b ks (ts ++ us) = visits b ks ts ++ visits b (behind ks (visits b ks ts)) us := by
  induction ts generalizing ks with
  | nil => rfl
  | cons t rest ih => simp [visits, behind, ih]

theorem behind_append (ks : Keyspace) (vs us : List Visit) :
    behind ks (vs ++ us) = behind (behind ks vs) us := by
  induction vs generalizing ks with
  | nil => rfl
  | cons v rest ih => simp [behind, ih]

/-- All instances are visited. -/
theorem map_turn_visits (b : Batch) (ks : Keyspace) (ts : List Turn) :
    (visits b ks ts).map Visit.turn = ts := by
  induction ts generalizing ks with
  | nil => rfl
  | cons t rest ih => simp [visits, visit, ih]

/-- The instance of a visit is one of those that are visited. -/
theorem turn_mem_of_mem_visits {ts : List Turn} {v : Visit} (h : v ∈ visits b ks ts) :
    v.turn ∈ ts := by
  rw [← map_turn_visits b ks ts]
  exact List.mem_map_of_mem h

/-- Without the refused instances, the others meet and leave behind what they did with them. -/
theorem visits_accepted (b : Batch) (ks : Keyspace) (ts : List Turn) :
    visits b ks (((visits b ks ts).filter Visit.accepted).map Visit.turn) =
        (visits b ks ts).filter Visit.accepted ∧
      behind ks ((visits b ks ts).filter Visit.accepted) = behind ks (visits b ks ts) := by
  induction ts generalizing ks with
  | nil => exact ⟨rfl, rfl⟩
  | cons t rest ih =>
    -- the instances behind the first one go on where it has led
    obtain ⟨hvisits, hbehind⟩ := ih (visit b ks t).after
    cases h : (visit b ks t).accepted with
    | true =>
      have hfilter : (visits b ks (t :: rest)).filter Visit.accepted =
          visit b ks t :: (visits b (visit b ks t).after rest).filter Visit.accepted := by
        rw [visits, List.filter_cons_of_pos h]
      rw [hfilter]
      exact ⟨congrArg (visit b ks t :: ·) hvisits, hbehind⟩
    | false =>
      -- a refused instance has led nowhere, so it makes no difference to the others
      have hfilter : (visits b ks (t :: rest)).filter Visit.accepted =
          (visits b ks rest).filter Visit.accepted := by
        rw [visits, List.filter_cons_of_neg (by simp [h]), visit_refused h]
      rw [visit_refused h] at hvisits hbehind
      rw [hfilter]
      exact ⟨hvisits, by rw [hbehind, visits, behind, visit_refused h]⟩

/-- What comes of instances depends on the model of a batch, not on its lists of instances. -/
theorem visits_with (b : Batch) (writes : List InstanceWrite) (deletes : List DeleteSource)
    (ks : Keyspace) (ts : List Turn) :
    visits { b with writes, deletes } ks ts = visits b ks ts := by
  have hvisit : ∀ ks t, visit { b with writes, deletes } ks t = visit b ks t := by
    intro ks t
    cases t <;> rfl
  induction ts generalizing ks with
  | nil => rfl
  | cons t rest ih => rw [visits, visits, hvisit, ih]

/-- Deletes run as they are visited. -/
theorem run_deleteAll (ks : Keyspace) (b : Batch) (ids : List String) :
    ks.run (deleteAll b ids) =
      (.ok ((replyOf (visits b ks (ids.map .delete))).deleted,
        (replyOf (visits b ks (ids.map .delete))).failedDeletes),
        behind ks (visits b ks (ids.map .delete))) := by
  induction ids generalizing ks with
  | nil => rfl
  | cons id rest ih =>
    unfold deleteAll
    rw [run_bind_ok (run_get ks)]
    obtain ⟨e, hcheck, hrun⟩ | ⟨record, ks', hcheck, -, -, hdelete, hrun⟩ := run_tryDelete ks b id
    -- a refused delete is skipped, and the others go on from the same key space
    · have hvisit : visit b ks (.delete id) = ⟨.delete id, ks, .error e, ks⟩ := by
        rw [visit, Turn.attempt, run_map_error hrun]
      simp only [hcheck]
      rw [run_bind_ok (ih ks)]
      simp [visits, hvisit, replyOf, behind, List.filterMap_cons, Visit.deleted?,
        Visit.failedDelete?]
    · have hvisit : visit b ks (.delete id) =
          ⟨.delete id, ks, .ok (.deleted record.isSome), ks'⟩ := by
        rw [visit, Turn.attempt, run_map_ok hrun]
      simp only [hcheck]
      rw [run_bind_ok hdelete, run_bind_ok (ih ks')]
      cases record <;>
        simp [visits, hvisit, replyOf, behind, List.filterMap_cons, Visit.deleted?,
          Visit.failedDelete?]

/-- Writes run as they are visited. -/
theorem run_writeAll (ks : Keyspace) (b : Batch) (ws : List InstanceWrite) :
    ks.run (writeAll b ws) =
      (.ok (replyOf (visits b ks (ws.map .write))).writes,
        behind ks (visits b ks (ws.map .write))) := by
  induction ws generalizing ks with
  | nil => rfl
  | cons w rest ih =>
    unfold writeAll
    -- a refusal is caught, so it ends no more than the write of its instance
    have hlift : ks.run (monadLift (ExceptT.run (tryWrite b w)) :
        Step (Except BackendError WriteAck)) =
        (.ok (ks.run (tryWrite b w)).1, (ks.run (tryWrite b w)).2) := rfl
    rw [run_bind_ok hlift, run_bind_ok (ih _), run_pure]
    cases hrun : ks.run (tryWrite b w) with
    | mk result ks' =>
      cases result with
      | error e =>
        have hvisit : visit b ks (.write w) = ⟨.write w, ks, .error e, ks'⟩ := by
          rw [visit, Turn.attempt, run_map_error hrun]
        simp [visits, hvisit, replyOf, behind, Visit.writeReply?]
      | ok ack =>
        have hvisit : visit b ks (.write w) = ⟨.write w, ks, .ok (.written ack), ks'⟩ := by
          rw [visit, Turn.attempt, run_map_ok hrun]
        simp [visits, hvisit, replyOf, behind, Visit.writeReply?]

/-- Finding out which ids to delete leaves the key space as it is. -/
theorem run_idsOf (ks : Keyspace) (sources : List DeleteSource) :
    (∃ e, ks.run (idsOf sources) = (.error e, ks)) ∨
      ∃ ids, ks.run (idsOf sources) = (.ok ids, ks) := by
  induction sources with
  | nil => exact .inr ⟨[], rfl⟩
  | cons source rest ih =>
    -- once the ids of the first source are known, those of the others follow
    have hrest : ∀ ids : List String,
        (∃ e, ks.run (do return ids ++ (← idsOf rest)) = (.error e, ks)) ∨
          ∃ all, ks.run (do return ids ++ (← idsOf rest)) = (.ok all, ks) := by
      intro ids
      obtain ⟨e, hrun⟩ | ⟨more, hrun⟩ := ih
      · exact .inl ⟨e, run_bind_error hrun _⟩
      · exact .inr ⟨ids ++ more, by rw [run_bind_ok hrun, run_pure]⟩
    unfold idsOf
    cases source with
    | ids ids => exact hrest ids
    | key key =>
      cases hmembers : ks.members key with
      | error e => exact .inl ⟨e, run_bind_error (by rw [run_read, hmembers]) _⟩
      | ok ids =>
        have hread : ks.run (Step.read (·.members key)) = (.ok ids, ks) := by
          rw [run_read, hmembers]
        rw [run_bind_ok hread]
        exact hrest ids

/-- A delete gets no reply to a write. -/
theorem writeReply?_of_id {v : Visit} {id : String} (h : v.turn.id? = some id) :
    v.writeReply? = none := by
  obtain ⟨turn, before, result, after⟩ := v
  cases turn with
  | delete id => rfl
  | write w => cases h

theorem deleted?_of_write {v : Visit} {w : InstanceWrite} (h : v.turn.write? = some w) :
    v.deleted? = none ∧ v.failedDelete? = none := by
  obtain ⟨turn, before, result, after⟩ := v
  cases turn with
  | delete id => cases h
  | write w => exact ⟨rfl, rfl⟩

/-- The reply to deletes and the writes behind them. -/
theorem replyOf_append {ds ws : List Visit} (hd : ∀ v ∈ ds, v.turn.id?.isSome)
    (hw : ∀ v ∈ ws, v.turn.write?.isSome) :
    replyOf (ds ++ ws) =
      ⟨(replyOf ws).writes, (replyOf ds).deleted, (replyOf ds).failedDeletes⟩ := by
  have hwrites : ds.filterMap Visit.writeReply? = [] := by
    refine List.filterMap_eq_nil_iff.mpr fun v hv => ?_
    obtain ⟨id, hid⟩ := Option.isSome_iff_exists.mp (hd v hv)
    exact writeReply?_of_id hid
  have hdeletes : ws.filterMap Visit.deleted? = [] ∧ ws.filterMap Visit.failedDelete? = [] := by
    refine ⟨List.filterMap_eq_nil_iff.mpr fun v hv => ?_,
      List.filterMap_eq_nil_iff.mpr fun v hv => ?_⟩
    all_goals obtain ⟨w, hw⟩ := Option.isSome_iff_exists.mp (hw v hv)
    · exact (deleted?_of_write hw).1
    · exact (deleted?_of_write hw).2
  simp [replyOf, List.filterMap_append, hwrites, hdeletes]

/-- Deletes are visited as deletes. -/
theorem id?_of_mem_visits {ids : List String} {v : Visit}
    (h : v ∈ visits b ks (ids.map .delete)) : v.turn.id?.isSome := by
  obtain ⟨id, -, hid⟩ := List.mem_map.mp (turn_mem_of_mem_visits h)
  rw [← hid]
  rfl

theorem write?_of_mem_visits {ws : List InstanceWrite} {v : Visit}
    (h : v ∈ visits b ks (ws.map .write)) : v.turn.write?.isSome := by
  obtain ⟨w, -, hw⟩ := List.mem_map.mp (turn_mem_of_mem_visits h)
  rw [← hw]
  rfl

/-- An instance that is visited as a write is one of those to write. -/
theorem mem_writes_of_visits {ids : List String} {ws : List InstanceWrite} {v : Visit}
    (h : v ∈ visits b ks (turnsOf ids ws)) {w : InstanceWrite} (hw : v.turn = .write w) :
    w ∈ ws := by
  have hmem := turn_mem_of_mem_visits h
  rw [hw, turnsOf, List.mem_append] at hmem
  simpa using hmem

/-- A commit runs as its instances are visited. -/
theorem run_eq {ids : List String} (h : ks.run (idsOf b.deletes) = (.ok ids, ks)) :
    ks.run (run b) =
      (.ok (replyOf (visits b ks (turnsOf ids.eraseDups b.writes))),
        behind ks (visits b ks (turnsOf ids.eraseDups b.writes))) := by
  unfold run
  rw [run_bind_ok h, run_bind_ok (run_deleteAll ks b _), run_bind_ok (run_writeAll _ b _),
    run_pure, turnsOf, visits_append, behind_append]
  rw [replyOf_append (fun v => id?_of_mem_visits) (fun v => write?_of_mem_visits)]

/-- A commit whose ids to delete cannot be found out changes nothing. -/
theorem run_eq_of_error {e : CommandFault} (h : ks.run (idsOf b.deletes) = (.error e, ks)) :
    ks.run (run b) = (.error e, ks) :=
  run_bind_error h _

/-- The turns of visits to deletes and of writes behind them. -/
theorem turnsOf_visits {ds ws : List Visit} (hd : ∀ v ∈ ds, v.turn.id?.isSome)
    (hw : ∀ v ∈ ws, v.turn.write?.isSome) :
    turnsOf ((ds ++ ws).filterMap (·.turn.id?)) ((ds ++ ws).filterMap (·.turn.write?)) =
      (ds ++ ws).map Visit.turn := by
  have hids : ∀ t : Turn, t.id?.isSome → t.write? = none ∧ t.id?.map Turn.delete = some t := by
    intro t ht
    cases t with
    | delete id => exact ⟨rfl, rfl⟩
    | write w => cases ht
  have hwrites : ∀ t : Turn, t.write?.isSome → t.id? = none ∧ t.write?.map Turn.write = some t := by
    intro t ht
    cases t with
    | delete id => cases ht
    | write w => exact ⟨rfl, rfl⟩
  -- each part of the visits has turns of one sort only
  have hd₁ : ds.filterMap (·.turn.write?) = [] :=
    List.filterMap_eq_nil_iff.mpr fun v hv => (hids v.turn (hd v hv)).1
  have hw₁ : ws.filterMap (·.turn.id?) = [] :=
    List.filterMap_eq_nil_iff.mpr fun v hv => (hwrites v.turn (hw v hv)).1
  have hd₂ : (ds.filterMap (·.turn.id?)).map Turn.delete = ds.map Visit.turn := by
    rw [List.map_filterMap, ← List.filterMap_eq_map]
    exact List.filterMap_congr fun v hv => (hids v.turn (hd v hv)).2
  have hw₂ : (ws.filterMap (·.turn.write?)).map Turn.write = ws.map Visit.turn := by
    rw [List.map_filterMap, ← List.filterMap_eq_map]
    exact List.filterMap_congr fun v hv => (hwrites v.turn (hw v hv)).2
  rw [turnsOf, List.filterMap_append, List.filterMap_append, hd₁, hw₁, List.append_nil,
    List.nil_append, hd₂, hw₂, List.map_append]

/-- The reply without what concerns refused instances. -/
theorem replyOf_accepted (vs : List Visit) :
    replyOf (vs.filter Visit.accepted) =
      ⟨(replyOf vs).writes.filter (·.result.isOk), (replyOf vs).deleted, []⟩ := by
  -- what a visit adds to the reply depends on whether it was accepted
  have hdelete : ∀ v : Visit, v.accepted = false → v.deleted? = none := by
    rintro ⟨turn, before, result, after⟩ h
    cases result <;> cases turn <;> first | rfl | cases h
  have hfailed : ∀ v : Visit, v.accepted = true → v.failedDelete? = none := by
    rintro ⟨turn, before, result, after⟩ h
    cases result <;> cases turn <;> first | rfl | cases h
  have hwrite : ∀ v : Visit, ∀ r, v.writeReply? = some r → r.result.isOk = v.accepted := by
    rintro ⟨turn, before, result, after⟩ r h
    cases turn with
    | delete id => cases h
    | write w =>
      cases result with
      | error e => cases h; rfl
      | ok answer => cases answer <;> cases h; rfl
  induction vs with
  | nil => rfl
  | cons v rest ih =>
    simp only [replyOf, BatchReply.mk.injEq] at ih ⊢
    obtain ⟨ihwrites, ihdeleted, ihfailed⟩ := ih
    cases h : v.accepted with
    | true =>
      rw [List.filter_cons_of_pos h]
      simp only [List.filterMap_cons, hfailed v h]
      refine ⟨?_, ?_, ihfailed⟩
      · cases hr : v.writeReply? with
        | none => exact ihwrites
        | some r => simp [hwrite v r hr, h, ihwrites]
      · rw [ihdeleted]
    | false =>
      rw [List.filter_cons_of_neg (by simp [h])]
      simp only [List.filterMap_cons, hdelete v h]
      refine ⟨?_, ihdeleted, ihfailed⟩
      cases hr : v.writeReply? with
      | none => exact ihwrites
      | some r => simp [hwrite v r hr, h, ihwrites]

/-- The ids to delete are visited in their order. -/
theorem filterMap_id?_visits (b : Batch) (ks : Keyspace) (ids : List String)
    (ws : List InstanceWrite) :
    (visits b ks (turnsOf ids ws)).filterMap (·.turn.id?) = ids := by
  have hcomp : (fun v : Visit => v.turn.id?) = Turn.id? ∘ Visit.turn := rfl
  rw [hcomp, ← List.filterMap_map, map_turn_visits]
  simp [turnsOf, List.filterMap_map, Function.comp_def, Turn.id?]

/-- The accepted instances of a commit are those of a commit again. -/
theorem turnsOf_accepted (b : Batch) (ks : Keyspace) (ids : List String)
    (ws : List InstanceWrite) :
    let kept := (visits b ks (turnsOf ids ws)).filter Visit.accepted
    turnsOf (kept.filterMap (·.turn.id?)) (kept.filterMap (·.turn.write?)) =
      kept.map Visit.turn := by
  intro kept
  -- the visits to deletes come first, and still do among the accepted ones
  let ds := visits b ks (ids.map .delete)
  let us := visits b (behind ks ds) (ws.map .write)
  have hvs : visits b ks (turnsOf ids ws) = ds ++ us := visits_append ..
  have hkept : kept = ds.filter Visit.accepted ++ us.filter Visit.accepted := by
    rw [← List.filter_append, ← hvs]
  rw [hkept]
  exact turnsOf_visits (fun v hv => id?_of_mem_visits (List.mem_filter.mp hv).1)
    (fun v hv => write?_of_mem_visits (List.mem_filter.mp hv).1)

/-- The ids to delete of some visits are given one by one. -/
theorem run_idsOf_only (ks : Keyspace) (b : Batch) (vs : List Visit) :
    ks.run (idsOf (only b vs).deletes) = (.ok (vs.filterMap (·.turn.id?)), ks) := by
  unfold only
  simp only [idsOf]
  rw [run_bind_ok (run_pure ks []), run_pure, List.append_nil]

/-- A list of texts without repetitions has none. -/
theorem nodup_eraseDups : ∀ l : List String, l.eraseDups.Nodup
  | [] => List.nodup_nil
  | a :: rest => by
    -- the rest loses the first text and is then without repetitions itself
    have hlength : (rest.filter fun b => !b == a).length ≤ rest.length := List.length_filter_le ..
    rw [List.eraseDups_cons, List.nodup_cons, List.mem_eraseDups]
    exact ⟨by simp, nodup_eraseDups _⟩
termination_by l => l.length

/-- A list of texts that has no repetitions loses nothing with them. -/
theorem eraseDups_of_nodup {l : List String} (h : l.Nodup) : l.eraseDups = l := by
  induction l with
  | nil => rfl
  | cons a rest ih =>
    obtain ⟨ha, hrest⟩ := List.nodup_cons.mp h
    have hfilter : rest.filter (fun b => !b == a) = rest := by
      refine List.filter_eq_self.mpr fun b hb => ?_
      have hne : b ≠ a := fun heq => ha (heq ▸ hb)
      simpa using hne
    rw [List.eraseDups_cons, hfilter, ih hrest]

/-- Commits change the key space one instance at a time: a refused instance leaves it as it met it,
and without the refused instances a commit does the same to it, and answers the same. -/
theorem commit_atomic (b : Batch) (ks : Keyspace) :
    (∃ e, ks.run (idsOf b.deletes) = (.error e, ks) ∧ ks.run (run b) = (.error e, ks)) ∨
      ∃ ids vs, ks.run (idsOf b.deletes) = (.ok ids, ks) ∧
        vs = visits b ks (turnsOf ids.eraseDups b.writes) ∧
        ks.run (run b) = (.ok (replyOf vs), behind ks vs) ∧
        (∀ v ∈ vs, v.accepted = false → v.after = v.before) ∧
        ks.run (run (only b (vs.filter Visit.accepted))) =
          (.ok ⟨(replyOf vs).writes.filter (·.result.isOk), (replyOf vs).deleted, []⟩,
            behind ks vs) := by
  obtain ⟨e, hids⟩ | ⟨ids, hids⟩ := run_idsOf ks b.deletes
  · exact .inl ⟨e, hids, run_eq_of_error hids⟩
  refine .inr ⟨ids, _, hids, rfl, run_eq hids, fun v hv h => ?_, ?_⟩
  · rw [eq_visit_of_mem hv] at h ⊢
    exact visit_refused h
  · let turns := turnsOf ids.eraseDups b.writes
    let kept := (visits b ks turns).filter Visit.accepted
    have hturns : turnsOf (kept.filterMap (·.turn.id?)) (kept.filterMap (·.turn.write?)) =
        kept.map Visit.turn := turnsOf_accepted b ks _ _
    -- the ids that are left have no repetitions, so none is left out of them
    have hnodup : (kept.filterMap (·.turn.id?)).Nodup := by
      have hsub : (kept.filterMap (·.turn.id?)).Sublist ids.eraseDups := by
        rw [← filterMap_id?_visits b ks ids.eraseDups b.writes]
        exact List.filter_sublist.filterMap _
      exact (nodup_eraseDups ids).sublist hsub
    obtain ⟨hvisits, hbehind⟩ := visits_accepted b ks turns
    have hwrites : (only b kept).writes = kept.filterMap (·.turn.write?) := rfl
    have honly : ∀ ts, visits (only b kept) ks ts = visits b ks ts := visits_with b _ _ ks
    rw [run_eq (run_idsOf_only ks b kept), eraseDups_of_nodup hnodup, honly, hwrites, hturns,
      hvisits, replyOf_accepted, hbehind]

end CommitScript

end KeyedRecords
