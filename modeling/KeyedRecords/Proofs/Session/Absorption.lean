import KeyedRecords.Proofs.Model.Coherence
import KeyedRecords.Proofs.Query.Registered
import KeyedRecords.Proofs.Session.PendingChanges
import KeyedRecords.Proofs.Session.Registration

/-!
# Commits without handlers

Without handlers a tracker takes over its own records as if they had been edited. A record that is
not equal to itself, as it has a value that is no number, is read back by the model, which has
promised to do so (`Tracker.ReadsBack`); the keys and what is to be deleted stay as they are
(`Tracker.Alike`). Each tracker does so for itself (`Session.runFrom_editing`). Else a commit gets
to the store if its transaction is open and every model has a plan for its deletes
(`Session.exists_answering`).
-/

namespace KeyedRecords

namespace Tracker

open Operation

variable {α : Type} {t t' t'' : Tracker α} {p : Partition} {key : IdentityKey} {i : Instance α}

/-- Two trackers know the same keys, and are to delete the same. -/
structure Alike (t t' : Tracker α) : Prop where
  terms : t'.terms = t.terms
  deleted : t'.deleted = t.deleted
  keys : ∀ p (key : IdentityKey), (t'.held p)[key]?.isSome = (t.held p)[key]?.isSome

namespace Alike

theorem refl (t : Tracker α) : Alike t t := ⟨rfl, rfl, fun _ _ => rfl⟩

theorem trans (h : Alike t t') (h' : Alike t' t'') : Alike t t'' :=
  ⟨h'.terms.trans h.terms, h'.deleted.trans h.deleted,
    fun p key => (h'.keys p key).trans (h.keys p key)⟩

/-- Another instance may be put in the place of one that is to be written. -/
theorem put (hi : (t.held p)[key]? = some i) (hp : p ≠ .deleted) (i' : Instance α) :
    Alike t (t.put p key i') := by
  constructor
  case terms => simp [Tracker.terms]
  case deleted => cases p <;> first | rfl | exact absurd rfl hp
  case keys =>
    intro q k
    rw [held_put]
    split
    next heq => rw [heq.1, heq.2, hi]; rfl
    next => rfl

/-- What is to be deleted is the same. -/
theorem deleteEvents_eq (h : Alike t t') : t'.deleteEvents = t.deleteEvents := by
  obtain ⟨hmodel, -, hids, -⟩ := terms_eq_iff.mp h.terms
  simp only [deleteEvents, eventInstance, h.deleted, hmodel, hids]

/-- Instances are to be written under the same keys. -/
theorem keys_dirty (h : Alike t t') (ht : t.Sound) (ht' : t'.Sound) :
    (t'.dirty.map Prod.fst).Perm (t.dirty.map Prod.fst) := by
  have hmem : ∀ {t : Tracker α} {key : IdentityKey}, key ∈ t.dirty.map Prod.fst ↔
      (t.held .added)[key]?.isSome ∨ (t.held .modified)[key]?.isSome := by
    intro t key
    simp only [dirty, List.map_append, List.mem_append, Std.ExtTreeMap.map_fst_toList_eq_keys,
      Std.ExtTreeMap.mem_keys, Std.ExtTreeMap.mem_iff_isSome_getElem?, held]
  rw [List.perm_ext_iff_of_nodup ht'.nodup_dirty ht.nodup_dirty]
  intro key
  rw [hmem, hmem, h.keys, h.keys]

end Alike

/-- The partition of a key is that of its slot. -/
theorem Sound.partitionOf_eq (ht : t.Sound) (hslot : t.slot key = some (p, i)) :
    t.partitionOf key = some p := by
  have hi := held_of_slot hslot
  unfold partitionOf
  cases hfound : Partition.all.find? fun q => (t.held q).contains key with
  | none =>
    have hnot := List.find?_eq_none.mp hfound p (by cases p <;> simp [Partition.all])
    rw [Std.ExtTreeMap.contains_iff_mem, Std.ExtTreeMap.mem_iff_isSome_getElem?, hi] at hnot
    exact absurd rfl hnot
  | some q =>
    have hq := List.find?_some hfound
    rw [Std.ExtTreeMap.contains_iff_mem, Std.ExtTreeMap.mem_iff_isSome_getElem?] at hq
    rw [ht.sole key q p hq (by rw [hi]; rfl)]

/-- The model keeps its promise where it is asked to: the records to write that are not equal to
themselves are read back with their ids. -/
def ReadsBack (t : Tracker α) : Prop :=
  ∀ x ∈ t.dirty, (x.2.record t.model == x.2.record t.model) = false →
    t.model.ReadsBack x.2.value

instance (t : Tracker α) : Decidable t.ReadsBack := List.decidableBAll ..

/-- A tracker has yet to take over its own records of some instances. -/
structure Awaits (t : Tracker α) (entries : List (IdentityKey × Instance α)) (t' : Tracker α) :
    Prop where
  sound : t'.Sound
  alike : t.Alike t'
  left : ∀ x ∈ entries, x ∈ t'.dirty

/-- The record of an instance that is to be written is taken over as it is if it is equal to itself,
and else the instance is made of it anew. -/
theorem runFrom_absorbOne {x : IdentityKey × Instance α} (ht : t.Sound) (hx : x ∈ t.dirty) :
    ∃ p, p ≠ .deleted ∧ (t.held p)[x.1]? = some x.2 ∧
      runFrom t (absorbOne (t.eventInstance x.1 x.2)) =
        runFrom t (if x.2.record t.model == x.2.record t.model then pure ()
          else do
            let i ← Operation.ofExcept (t.rebuild x.2 (t.eventInstance x.1 x.2))
            set (t.put p x.1 i) : Tracking α Unit) := by
  unfold absorbOne
  rw [runFrom_bind_ok (runFrom_get t)]
  rcases ht.mem_dirty_iff.mp hx with hslot | hslot
  · have hi := held_of_slot hslot
    refine ⟨.added, by simp, hi, ?_⟩
    simp only [eventInstance, ht.partitionOf_eq hslot, hi]
    rfl
  · have hi := held_of_slot hslot
    refine ⟨.modified, by simp, hi, ?_⟩
    simp only [eventInstance, ht.partitionOf_eq hslot, hi]
    rfl

/-- With an instance of the same state in its place, the first of them has been taken over. -/
theorem Awaits.put {rest : List (IdentityKey × Instance α)} {i' : Instance α}
    (h : t.Awaits ((key, i) :: rest) t') (hp : p ≠ .deleted) (hi : (t'.held p)[key]? = some i)
    (hstate : i'.state = i.state) (hnew : key ∉ rest.map Prod.fst) :
    t.Awaits rest (t'.put p key i') := by
  have hother : ∀ q, q ≠ p → (t'.held q)[key]? = none := fun q hq => h.sound.held_eq_none hi hq
  have hsound : (t'.put p key i').Sound := by
    refine h.sound.put hother ?_
    rw [hstate]
    exact h.sound.suits p key i hi
  refine ⟨hsound, h.alike.trans (.put hi hp i'), fun y hy => ?_⟩
  -- the others have other keys
  have hne : y.1 ≠ key := fun heq => hnew (List.mem_map.mpr ⟨y, hy, heq⟩)
  rw [hsound.mem_dirty_iff, slot_put hother, if_neg hne]
  exact h.sound.mem_dirty_iff.mp (h.left y (List.mem_cons_of_mem _ hy))

/-- Records that are equal to themselves are taken over as they are. -/
theorem absorb_self (ht : t.Sound)
    (hequal : ∀ x ∈ t.dirty, (x.2.record t.model == x.2.record t.model) = true) :
    runFrom t (absorb t.writeEvents) = (.ok ⟨⟩, t) := by
  have hentries : ∀ entries : List (IdentityKey × Instance α), (∀ x ∈ entries, x ∈ t.dirty) →
      runFrom t (absorb (entries.map fun x => t.eventInstance x.1 x.2)) = (.ok ⟨⟩, t) := by
    intro entries h
    induction entries with
    | nil => rfl
    | cons x rest ih =>
      obtain ⟨hx, hrest⟩ := List.forall_mem_cons.mp h
      obtain ⟨p, -, -, hrun⟩ := runFrom_absorbOne ht hx
      rw [if_pos (hequal x hx)] at hrun
      rw [List.map_cons, absorb, runFrom_bind_ok hrun, ih hrest]
  exact hentries t.dirty fun _ hx => hx

/-- A tracker of a registered model has a plan for what is to be deleted, if its queries can be
lowered. -/
theorem exists_prepare (hwell : t.layout.WellFormed)
    (hqueries : ∀ q ∈ t.deleteQueries, q.Lowerable t.layout) (session : SessionId)
    (validate : Bool) (lifetime n : Nat) :
    ∃ p, t.prepare session validate lifetime n = .ok p := by
  have htree : (t.deleteTree session).Lowerable t.layout := by
    refine Tree.lowerable_unionOf rfl (List.forall_mem_cons.mpr ⟨?_, hqueries⟩)
    exact Tree.lowerable_selection (o := ⟨t.layout, some session⟩) rfl
      hwell.queryableField_identity _
  have hplan : ∃ plan, t.deletePlan session lifetime n = .ok plan := by
    obtain ⟨plan, hplan⟩ := Tree.exists_lower htree lifetime n
    unfold deletePlan
    dsimp only
    split
    · exact ⟨none, rfl⟩
    · exact ⟨some plan, by rw [hplan]; rfl⟩
  obtain ⟨plan, hplan⟩ := hplan
  exact exists_bind_ok hplan ⟨_, rfl⟩

end Tracker

namespace Session

open Operation

variable {α σ : Type} {w w₁ : Work α σ}

/-- A commit may send what is pending: nothing has told it to stop, and its transaction is open or
may be opened. -/
structure MayCommit (w : Work α σ) : Prop where
  running : w.client.cancelled = false
  opened : match w.session.transaction with
    | some t => t.isOpen = true
    | none => w.session.config.autoBegin = true

instance (w : Work α σ) : Decidable (MayCommit w) :=
  have hopened : Decidable (match w.session.transaction with
    | some t => t.isOpen = true
    | none => w.session.config.autoBegin = true) := by split <;> infer_instance
  decidable_of_iff (w.client.cancelled = false ∧ match w.session.transaction with
    | some t => t.isOpen = true
    | none => w.session.config.autoBegin = true) ⟨fun h => ⟨h.1, h.2⟩, fun h => ⟨h.1, h.2⟩⟩

/-- A session stands as another one, except that its transaction is open. -/
structure Opened (w w' : Work α σ) : Prop where
  opened : ∃ t, w'.session.transaction = some t ∧ t.isOpen = true
  /-- All else is as it was, except for the numbers of transactions. -/
  beside : ∃ transaction number, w' =
    { w with
      session := { w.session with transaction }
      client := { w.client with supply := { w.client.supply with transaction := number } } }

/-- The transaction to commit is found if there is one or may be. -/
theorem transactionToCommit_ok (h : match w.session.transaction with
      | some t => t.isOpen = true
      | none => w.session.config.autoBegin = true) :
    ∃ tx w', runFrom w transactionToCommit = (.ok tx, w') ∧ Opened w w' := by
  unfold transactionToCommit
  rw [runFrom_bind_ok (runFrom_current w)]
  cases htransaction : w.session.transaction with
  | some t =>
    rw [htransaction] at h
    refine ⟨t.id, w, ?_, ⟨t, htransaction, h⟩, w.session.transaction, _, rfl⟩
    simp only [h, if_true]
    rfl
  | none =>
    rw [htransaction] at h
    simp only [h, if_true]
    unfold begin
    rw [runFrom_bind_ok (runFrom_current w)]
    simp only [htransaction]
    exact ⟨_, _, rfl, ⟨_, rfl, rfl⟩, _, _, rfl⟩

/-- A client that was told to stop does so, and goes on otherwise. -/
theorem runFrom_checkpoint (w : Work α σ) :
    runFrom w (viaClient Client.checkpoint) =
      (if w.client.cancelled then .error .cancelled else .ok ⟨⟩, w) := by
  have hcheck : runFrom w.client Client.checkpoint =
      (if w.client.cancelled then .error .cancelled else .ok ⟨⟩, w.client) := by
    unfold Client.checkpoint
    rw [runFrom_bind_ok (runFrom_get w.client)]
    split <;> rfl
  show ((runFrom w.client Client.checkpoint).1,
    { w with client := (runFrom w.client Client.checkpoint).2 }) = _
  rw [hcheck]

/-- A commit that may not send anything says so, and does nothing else. -/
theorem commit_refused (h : ¬MayCommit w) :
    ∃ stop w', runFrom w commit = (.error stop, w') ∧
      (stop = .cancelled ∨ ∃ e, stop = .failed (.transaction e)) ∧
      w'.session.trackers = w.session.trackers ∧ w'.client.server = w.client.server := by
  by_cases hopened : match w.session.transaction with
      | some t => t.isOpen = true
      | none => w.session.config.autoBegin = true
  · have hcancelled : w.client.cancelled = true := by
      cases hcancelled : w.client.cancelled with
      | true => rfl
      | false => exact absurd ⟨hcancelled, hopened⟩ h
    obtain ⟨tx, w', hrun, -, transaction, number, heq⟩ := transactionToCommit_ok hopened
    refine ⟨.cancelled, w', ?_, .inl rfl, by rw [heq], by rw [heq]⟩
    unfold commit
    rw [runFrom_bind_ok hrun]
    refine runFrom_bind_error (e := Stop.cancelled) ?_ _
    rw [runFrom_checkpoint, heq, if_pos hcancelled]
  · have hrun : ∃ e, runFrom w transactionToCommit = (.error (.failed (.transaction e)), w) := by
      unfold transactionToCommit
      rw [runFrom_bind_ok (runFrom_current w)]
      cases htransaction : w.session.transaction with
      | some t =>
        rw [htransaction] at hopened
        simp only [hopened, if_false]
        exact ⟨_, rfl⟩
      | none =>
        rw [htransaction] at hopened
        simp only [hopened, if_false]
        exact ⟨_, rfl⟩
    obtain ⟨e, hrun⟩ := hrun
    refine ⟨_, w, ?_, .inr ⟨e, rfl⟩, rfl, rfl⟩
    unfold commit
    rw [runFrom_bind_error hrun]

/-- Without handlers the records to write are as they are. -/
theorem fireAll_ok (hhandlers : w.session.handlers = .empty) (tx : TransactionId)
    (ts : List (Tracker α)) :
    runFrom w (fireAll tx ts) = (.ok (ts.map (·.writeEvents)), w) := by
  have hfire : ∀ kind l instances, runFrom w (fire tx kind l instances) = (.ok instances, w) := by
    intro kind l instances
    have hnone : ∀ event, (Handlers.empty (σ := σ)).fire event instances w.app =
        (.ok instances, w.app) := by
      intro event
      unfold Handlers.fire
      split
      · rfl
      · cases hkind : event.kind <;> rfl
    unfold fire
    rw [runFrom_bind_ok (runFrom_get w), hhandlers]
    simp only [hnone]
    rfl
  induction ts with
  | nil => rfl
  | cons t rest ih =>
    rw [fireAll, runFrom_bind_ok (hfire _ _ _), runFrom_bind_ok (runFrom_discard_ok (hfire _ _ _)),
      runFrom_bind_ok ih]
    rfl

/-- Two sound trackers are alike. -/
def Untouched (t t' : Tracker α) : Prop := t.Sound ∧ t'.Sound ∧ t.Alike t'

/-- Without handlers a commit that may send something makes each tracker take over its own
records. -/
theorem runFrom_editing (hmay : MayCommit w) (hhandlers : w.session.handlers = .empty) :
    ∃ tx w', Opened w w' ∧
      let taken := runFrom w.session.trackers
        (Operation.each Tracker.absorb (w.session.trackers.map (·.writeEvents)))
      runFrom w editing = (taken.1.map fun _ => tx,
        { w' with session := { w'.session with trackers := taken.2 } }) := by
  obtain ⟨tx, w', hrun, hw'⟩ := transactionToCommit_ok hmay.opened
  obtain ⟨transaction, number, heq⟩ := hw'.beside
  have htrackers : w'.session.trackers = w.session.trackers := by rw [heq]
  have hhandlers' : w'.session.handlers = .empty := by rw [heq, hhandlers]
  have hcheck : runFrom w' (viaClient (σ := σ) (α := α) Client.checkpoint) = (.ok ⟨⟩, w') := by
    rw [runFrom_checkpoint, heq, hmay.running]
    rfl
  refine ⟨tx, w', hw', ?_⟩
  have hvia := runFrom_viaTrackers (w := w')
    (Operation.each Tracker.absorb (w.session.trackers.map (·.writeEvents)))
  rw [htrackers] at hvia
  unfold editing absorbEdits
  rw [runFrom_bind_ok hrun, runFrom_bind_ok hcheck, bind_assoc,
    runFrom_bind_ok (runFrom_current w'), bind_assoc,
    runFrom_bind_ok (fireAll_ok hhandlers' tx _), htrackers]
  generalize runFrom w.session.trackers
    (Operation.each Tracker.absorb (w.session.trackers.map (·.writeEvents))) = taken at hvia ⊢
  obtain ⟨result, trackers⟩ := taken
  cases result with
  | ok _ =>
    rw [runFrom_bind_ok (runFrom_discard_ok hvia)]
    rfl
  | error stop => exact runFrom_bind_error (runFrom_discard_error hvia) _

/-- What the models contribute is worked out if each of them has a plan for its deletes. -/
theorem exists_prepareAll {ts : List (Tracker α)} (h : ∀ t ∈ ts, ∀ n, ∃ p,
      t.prepare w.session.id w.session.config.validate
        w.session.catalog.config.lifetimeSeconds n = .ok p) :
    ∃ ps supply, runFrom w (prepareAll ts) =
      (.ok ps, { w with client := { w.client with supply } }) := by
  induction ts generalizing w with
  | nil => exact ⟨[], w.client.supply, rfl⟩
  | cons t rest ih =>
    obtain ⟨ht, hrest⟩ := List.forall_mem_cons.mp h
    obtain ⟨p, hp⟩ := ht w.client.supply.name
    -- the next model must not use the same names
    have hreserve : ∃ next, runFrom w (discard (viaClient (Client.reserveNames p.names))) =
        (.ok ⟨⟩, { w with client := { w.client with supply := next } }) := ⟨_, rfl⟩
    obtain ⟨next, hreserve⟩ := hreserve
    obtain ⟨ps, supply, hrun⟩ :=
      ih (w := { w with client := { w.client with supply := next } }) hrest
    refine ⟨p :: ps, supply, ?_⟩
    rw [prepareAll, runFrom_bind_ok (runFrom_get w), runFrom_bind_ok (runFrom_ofExcept hp w),
      runFrom_bind_ok hreserve, runFrom_bind_ok hrun]
    rfl

/-- The store answers when all models are prepared. -/
theorem answering_of_prepareAll (hlink : w.client.fault = .none)
    (hopened : ∃ t, w.session.transaction = some t ∧ t.isOpen = true) {ps : List Prepared}
    (hprepare : runFrom w (prepareAll w.session.trackers) = (.ok ps, w₁)) :
    ∃ found w', runFrom w answering = (.ok found, w') := by
  obtain ⟨transaction, htransaction, hopen⟩ := hopened
  obtain ⟨m, -, hw₁⟩ := prepareAll_ok hprepare
  have hexecute : ∃ w₂, runFrom w₁ execute = (.ok ⟨⟩, w₂) ∧ w₂.client.fault = .none := by
    refine ⟨{ w₁ with session :=
      { w₁.session with transaction := some { transaction with status := .executed } } },
      ?_, by rw [hw₁]; exact hlink⟩
    have hexec : transaction.execute = .ok { transaction with status := .executed } := if_pos hopen
    have htransaction₁ : w₁.session.transaction = some transaction := by rw [hw₁, htransaction]
    unfold execute
    rw [runFrom_bind_ok (runFrom_current _)]
    simp only [htransaction₁]
    rw [runFrom_bind_ok (runFrom_ofExcept hexec _)]
    rfl
  obtain ⟨w₂, hexecute, hlink₂⟩ := hexecute
  have hsend := runFrom_send hlink₂ (ps.flatMap commandsFor)
  generalize { w₂ with client := { w₂.client with
    server := w₂.client.server.sent (ps.flatMap commandsFor) } } = w₃ at hsend
  have hsettle : ∃ w₄, runFrom w₃ settle = (.ok ⟨⟩, w₄) := ⟨_, rfl⟩
  obtain ⟨w₄, hsettle⟩ := hsettle
  have hlength := Keyspace.length_executeAll w₂.client.server.sweep.space
    (ps.flatMap commandsFor)
  generalize (w₂.client.server.sweep.space.executeAll (ps.flatMap commandsFor)).1 = replies
    at hsend hlength
  refine ⟨answers ps replies, w₄, ?_⟩
  unfold answering
  rw [runFrom_bind_ok (runFrom_current w), runFrom_bind_ok hprepare, runFrom_bind_ok hexecute]
  dsimp only
  rw [runFrom_bind_ok hsend, runFrom_bind_ok hsettle]
  simp only [hlength, ne_eq, not_true_eq_false, if_false]
  rfl

/-- The store answers if each model has a plan for its deletes. -/
theorem exists_answering (hlink : w.client.fault = .none)
    (hopened : ∃ t, w.session.transaction = some t ∧ t.isOpen = true)
    (h : ∀ t ∈ w.session.trackers, ∀ n, ∃ p,
      t.prepare w.session.id w.session.config.validate
        w.session.catalog.config.lifetimeSeconds n = .ok p) :
    ∃ found w', runFrom w answering = (.ok found, w') := by
  obtain ⟨ps, supply, hprepare⟩ := exists_prepareAll h
  exact answering_of_prepareAll hlink hopened hprepare

end Session

end KeyedRecords
