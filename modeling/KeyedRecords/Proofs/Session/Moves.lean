import KeyedRecords.Proofs.Session.QueuedIds

/-!
# What is done with a session, move by move

A session is used in moves: operations of its application, and what others do meanwhile. Three kinds
of moves may leave an id queued for deletion and tracked at once (`Session.Move.Collides`): adding
or deleting a stored instance whose id is queued, reading one, and a commit in which an id clashes.
No other move does, so queue and instances are apart all along exactly if no move collides
(`Session.apart_iff_of_moves`).
-/

namespace KeyedRecords

namespace Session

open Operation

variable {α σ β : Type} {w w' : Work α σ} {m : Model α} {i : Instance α}

/-- No tracker of the session has an id queued that it holds a stored instance under. -/
def Apart (w : Work α σ) : Prop := ∀ t ∈ w.session.trackers, t.Apart

instance (w : Work α σ) : Decidable (Apart w) :=
  inferInstanceAs (Decidable (∀ t ∈ w.session.trackers, t.Apart))

/-- What may be done with a session. -/
inductive Move (α σ : Type) : Type 1 where
  /-- Others use the store, or the application changes its state. -/
  | meanwhile (client : Client) (app : σ)
  | addHandler (kind : EventKind) (handler : Handler σ)
  | add (m : Model α) (i : Instance α)
  | delete (m : Model α) (i : Instance α)
  | deleteKey (m : Model α) (id : Value)
  | deleteQuery {ε : Type} (consult : Consult ε) (m : Model α) (live : LiveQuery ε)
  | get? (m : Model α) (id : Value)
  | fetch {ε : Type} (consult : Consult ε) (m : Model α) (live : LiveQuery ε)
  | expunge (m : Model α) (i : Instance α)
  | expungeAll
  | rollback
  | begin
  | commit

/-- What a move leads to, whatever it answers. -/
def Move.run (w : Work α σ) : Move α σ → Work α σ
  | .meanwhile client app => { w with client, app }
  | .addHandler kind handler => { w with session := w.session.addHandler kind handler }
  | .add m i => (runFrom w (Session.add m i)).2
  | .delete m i => (runFrom w (Session.delete m i)).2
  | .deleteKey m id => (runFrom w (Session.deleteKey m id)).2
  | .deleteQuery consult m live => (runFrom (w, live) (Session.deleteQuery consult m)).2.1
  | .get? m id => (runFrom w (Session.get? m id)).2
  | .fetch consult m live => (runFrom (w, live) (Session.fetch consult m)).2.1
  | .expunge m i => (runFrom w (Session.expunge m i)).2
  | .expungeAll => { w with session := w.session.expungeAll }
  | .rollback => { w with session := w.session.rollback }
  | .begin => (runFrom w Session.begin).2
  | .commit => (runFrom w Session.commit).2

/-- Moves lead from what a session can come to, to what it can come to. -/
theorem Reachable.run (h : Reachable w) (move : Move α σ) : Reachable (move.run w) := by
  cases move with
  | meanwhile client app => exact h.meanwhile client app
  | addHandler kind handler => exact h.addHandler kind handler
  | add m i => exact h.add m i
  | delete m i => exact h.delete m i
  | deleteKey m id => exact h.deleteKey m id
  | deleteQuery consult m live => exact h.deleteQuery consult m live
  | get? m id => exact h.get? m id
  | fetch consult m live => exact h.fetch consult m live
  | expunge m i => exact h.expunge m i
  | expungeAll => exact h.expungeAll
  | rollback => exact h.rollback
  | begin => exact h.begin
  | commit => exact h.commit

/-- The moves of a session, each with what it starts from. -/
def steps (w : Work α σ) : List (Move α σ) → List (Work α σ × Move α σ)
  | [] => []
  | move :: rest => (w, move) :: steps (move.run w) rest

/-- What a session goes through in some moves. -/
def states (w : Work α σ) : List (Move α σ) → List (Work α σ)
  | [] => [w]
  | move :: rest => w :: states (move.run w) rest

/-- What is stored under an id, as it is read for a session. -/
def lookUp (m : Model α) (id : String) : Working α σ (Option (Instance α)) := do
  let q ← Operation.ofExcept ((← current).query (ε := Empty) m)
  Operation.on (fun w => (LiveQuery.ofQuery q, w.client))
    (fun (_, client) w => { w with client }) (LiveQuery.get? consultNone m (.text id))

/-- An instance that was read is held from then on. -/
theorem read_eq (m : Model α) (id : String) :
    read (σ := σ) m id = (do
      match ← lookUp m id with
      | some i => return some (← hold m i)
      | none => return none) := by
  unfold read lookUp
  rw [bind_assoc]
  refine bind_congr fun s => ?_
  exact (bind_assoc _ _ _).symm

/-- The id of an instance is queued. -/
def Queues (w : Work α σ) (m : Model α) (i : Instance α) : Prop :=
  ∃ t ∈ w.session.tracker? m, i.identityKey t.model ∈ t.deleteIds

/-- The id of an instance is queued, and no instance that was never stored has it for its key. -/
def QueuesNew (w : Work α σ) (m : Model α) (i : Instance α) : Prop :=
  ∃ t ∈ w.session.tracker? m,
    i.identityKey t.model ∈ t.deleteIds ∧ i.identityKey t.model ∉ t.added

/-- A stored instance may be claimed by the session. -/
def ClaimsStored (w : Work α σ) (i : Instance α) : Prop :=
  (i.state.bind w.session.id).isOk = true ∧ i.state.persistent = true

/-- A move begins to track an id that is queued, or is a commit in which an id clashes. -/
def Move.Collides (w : Work α σ) : Move α σ → Prop
  | .add m i => ClaimsStored w i ∧ Queues w m i
  | .delete m i => ClaimsStored w i ∧ QueuesNew w m i
  | .get? m id => ∃ key, w.session.encodeId m id = .ok key ∧
    (w.session.tracker? m).bind (·.partitionOf key) = none ∧
      ∃ i, (runFrom w (lookUp m key)).1 = .ok (some i) ∧ QueuesNew w m i
  | .fetch consult m live =>
    ∃ found, (runFrom (w, live) (viaQuery (LiveQuery.all consult m))).1 = .ok found ∧
      ∃ i ∈ found, QueuesNew w m i
  | .commit => ∃ w₁ shares report w', Commits w w₁ shares report w' ∧
    ∃ s ∈ shares, s.before.Clashes s.answer s.applied.outcomes
  | _ => False

section Tracker

/-- A model that was touched has its tracker. -/
theorem runFrom_touch_some {t : Tracker α} (ht : w.session.tracker? m = some t) :
    runFrom w (touch m) = (.ok t, w) := by
  unfold touch
  rw [runFrom_bind_ok (runFrom_current w), ht]
  rfl

/-- A registered model that was not touched gets a tracker, behind the others. -/
theorem runFrom_touch_none (hnone : w.session.tracker? m = none) {l : Layout}
    (hl : w.session.catalog.layout m.tag = .ok l) :
    runFrom w (touch m) = (.ok (.empty m l), { w with session := { w.session with
      trackers := w.session.trackers ++ [.empty m l] } }) := by
  unfold touch
  rw [runFrom_bind_ok (runFrom_current w), hnone]
  dsimp only
  rw [runFrom_bind_ok (runFrom_ofExcept hl w)]
  rfl

/-- A model that is not registered cannot be touched for the first time. -/
theorem runFrom_touch_error (hnone : w.session.tracker? m = none) {e : Error}
    (hl : w.session.catalog.layout m.tag = .error e) :
    runFrom w (touch m) = (.error (.failed e), w) := by
  unfold touch
  rw [runFrom_bind_ok (runFrom_current w), hnone]
  dsimp only
  rw [hl]
  rfl

/-- The tracker that a model has got is the one of the model. -/
theorem tracker?_touched {ts : List (Tracker α)}
    (hnone : ts.find? (·.layout.tag == m.tag) = none) {c : Catalog} {l : Layout}
    (hl : c.layout m.tag = .ok l) :
    (ts ++ [Tracker.empty m l]).find? (·.layout.tag == m.tag) = some (.empty m l) := by
  have htag : (Tracker.empty m l).layout.tag = m.tag := (tag_of_layout hl).2
  rw [List.find?_append, hnone, List.find?_singleton, htag]
  simp

/-- The last tracker is replaced if no other one is of the model. -/
theorem replaceTracker_append {tag : ModelTag} {ts : List (Tracker α)} {t : Tracker α}
    (hnone : ts.find? (·.layout.tag == tag) = none) (ht : t.layout.tag = tag) (t' : Tracker α) :
    replaceTracker tag t' (ts ++ [t]) = ts ++ [t'] := by
  induction ts with
  | nil => exact if_pos ht
  | cons first rest ih =>
    rw [List.find?_cons] at hnone
    split at hnone
    next => cases hnone
    next htag =>
      rw [List.cons_append, replaceTracker, if_neg (by simpa using htag), ih hnone,
        List.cons_append]

/-- What an operation on the tracker of a model does to the trackers of a session. -/
theorem trackers_viaTracker (w : Work α σ) (m : Model α) (op : Tracker.Tracking α β) :
    (∃ us t vs, w.session.tracker? m = some t ∧ w.session.trackers = us ++ t :: vs ∧
        (runFrom w (viaTracker m op)).2.session.trackers = us ++ (runFrom t op).2 :: vs) ∨
      w.session.tracker? m = none ∧
        ((runFrom w (viaTracker m op)).2.session.trackers = w.session.trackers ∨
          ∃ l, (runFrom w (viaTracker m op)).2.session.trackers =
            w.session.trackers ++ [(runFrom (.empty m l) op).2]) := by
  unfold viaTracker
  cases htracker : w.session.tracker? m with
  | some t =>
    obtain ⟨us, vs, htrackers, hreplace⟩ := replaceTracker_of_find? htracker
    refine .inl ⟨us, t, vs, rfl, htrackers, ?_⟩
    rw [runFrom_bind_ok (runFrom_touch_some htracker)]
    show replaceTracker m.tag (runFrom ((w.session.tracker? m).getD t) op).2 w.session.trackers = _
    rw [htracker, Option.getD_some, hreplace]
  | none =>
    refine .inr ⟨rfl, ?_⟩
    cases hl : w.session.catalog.layout m.tag with
    | error e => exact .inl (by rw [runFrom_bind_error (runFrom_touch_error htracker hl)])
    | ok l =>
      refine .inr ⟨l, ?_⟩
      have hfind : (w.session.trackers ++ [Tracker.empty m l]).find? (·.layout.tag == m.tag) = _ :=
        tracker?_touched htracker hl
      rw [runFrom_bind_ok (runFrom_touch_none htracker hl)]
      show replaceTracker m.tag (runFrom (((w.session.trackers ++ [Tracker.empty m l]).find?
        (·.layout.tag == m.tag)).getD (Tracker.empty m l)) op).2
          (w.session.trackers ++ [Tracker.empty m l]) = _
      rw [hfind, Option.getD_some, replaceTracker_append htracker (tag_of_layout hl).2]

/-- An operation on the tracker of a model keeps ids and instances apart exactly if it does so in
that tracker. -/
theorem apart_viaTracker_iff (hw : Apart w) {op : Tracker.Tracking α β}
    (hempty : ∀ l, (runFrom (Tracker.empty m l) op).2.Apart) :
    Apart (runFrom w (viaTracker m op)).2 ↔
      ∀ t ∈ w.session.tracker? m, (runFrom t op).2.Apart := by
  obtain ⟨us, t, vs, htracker, htrackers, hafter⟩ | ⟨htracker, hafter⟩ :=
    trackers_viaTracker w m op
  · rw [Apart, htrackers, List.forall_mem_append, List.forall_mem_cons] at hw
    rw [Apart, hafter, List.forall_mem_append, List.forall_mem_cons, htracker]
    simp only [Option.mem_some_iff, forall_eq']
    exact ⟨fun h => h.2.1, fun h => ⟨hw.1, h, hw.2.2⟩⟩
  · refine iff_of_true ?_ (by simp [htracker])
    rcases hafter with hafter | ⟨l, hafter⟩
    · rwa [Apart, hafter]
    · rw [Apart, hafter, List.forall_mem_append]
      exact ⟨hw, by simpa using hempty l⟩

/-- The tracker of a model that was touched is one of those of the session. -/
theorem mem_of_tracker? {t : Tracker α} (h : t ∈ w.session.tracker? m) : t ∈ w.session.trackers :=
  List.mem_of_find?_eq_some h

end Tracker

section Edits

/-- A claim changes nothing but whose the instance is, or the operation stops there. -/
theorem runFrom_claim_bind (w : Work α σ) (i : Instance α)
    (next : Instance α → Working α σ β) :
    (i.state.bind w.session.id).isOk = true ∧
        runFrom w (claim i >>= next) =
          runFrom w (next { i with state := { i.state with session := some w.session.id } }) ∨
      (i.state.bind w.session.id).isOk = false ∧ (runFrom w (claim i >>= next)).2 = w := by
  have hclaim : runFrom w (claim (σ := σ) i) = match i.state.bind w.session.id with
      | .ok state => (.ok { i with state }, w)
      | .error e => (.error (.failed e), w) := by
    unfold claim
    rw [runFrom_bind_ok (runFrom_current w)]
    cases i.state.bind w.session.id <;> rfl
  cases hbind : i.state.bind w.session.id with
  | error e =>
    rw [hbind] at hclaim
    exact .inr ⟨rfl, by rw [runFrom_bind_error hclaim]⟩
  | ok state =>
    rw [hbind] at hclaim
    have hstate : state = { i.state with session := some w.session.id } := by
      unfold Lifecycle.bind at hbind
      split at hbind
      · split at hbind
        · exact (Except.ok.inj hbind).symm
        · cases hbind
      · exact (Except.ok.inj hbind).symm
    exact .inl ⟨rfl, by rw [runFrom_bind_ok hclaim, hstate]⟩

variable (hsound : Sound w) (hw : Apart w)
include hsound hw

/-- Adding an instance. -/
theorem apart_add_iff (m : Model α) (i : Instance α) :
    Apart (runFrom w (add m i)).2 ↔ ¬(ClaimsStored w i ∧ Queues w m i) := by
  unfold add
  obtain ⟨hok, hrun⟩ | ⟨hok, hrun⟩ := runFrom_claim_bind w i fun i => viaTracker m (Tracker.add i)
  · rw [hrun, apart_viaTracker_iff hw fun l =>
      (Tracker.apart_add (.empty m l) (.empty m l) _).mpr fun hand => nomatch hand.2]
    simp only [ClaimsStored, hok, true_and, Queues, not_and, not_exists]
    refine ⟨fun h hstored t ht hqueued => ?_, fun h t ht => ?_⟩
    · have hmem := mem_of_tracker? ht
      exact (Tracker.apart_add (hsound t hmem) (hw t hmem) _).mp (h t ht) ⟨hstored, hqueued⟩
    · have hmem := mem_of_tracker? ht
      exact (Tracker.apart_add (hsound t hmem) (hw t hmem) _).mpr fun hand => h hand.1 t ht hand.2
  · rw [hrun]
    exact iff_of_true hw (by simp [ClaimsStored, hok])

/-- Planning to delete an instance. -/
theorem apart_delete_iff (m : Model α) (i : Instance α) :
    Apart (runFrom w (delete m i)).2 ↔ ¬(ClaimsStored w i ∧ QueuesNew w m i) := by
  unfold delete
  obtain ⟨hok, hrun⟩ | ⟨hok, hrun⟩ :=
    runFrom_claim_bind w i fun i => viaTracker m (Tracker.delete i)
  · rw [hrun, apart_viaTracker_iff hw fun l =>
      (Tracker.apart_delete (.empty m l) (.empty m l) _).mpr fun hand => nomatch hand.2.1]
    simp only [ClaimsStored, hok, true_and, QueuesNew, not_and, not_exists]
    refine ⟨fun h hstored t ht hqueued hnew => ?_, fun h t ht => ?_⟩
    · have hmem := mem_of_tracker? ht
      exact (Tracker.apart_delete (hsound t hmem) (hw t hmem) _).mp (h t ht)
        ⟨hstored, hqueued, hnew⟩
    · have hmem := mem_of_tracker? ht
      exact (Tracker.apart_delete (hsound t hmem) (hw t hmem) _).mpr fun hand =>
        h hand.1 t ht hand.2.1 hand.2.2
  · rw [hrun]
    exact iff_of_true hw (by simp [ClaimsStored, hok])

/-- Planning to delete an id. -/
theorem Apart.deleteKey (m : Model α) (id : Value) : Apart (runFrom w (deleteKey m id)).2 := by
  unfold Session.deleteKey
  rw [runFrom_bind_ok (runFrom_current w)]
  cases hid : w.session.encodeId m id with
  | error e => exact hw
  | ok key =>
    rw [runFrom_bind_ok (runFrom_ofExcept rfl w)]
    refine (apart_viaTracker_iff hw fun l => ?_).mpr fun t ht => ?_
    · exact Tracker.Apart.deleteId (.empty m l) (.empty m l) key
    · have hmem := mem_of_tracker? ht
      exact Tracker.Apart.deleteId (hsound t hmem) (hw t hmem) key

/-- Forgetting an instance. -/
theorem Apart.expunge (m : Model α) (i : Instance α) : Apart (runFrom w (expunge m i)).2 := by
  refine (apart_viaTracker_iff hw fun l => ?_).mpr fun t ht => ?_
  · exact Tracker.Apart.expunge (.empty m l) (.empty m l) _
  · have hmem := mem_of_tracker? ht
    exact Tracker.Apart.expunge (hsound t hmem) (hw t hmem) _

end Edits

/-- Planning to delete what a tree matches. -/
theorem Apart.deleteMatching (hw : Apart w) (m : Model α) (tree : Tree) :
    Apart (runFrom w (deleteMatching m tree)).2 := by
  refine (apart_viaTracker_iff hw fun l => ?_).mpr fun t ht => ?_
  · exact (Tracker.Apart.empty m l).deleteMatching tree
  · exact (hw t (mem_of_tracker? ht)).deleteMatching tree

section Reading

/-- A tracker that has replaced that of its model is the one of the model. -/
theorem find?_replaceTracker {tag : ModelTag} {ts : List (Tracker α)} {t t' : Tracker α}
    (h : ts.find? (·.layout.tag == tag) = some t) (ht' : t'.layout.tag = tag) :
    (replaceTracker tag t' ts).find? (·.layout.tag == tag) = some t' := by
  induction ts with
  | nil => cases h
  | cons first rest ih =>
    rw [List.find?_cons] at h
    rw [replaceTracker]
    split
    next => rw [List.find?_cons_of_pos (by simpa using ht')]
    next hne =>
      rw [List.find?_cons_of_neg (by simpa using hne)]
      split at h
      next heq => exact absurd (by simpa using heq) hne
      next => exact ih h

/-- The last of two trackers of a model that replace one another stays. -/
theorem replaceTracker_replaceTracker {tag : ModelTag} {t' : Tracker α}
    (ht' : t'.layout.tag = tag) (t'' : Tracker α) (ts : List (Tracker α)) :
    replaceTracker tag t'' (replaceTracker tag t' ts) = replaceTracker tag t'' ts := by
  induction ts with
  | nil => rfl
  | cons first rest ih =>
    rw [replaceTracker]
    split
    next heq => rw [replaceTracker, if_pos ht', replaceTracker, if_pos heq]
    next hne => rw [replaceTracker, if_neg hne, replaceTracker, if_neg hne, ih]

/-- An instance that was read is claimed and held without fail. -/
theorem runFrom_hold {t : Tracker α} (ht : w.session.tracker? m = some t) (hi : AsRead i) :
    ∃ held t', Tracker.Gains t (· = i.identityKey t.model) t' ∧
      runFrom w (hold m i) = (.ok held,
        { w with session := { w.session with
          trackers := replaceTracker m.tag t' w.session.trackers } }) := by
  obtain ⟨placeholder, hstate⟩ := hi
  let i' : Instance α := { i with state := { i.state with session := some w.session.id } }
  have hclaim : runFrom w (claim (σ := σ) i) = (.ok i', w) := by
    unfold claim
    rw [runFrom_bind_ok (runFrom_current w), hstate]
    rw [show i' = { i with state := { Lifecycle.loaded placeholder with
      session := some w.session.id } } by simp only [i', hstate]]
    rfl
  have hmark : ∃ held, (runFrom t (Tracker.markLoaded i')).1 = .ok held := by
    unfold Tracker.markLoaded
    rw [runFrom_bind_ok (runFrom_get t)]
    dsimp only
    split <;> exact ⟨_, rfl⟩
  obtain ⟨held, hheld⟩ := hmark
  refine ⟨held, (runFrom t (Tracker.markLoaded i')).2, Tracker.gains_markLoaded t i', ?_⟩
  unfold hold viaTracker
  rw [runFrom_bind_ok hclaim, runFrom_bind_ok (runFrom_touch_some ht)]
  have hpart : runFrom ((w.session.tracker? m).getD t) (Tracker.markLoaded i') =
      (.ok held, (runFrom t (Tracker.markLoaded i')).2) := by
    rw [ht, Option.getD_some]
    exact Prod.ext hheld rfl
  exact runFrom_on hpart

/-- Instances that were read are held one by one. -/
theorem runFrom_holdAll {t : Tracker α} (ht : w.session.tracker? m = some t)
    {is : List (Instance α)} (hread : ∀ i ∈ is, AsRead i) :
    ∃ t', Tracker.Gains t (fun key => ∃ i ∈ is, key = i.identityKey t.model) t' ∧
      (runFrom w (holdAll m is)).2 = { w with session := { w.session with
        trackers := replaceTracker m.tag t' w.session.trackers } } := by
  have htag : t.layout.tag = m.tag := by simpa using List.find?_some ht
  induction is generalizing w t with
  | nil =>
    refine ⟨t, by simpa using Tracker.Gains.refl t, ?_⟩
    obtain ⟨us, vs, htrackers, hreplace⟩ := replaceTracker_of_find? ht
    rw [hreplace, ← htrackers]
    rfl
  | cons i rest ih =>
    obtain ⟨hi, hrest⟩ := List.forall_mem_cons.mp hread
    obtain ⟨held, t₁, hgains, hrun⟩ := runFrom_hold ht hi
    have htag₁ : t₁.layout.tag = m.tag := by rw [hgains.layout, htag]
    have ht₁ := find?_replaceTracker ht htag₁
    generalize hw₁ : ({ w with session := { w.session with
      trackers := replaceTracker m.tag t₁ w.session.trackers } } : Work α σ) = w₁ at hrun
    have ht₁ : w₁.session.tracker? m = some t₁ := by rw [← hw₁]; exact ht₁
    obtain ⟨t', hgains', hrun'⟩ := ih ht₁ hrest htag₁
    refine ⟨t', ?_, ?_⟩
    · have htrans := hgains.trans hgains'
      simpa only [hgains.model, List.exists_mem_cons_iff] using htrans
    · rw [holdAll, runFrom_bind_ok hrun]
      have hbehind : (runFrom w₁ (do
          let __do_lift ← holdAll m rest
          return held :: __do_lift)).2 = (runFrom w₁ (holdAll m rest)).2 := by
        cases hall : runFrom w₁ (holdAll m rest) with
        | mk result w₂ =>
          cases result with
          | ok => rw [runFrom_bind_ok hall]; rfl
          | error => rw [runFrom_bind_error hall]
      rw [hbehind, hrun', ← hw₁]
      simp only [replaceTracker_replaceTracker htag₁]

/-- A session is as apart as the trackers that it would have. -/
theorem apart_replaceTracker_iff (hw : Apart w) {t t' : Tracker α} {K : IdentityKey → Prop}
    (ht : w.session.tracker? m = some t) (hgains : Tracker.Gains t K t') :
    (∀ u ∈ replaceTracker m.tag t' w.session.trackers, u.Apart) ↔
      ¬∃ key, K key ∧ key ∈ t.deleteIds ∧ key ∉ t.added := by
  rw [← hgains.apart_iff (hw t (mem_of_tracker? ht))]
  obtain ⟨us, vs, htrackers, hreplace⟩ := replaceTracker_of_find? ht
  rw [Apart, htrackers, List.forall_mem_append, List.forall_mem_cons] at hw
  rw [hreplace, List.forall_mem_append, List.forall_mem_cons]
  exact ⟨fun h => h.2.1, fun h => ⟨hw.1, h, hw.2.2⟩⟩

/-- Holding an instance that was read. -/
theorem apart_hold_iff (hw : Apart w) (m : Model α) (hi : AsRead i) :
    Apart (runFrom w (hold m i)).2 ↔ ¬QueuesNew w m i := by
  obtain ⟨placeholder, hstate⟩ := hi
  have hclaims : (i.state.bind w.session.id).isOk = true := by rw [hstate]; rfl
  unfold hold
  obtain ⟨-, hrun⟩ | ⟨hok, -⟩ := runFrom_claim_bind w i fun i => viaTracker m (Tracker.markLoaded i)
  · rw [hrun, apart_viaTracker_iff hw fun l =>
      ((Tracker.gains_markLoaded _ _).apart_iff (.empty m l)).mpr fun ⟨_, _, hqueued, _⟩ =>
        nomatch hqueued]
    have hmark : ∀ t ∈ w.session.tracker? m, (runFrom t (Tracker.markLoaded
        { i with state := { i.state with session := some w.session.id } })).2.Apart ↔
          ¬(i.identityKey t.model ∈ t.deleteIds ∧ i.identityKey t.model ∉ t.added) := by
      intro t ht
      refine ((Tracker.gains_markLoaded t _).apart_iff (hw t (mem_of_tracker? ht))).trans ?_
      simp only [exists_eq_left]
      rfl
    rw [forall₂_congr hmark]
    simp only [QueuesNew, not_exists, not_and]
  · rw [hclaims] at hok
    cases hok

/-- Looking for what is stored changes nothing in the session, and finds what was read. -/
theorem lookUp_meets (s : Session α σ) (m : Model α) (id : String) :
    Meets (fun w => w.session = s) (lookUp m id)
      (fun found w => w.session = s ∧ ∀ i, found = some i → AsRead i) fun _ w => w.session = s := by
  unfold lookUp
  refine (current_meets _).bind fun s' => ?_
  refine Meets.bind (meets_ofExcept (Q := fun _ w => w.session = s) (fun _ _ _ h => h.2)
    fun _ _ _ h => h.2) fun q => ?_
  exact (get?_meets consultNone m (.text id)).on (fun _ _ => trivial)
    (fun _ hw _ _ hread => ⟨hw, hread⟩) fun _ hw _ _ _ => hw

/-- Whether queue and instances are apart depends on the trackers only. -/
theorem Apart.congr (hw : Apart w) (h : w'.session.trackers = w.session.trackers) : Apart w' := by
  rwa [Apart, h]

/-- Looking for an instance. -/
theorem apart_get?_iff (hw : Apart w) (m : Model α) (id : Value) :
    Apart (runFrom w (get? m id)).2 ↔ ¬Move.Collides w (.get? m id) := by
  unfold get?
  rw [runFrom_bind_ok (runFrom_current w)]
  cases hid : w.session.encodeId m id with
  | error e => exact iff_of_true hw fun ⟨key, hkey, _⟩ => by rw [hid] at hkey; cases hkey
  | ok key =>
    rw [runFrom_bind_ok (runFrom_ofExcept rfl w)]
    have hcollides : Move.Collides w (.get? m id) ↔
        (w.session.tracker? m).bind (·.partitionOf key) = none ∧
          ∃ i, (runFrom w (lookUp m key)).1 = .ok (some i) ∧ QueuesNew w m i := by
      simp only [Move.Collides, hid, Except.ok.injEq, exists_eq_left']
    have hnone : ((w.session.tracker? m).bind fun t => (t.partitionOf key).map (t, ·)) = none ↔
        (w.session.tracker? m).bind (·.partitionOf key) = none := by
      cases w.session.tracker? m <;> simp
    rw [hcollides, ← hnone]
    split
    next hheld => exact iff_of_true hw fun hand => by rw [hheld] at hand; cases hand.1
    next hheld => exact iff_of_true hw fun hand => by rw [hheld] at hand; cases hand.1
    next hfree =>
      simp only [hfree, true_and]
      have hmeets := lookUp_meets w.session m key w rfl
      rw [read_eq]
      cases hlook : runFrom w (lookUp m key) with
      | mk result w₁ =>
        rw [hlook] at hmeets
        cases result with
        | error e =>
          rw [runFrom_bind_error hlook]
          exact iff_of_true (hw.congr (congrArg Session.trackers hmeets)) (by simp)
        | ok found =>
          obtain ⟨hsession, hread⟩ := hmeets
          rw [runFrom_bind_ok hlook]
          cases found with
          | none => exact iff_of_true (hw.congr (congrArg Session.trackers hsession)) (by simp)
          | some i =>
            have hhold :=
              apart_hold_iff (hw.congr (congrArg Session.trackers hsession)) m (hread i rfl)
            rw [QueuesNew, hsession] at hhold
            simp only [Except.ok.injEq, Option.some.injEq, exists_eq_left', QueuesNew]
            rw [← hhold]
            have hbehind : (runFrom w₁ (do return some (← hold m i))).2 =
                (runFrom w₁ (hold m i)).2 := by
              cases hrun : runFrom w₁ (hold m i) with
              | mk result w₂ =>
                cases result with
                | ok => rw [runFrom_bind_ok hrun]; rfl
                | error => rw [runFrom_bind_error hrun]
            rw [hbehind]

/-- What a query is asked changes nothing in the session. -/
theorem viaQuery_all_meets {ε : Type} (consult : Consult ε) (s : Session α σ) (m : Model α) :
    Meets (fun x => x.1.session = s) (viaQuery (LiveQuery.all consult m))
      (fun found x => x.1.session = s ∧ ∀ i ∈ found, AsRead i) fun _ x => x.1.session = s :=
  (all_meets consult m).on (fun _ _ => trivial) (fun _ hs _ _ hread => ⟨hs, hread⟩)
    fun _ hs _ _ _ => hs

/-- Touching a model and holding instances of it that were read. -/
theorem apart_touch_holdAll_iff (hw : Apart w) (m : Model α) {is : List (Instance α)}
    (hread : ∀ i ∈ is, AsRead i) :
    Apart (runFrom w (do
      discard (touch m)
      holdAll m is)).2 ↔ ¬∃ i ∈ is, QueuesNew w m i := by
  have hheld : ∀ {w₁ : Work α σ} {t : Tracker α}, Apart w₁ → w₁.session.tracker? m = some t →
      (Apart (runFrom w₁ (holdAll m is)).2 ↔ ¬∃ i ∈ is, QueuesNew w₁ m i) := by
    intro w₁ t hw₁ ht
    obtain ⟨t', hgains, hrun⟩ := runFrom_holdAll ht hread
    rw [hrun]
    refine (apart_replaceTracker_iff hw₁ ht hgains).trans (not_congr ?_)
    simp only [QueuesNew, ht, Option.mem_some_iff, exists_eq_left']
    exact ⟨fun ⟨_, ⟨i, hi, hkey⟩, hqueued⟩ => ⟨i, hi, hkey ▸ hqueued⟩,
      fun ⟨i, hi, hqueued⟩ => ⟨_, ⟨i, hi, rfl⟩, hqueued⟩⟩
  cases ht : w.session.tracker? m with
  | some t =>
    rw [runFrom_bind_ok (runFrom_discard_ok (runFrom_touch_some ht)), hheld hw ht]
  | none =>
    -- no id is queued of a model that is touched for the first time
    have hnone : ∀ i, ¬QueuesNew w m i := fun i ⟨t, ht', _⟩ => by
      rw [ht] at ht'
      cases ht'
    refine iff_of_true ?_ fun ⟨i, _, hi⟩ => hnone i hi
    cases hl : w.session.catalog.layout m.tag with
    | error e =>
      rwa [runFrom_bind_error (runFrom_discard_error (runFrom_touch_error ht hl))]
    | ok l =>
      let w₁ : Work α σ := { w with session := { w.session with
        trackers := w.session.trackers ++ [.empty m l] } }
      have hw₁ : Apart w₁ := by
        rw [Apart, List.forall_mem_append]
        exact ⟨hw, by simpa using Tracker.Apart.empty m l⟩
      have ht₁ : w₁.session.tracker? m = some (.empty m l) := tracker?_touched ht hl
      rw [runFrom_bind_ok (runFrom_discard_ok (runFrom_touch_none ht hl)), hheld hw₁ ht₁]
      rintro ⟨i, -, t, ht', hqueued, -⟩
      rw [ht₁] at ht'
      obtain rfl := Option.some.inj ht'
      cases hqueued

/-- Fetching what a query matches. -/
theorem apart_fetch_iff {ε : Type} (hw : Apart w) (consult : Consult ε) (m : Model α)
    (live : LiveQuery ε) :
    Apart (runFrom (w, live) (fetch consult m)).2.1 ↔ ¬Move.Collides w (.fetch consult m live) := by
  have hmeets := viaQuery_all_meets consult w.session m (w, live) rfl
  unfold fetch
  simp only [Move.Collides]
  cases hall : runFrom (w, live) (viaQuery (LiveQuery.all consult m)) with
  | mk result s =>
    obtain ⟨w₁, live₁⟩ := s
    rw [hall] at hmeets
    cases result with
    | error e =>
      rw [runFrom_bind_error hall]
      exact iff_of_true (hw.congr (congrArg Session.trackers hmeets)) (by simp)
    | ok found =>
      obtain ⟨hsession, hread⟩ := hmeets
      rw [runFrom_bind_ok hall]
      have hheld := apart_touch_holdAll_iff (hw.congr (congrArg Session.trackers hsession)) m hread
      simp only [QueuesNew] at hheld
      rw [hsession] at hheld
      simp only [Except.ok.injEq, exists_eq_left', QueuesNew]
      exact hheld

/-- Planning to delete what a query matches. -/
theorem Apart.deleteQuery {ε : Type} (hw : Apart w) (consult : Consult ε) (m : Model α)
    (live : LiveQuery ε) : Apart (runFrom (w, live) (deleteQuery consult m)).2.1 := by
  have hrest : Keeps (fun s : Work α σ × LiveQuery ε => Apart s.1)
      (do
        let tree ← viaQuery (LiveQuery.construct consult)
        viaWork (Session.deleteMatching m tree)) := by
    refine Meets.bind (Q := fun _ s => Apart s.1) (keeps_of_behind fun _ hs => ?_) fun tree => ?_
    · exact hs
    exact keeps_of_behind fun s hs => Apart.deleteMatching (w := s.1) hs m tree
  have hall : Keeps (fun s : Work α σ × LiveQuery ε => Apart s.1)
      (Session.deleteQuery consult m) := by
    unfold Session.deleteQuery
    refine meets_get.bind fun s => ?_
    obtain ⟨w, live⟩ := s
    dsimp only
    split
    next =>
      split
      next => exact meets_throw_bind fun _ h => h.2
      next => exact hrest.pre fun _ h => h.2
    next => exact hrest.pre fun _ h => h.2
  exact hall.behind (s := (w, live)) hw

end Reading

section Commits

/-- What handlers edit leaves each tracker like one that there was. -/
theorem editing_alike (w : Work α σ) :
    ∀ t' ∈ (runFrom w editing).2.session.trackers, ∃ t ∈ w.session.trackers, t.Alike t' := by
  have halike : Keeps (Holds fun _ ts => ∀ t' ∈ ts, ∃ t ∈ w.session.trackers, t.Alike t')
      (editing (α := α) (σ := σ)) := by
    refine keeps_editing_of (.holds _) fun edits => keeps_of_behind fun w' hw' t'' ht'' => ?_
    obtain ⟨t', ht', halike'⟩ := exists_of_forall₂
      (forall₂_each Tracker.Alike.refl (fun es _ => Tracker.absorb_alike es) edits _) ht''
    obtain ⟨t, ht, halike⟩ := hw' t' ht'
    exact ⟨t, ht, halike.trans halike'⟩
  exact halike.behind fun t ht => ⟨t, ht, .refl t⟩

/-- Asking the store leaves the trackers as they are. -/
theorem keeps_answering (I : Catalog → List (Tracker α) → Prop) :
    Keeps (Holds (σ := σ) I) answering := by
  have hlasting : Lasting (Holds (σ := σ) I) := .holds I
  unfold answering
  refine (current_meets _).bind fun s => Meets.pre (P := Holds I) ?_ fun _ h => h.2
  refine (keeps_prepareAll hlasting.names _).bind fun prepared => (keeps_execute hlasting).bind
    fun _ => (keeps_send _).bind fun replies => (keeps_settle hlasting).bind fun _ => ?_
  split
  next => exact (keeps_finish hlasting).bind fun _ => meets_throw_bind fun _ h => h
  next => exact meets_pure fun _ h => h

/-- A session is apart whose trackers are like those of one that is. -/
theorem Apart.of_alike (hw : Apart w)
    (h : ∀ t' ∈ w'.session.trackers, ∃ t ∈ w.session.trackers, t.Alike t') : Apart w' := by
  intro t' ht'
  obtain ⟨t, ht, halike⟩ := h t' ht'
  exact halike.apart_iff.mpr (hw t ht)

variable (hreach : Reachable w) (hlink : w.client.fault = .none) (hw : Apart w)
  (hkeyed : ∀ t ∈ w.session.trackers, t.Keyed)
include hreach hlink hw hkeyed

/-- A commit that comes to its report. -/
theorem Commits.apart_iff {w₁ : Work α σ} {shares : List (Share α)} {report : CommitReport Error}
    (h : Commits w w₁ shares report w') :
    Apart w' ↔ ∀ s ∈ shares, ¬s.before.Clashes s.answer s.applied.outcomes := by
  have halike := editing_alike w
  rw [h.edited, h.before] at halike
  have hshare : ∀ s ∈ shares, (s.after.Apart ↔ ¬s.before.Clashes s.answer s.applied.outcomes) := by
    intro s hs
    obtain ⟨t, ht, hlike⟩ := halike _ (List.mem_map_of_mem hs)
    have hbefore : s.before.Keyed := by
      rw [Tracker.Keyed, hlike.deleteEvents_eq]
      exact hkeyed t ht
    obtain ⟨hsound, ⟨_, _, _, _, hprepare⟩, writes, deletes, t₁, houtcomes, hsettlement⟩ :=
      h.settlement hlink hreach s hs
    rw [houtcomes]
    exact hsettlement.apart_iff hsound (hlike.apart_iff.mpr (hw t ht)) hbefore
      (Tracker.deletes_of_prepare hprepare)
  rw [Apart, h.trackers_eq, List.forall_mem_map]
  exact forall₂_congr hshare

/-- Committing. -/
theorem apart_commit_iff : Apart (runFrom w commit).2 ↔ ¬Move.Collides w .commit := by
  have hshares : ∀ {w₁ shares report w'}, Commits w w₁ shares report w' →
      (Apart (runFrom w commit).2 ↔
        ∀ s ∈ shares, ¬s.before.Clashes s.answer s.applied.outcomes) := by
    intro w₁ shares report w' h
    rw [h.runFrom_commit]
    exact h.apart_iff hreach hlink hw hkeyed
  refine ⟨fun hafter => ?_, fun hnot => ?_⟩
  · rintro ⟨w₁, shares, report, w', h, s, hs, hclashes⟩
    exact (hshares h).mp hafter s hs hclashes
  -- a commit that stops before it has its answers leaves queue and instances as they were
  · by_cases hcommits : ∃ w₁ shares report w', Commits w w₁ shares report w'
    · obtain ⟨w₁, shares, report, w', h⟩ := hcommits
      refine (hshares h).mpr fun s hs hclashes => hnot ?_
      exact ⟨w₁, shares, report, w', h, s, hs, hclashes⟩
    · rw [commit_eq]
      have halike := editing_alike w
      cases hediting : runFrom w editing with
      | mk result w₁ =>
        rw [hediting] at halike
        cases result with
        | error e =>
          rw [runFrom_bind_error hediting]
          exact hw.of_alike halike
        | ok tx =>
          have hanswering := (keeps_answering fun _ ts => ts = w₁.session.trackers).behind
            (s := w₁) rfl
          rw [runFrom_bind_ok hediting]
          cases hrun : runFrom w₁ answering with
          | mk result w₂ =>
            rw [hrun] at hanswering
            cases result with
            | error e =>
              rw [runFrom_bind_error hrun]
              exact (hw.of_alike halike).congr hanswering
            | ok found =>
              obtain ⟨shares, report, w', -, h⟩ := exists_commits hreach hlink hediting hrun
              exact absurd ⟨w₁, shares, report, w', h⟩ hcommits

end Commits

section Runs

/-- All replies to a commit will arrive, and it is to delete ids under the ids. -/
def Move.Orderly (w : Work α σ) : Move α σ → Prop
  | .commit => w.client.fault = .none ∧ ∀ t ∈ w.session.trackers, t.Keyed
  | _ => True

instance (w : Work α σ) : (move : Move α σ) → Decidable (move.Orderly w)
  | .commit => inferInstanceAs (Decidable (_ ∧ _))
  | .meanwhile .. | .addHandler .. | .add .. | .delete .. | .deleteKey .. | .deleteQuery ..
  | .get? .. | .fetch .. | .expunge .. | .expungeAll | .rollback | .begin => .isTrue trivial

/-- One move keeps queue and instances apart exactly if it does not collide. -/
theorem apart_run_iff (hreach : Reachable w) (hw : Apart w) {move : Move α σ}
    (horderly : move.Orderly w) : Apart (move.run w) ↔ ¬move.Collides w := by
  have hsound := sound_of_reachable hreach
  cases move with
  | meanwhile client app => exact iff_of_true hw not_false
  | addHandler kind handler => exact iff_of_true hw not_false
  | add m i => exact apart_add_iff hsound hw m i
  | delete m i => exact apart_delete_iff hsound hw m i
  | deleteKey m id => exact iff_of_true (Apart.deleteKey hsound hw m id) not_false
  | deleteQuery consult m live => exact iff_of_true (hw.deleteQuery consult m live) not_false
  | get? m id => exact apart_get?_iff hw m id
  | fetch consult m live => exact apart_fetch_iff hw consult m live
  | expunge m i => exact iff_of_true (Apart.expunge hsound hw m i) not_false
  | expungeAll => exact iff_of_true (fun t ht => nomatch ht) not_false
  | rollback => exact iff_of_true (fun t ht => nomatch ht) not_false
  | begin =>
    have hbegin := (keeps_begin (.holds fun _ ts => ∀ t ∈ ts, t.Apart)).behind (s := w) hw
    exact iff_of_true hbegin not_false
  | commit => exact apart_commit_iff hreach horderly.1 hw horderly.2

/-- Where a session that is apart goes, it is apart up to the first move that collides. -/
theorem apart_states_iff (hreach : Reachable w) (hw : Apart w) {moves : List (Move α σ)}
    (h : ∀ x ∈ steps w moves, x.2.Orderly x.1) :
    (∀ u ∈ states w moves, Apart u) ↔ ∀ x ∈ steps w moves, ¬x.2.Collides x.1 := by
  induction moves generalizing w with
  | nil => simpa [states, steps] using hw
  | cons move rest ih =>
    rw [steps, List.forall_mem_cons] at h
    have hstep := apart_run_iff hreach hw h.1
    rw [states, steps, List.forall_mem_cons, List.forall_mem_cons, ← hstep]
    simp only [hw, true_and]
    constructor
    · intro hall
      have hafter : Apart (move.run w) := hall _ (by cases rest <;> simp [states])
      exact ⟨hafter, (ih (hreach.run move) hafter h.2).mp hall⟩
    · exact fun hall => (ih (hreach.run move) hall.1 h.2).mpr hall.2

/-- What a commit sends of a session that is apart does not both update and delete the instance of
one id. -/
theorem Commits.not_modified {w₁ : Work α σ} {shares : List (Share α)}
    {report : CommitReport Error} (h : Commits w w₁ shares report w') (hw : Apart w) :
    ∀ s ∈ shares, ∀ x ∈ s.before.deleteIds, x ∉ s.before.modified := by
  have halike := editing_alike w
  rw [h.edited, h.before] at halike
  intro s hs x hx hmodified
  obtain ⟨t, ht, hlike⟩ := halike _ (List.mem_map_of_mem hs)
  exact hlike.apart_iff.mpr (hw t ht) x hx (.inl hmodified)

/-- Whatever is done with a session, no id is ever queued for deletion while a stored instance is
held under it exactly if no move collides, and then no commit both updates and deletes the instance
of one id. -/
theorem apart_iff_of_moves (id : SessionId) (catalog : Catalog) (config : SessionConfig)
    (client : Client) (app : σ) (moves : List (Move α σ))
    (h : ∀ x ∈ steps ⟨.start id catalog config, client, app⟩ moves, x.2.Orderly x.1) :
    ((∀ u ∈ states ⟨.start id catalog config, client, app⟩ moves, Apart u) ↔
      ∀ x ∈ steps ⟨.start id catalog config, client, app⟩ moves, ¬x.2.Collides x.1) ∧
    ∀ u ∈ states ⟨.start id catalog config, client, app⟩ moves, Apart u →
      ∀ w₁ shares report w', Commits u w₁ shares report w' →
        ∀ s ∈ shares, ∀ x ∈ s.before.deleteIds, x ∉ s.before.modified :=
  ⟨apart_states_iff (.start id catalog config client app) (fun _ ht => nomatch ht) h,
    fun _ _ hu _ _ _ _ hcommits => hcommits.not_modified hu⟩

/-- A hero is stored, forgotten, read again and deleted by its id. -/
def orderlyMoves : List (Move Record Unit) :=
  [.add Sample.hero.model (newHero "new:1" .null "Ada"), .commit, .expungeAll,
    .get? Sample.hero.model (.int 1), .deleteKey Sample.hero.model (.int 1), .commit]

/-- No move collides when a hero is read before it is deleted by its id. -/
theorem apart_of_orderlyMoves :
    (∀ x ∈ steps amongHeroes orderlyMoves, ¬x.2.Collides x.1) ∧
      (states amongHeroes orderlyMoves).map (·.session.pendingDeletes) = [0, 0, 0, 0, 0, 1, 0] := by
  have hiff := (apart_iff_of_moves ⟨1⟩ ⟨.standard, [CommitScript.heroes]⟩ .standard
    (.ofServer (.empty (.manual 0))) () orderlyMoves (by decide +kernel)).1
  exact ⟨hiff.mp (by decide +kernel), by decide +kernel⟩

/-- The id of a hero is queued for deletion before the hero is read and changed. The id is queued
and tracked then: the commit deletes the hero and refuses to write it. -/
theorem queued_and_tracked_heroes :
    ∃ (w w₁ w' : Work Record Unit) (shares : List (Share Record)) (report : CommitReport Error),
      Reachable w ∧ w.client.fault = .none ∧
        (∃ t ∈ w.session.trackers, ∃ x ∈ t.deleteIds, x ∈ t.modified) ∧
        Commits w w₁ shares report w' ∧
        (report.outcomes.map fun o => (o.action, o.id, o.error.isSome)) =
          [(.write, some "1", true), (.delete, some "1", false)] := by
  let m : Model Record := Sample.hero.model
  let stored := (runFrom (runFrom amongHeroes (add m (newHero "new:1" .null "Ada"))).2 commit).2
  let read := (runFrom (runFrom (Move.expungeAll.run stored) (deleteKey m (.int 1))).2
    (get? m (.int 1))).2
  let found := (runFrom read (get? m (.int 1))).1.toOption.join
  let w := found.elim read fun i => (runFrom read (add m i)).2
  have hread : Reachable read :=
    ((((Reachable.start _ _ _ _ _).add m _).commit.expungeAll).deleteKey m _).get? m _
  have hw : Reachable w := by
    show Reachable (found.elim read fun i => (runFrom read (add m i)).2)
    cases found with
    | none => exact hread
    | some i => exact hread.add m i
  obtain ⟨w₁, shares, report, w', h⟩ :=
    exists_commits_of_isOk hw (by decide +kernel) (by decide +kernel) (by decide +kernel)
  refine ⟨w, w₁, w', shares, report, hw, by decide +kernel, by decide +kernel, h, ?_⟩
  rw [← h.reported_eq]
  decide +kernel

end Runs

end Session

end KeyedRecords
