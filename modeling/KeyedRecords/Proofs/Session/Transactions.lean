import KeyedRecords.Proofs.Session.Moves
import KeyedRecords.Proofs.Session.Tracking

/-!
# The life of a transaction

Between the moves of a session its transaction, if it has one, is open. A commit may stop while
nothing has been sent, and leaves its transaction open then (`Session.Committing`); behind that
point it ends the transaction however it goes on (`Session.Committed`). So no transaction sends two
pipelines, whatever the moves are (`Session.transactionLife_of_runs`).
-/

namespace KeyedRecords

namespace Session

open Operation

variable {α σ β : Type} {w w₀ w₁ w' : Work α σ}

section Begin

/-- What a session without a transaction becomes when it opens one. -/
def withOpened (w : Work α σ) : Work α σ :=
  let n := w.client.supply.transaction
  { w with
    session := { w.session with transaction := some (.start ⟨n⟩ w.session.id) }
    client := { w.client with supply := { w.client.supply with transaction := n + 1 } } }

/-- A transaction is opened if there is none. -/
theorem runFrom_begin_none (h : w.session.transaction = none) :
    runFrom w begin = (.ok ⟨w.client.supply.transaction⟩, withOpened w) := by
  unfold begin
  rw [runFrom_bind_ok (runFrom_current w)]
  simp only [h]
  rfl

/-- A transaction is not opened within another one. -/
theorem runFrom_begin_some {t : Transaction} (h : w.session.transaction = some t) :
    ∃ message, runFrom w begin =
      (.error (.failed (.transaction ⟨.nestedNotSupported, message⟩)), w) := by
  unfold begin
  rw [runFrom_bind_ok (runFrom_current w)]
  simp only [h]
  exact ⟨_, rfl⟩

/-- Opening a transaction fails just if there is one, and then changes nothing. -/
theorem begin_fails_iff (w : Work α σ) :
    ((∃ stop, (runFrom w begin).1 = .error stop) ↔ ∃ t, w.session.transaction = some t) ∧
      ∀ stop, (runFrom w begin).1 = .error stop → (runFrom w begin).2 = w := by
  cases htransaction : w.session.transaction with
  | none =>
    rw [runFrom_begin_none htransaction]
    exact ⟨by simp, nofun⟩
  | some t =>
    obtain ⟨message, hrun⟩ := runFrom_begin_some htransaction
    rw [hrun]
    exact ⟨by simp, fun _ _ => rfl⟩

end Begin

section Commit

variable {tx : TransactionId} {s : Server} {n : Nat}

/-- The transaction that is committed is open, and nothing has reached the server. -/
structure Committing (tx : TransactionId) (s : Server) (n : Nat) (w : Work α σ) : Prop where
  transaction : ∃ t, w.session.transaction = some t ∧ t.id = tx ∧ t.isOpen = true
  server : w.client.server = s
  supply : w.client.supply.transaction = n

/-- One pipeline may have reached the server. -/
structure Sent (s : Server) (n : Nat) (w : Work α σ) : Prop where
  server : w.client.server = s ∨ ∃ commands, w.client.server = (s.pipeline commands).2
  supply : w.client.supply.transaction = n

/-- One pipeline may have reached the server, and the transaction is over. -/
structure Committed (s : Server) (n : Nat) (w : Work α σ) : Prop extends Sent s n w where
  transaction : w.session.transaction = none

/-- Taking over what handlers edit leaves the transaction open. -/
theorem Committing.keeps_absorbEdits :
    Keeps (Committing (α := α) (σ := σ) tx s n) (absorbEdits tx) :=
  keeps_absorbEdits_of (fun _ _ h => ⟨h.1, h.2, h.3⟩) tx fun _ =>
    keeps_of_behind fun _ h => ⟨h.1, h.2, h.3⟩

/-- So does working out what each model contributes. -/
theorem Committing.keeps_prepareAll (ts : List (Tracker α)) :
    Keeps (Committing (σ := σ) tx s n) (prepareAll ts) :=
  Session.keeps_prepareAll (fun _ _ h => ⟨h.1, h.2, h.3⟩) ts

/-- A commit finds an open transaction, or stops and changes nothing. -/
theorem transactionToCommit_cases
    (hopen : ∀ t, w.session.transaction = some t → t.isOpen = true) :
    (∃ stop, runFrom w transactionToCommit = (.error stop, w) ∧
      ∀ t : Transaction, stop ≠ .failed t.alreadyExecuted) ∨
    ∃ tx w₁, runFrom w transactionToCommit = (.ok tx, w₁) ∧ (w₁ = w ∨ w₁ = withOpened w) ∧
      Committing tx w.client.server w₁.client.supply.transaction w₁ := by
  unfold transactionToCommit
  rw [runFrom_bind_ok (runFrom_current w)]
  cases htransaction : w.session.transaction with
  | some t =>
    have hopen := hopen t htransaction
    simp only [hopen, if_true]
    exact .inr ⟨t.id, w, rfl, .inl rfl, ⟨t, htransaction, rfl, hopen⟩, rfl, rfl⟩
  | none =>
    dsimp only
    split
    next =>
      exact .inr ⟨_, _, runFrom_begin_none htransaction, .inr rfl, ⟨_, rfl, rfl, rfl⟩, rfl, rfl⟩
    next =>
      refine .inl ⟨_, rfl, fun t ht => ?_⟩
      cases ht

/-- Behind what handlers edit, the transaction is open that the commit has found. -/
theorem editing_ok (hopen : ∀ t, w.session.transaction = some t → t.isOpen = true)
    (hrun : runFrom w editing = (.ok tx, w₁)) : ∃ n, Committing tx w.client.server n w₁ := by
  unfold editing at hrun
  obtain ⟨stop, hfound, -⟩ | ⟨tx', w₂, hfound, -, hcommitting⟩ := transactionToCommit_cases hopen
  · rw [runFrom_bind_error hfound] at hrun
    cases hrun
  · rw [runFrom_bind_ok hfound] at hrun
    have hrest : Meets (Committing tx' w.client.server w₂.client.supply.transaction) (do
          viaClient Client.checkpoint
          absorbEdits tx'
          return tx' : Working α σ TransactionId)
        (fun tx w₁ => tx = tx' ∧ Committing tx' w.client.server w₂.client.supply.transaction w₁)
        fun _ => Committing tx' w.client.server w₂.client.supply.transaction :=
      (keeps_checkpoint _).bind fun _ => Committing.keeps_absorbEdits.bind fun _ =>
        meets_pure fun _ h => ⟨rfl, h⟩
    obtain ⟨rfl, hw₁⟩ := hrest.ok hcommitting hrun
    exact ⟨_, hw₁⟩

/-- An open transaction can be executed. -/
theorem execute_meets :
    Meets (Committing (α := α) (σ := σ) tx s n) execute
      (fun _ w => w.client.server = s ∧ w.client.supply.transaction = n) fun _ _ => False := by
  intro w h
  obtain ⟨t, htransaction, -, hopen⟩ := h.transaction
  unfold execute Transaction.execute
  rw [runFrom_bind_ok (runFrom_current w)]
  simp only [htransaction, hopen, if_true]
  exact ⟨h.server, h.supply⟩

/-- Ending the transaction. -/
theorem Committed.finish_meets :
    Meets (Sent (α := α) (σ := σ) s n) finish (fun _ => Committed s n) fun _ => Committed s n :=
  keeps_of_behind fun _ h => ⟨⟨h.server, h.supply⟩, rfl⟩

/-- A way out that ends the transaction. -/
theorem Committed.orFinish {P : Work α σ → Prop} {Q : β → Work α σ → Prop} {op : Working α σ β}
    (h : Meets P op Q fun _ => Sent s n) :
    Meets P (tryCatch op fun stop => do
      finish
      throw stop) Q fun _ => Committed s n :=
  h.orElse fun _ => Meets.bind (Q := fun _ => Committed s n) finish_meets fun _ =>
    meets_throw fun _ h => h

/-- Commands are sent in one pipeline. -/
theorem send_meets (commands : List Command) :
    Meets (fun w : Work α σ => w.client.server = s ∧ w.client.supply.transaction = n)
      (send commands) (fun _ => Sent s n) fun _ => Committed s n := by
  unfold send
  split
  next => exact meets_pure fun w h => ⟨.inl h.1, h.2⟩
  next =>
    refine Committed.orFinish (keeps_of_behind fun w h => ?_)
    obtain ⟨rfl, rfl⟩ := h
    show Sent _ _ { w with client := (runFrom w.client (Client.pipeline commands)).2 }
    unfold Client.pipeline
    rw [runFrom_bind_ok (runFrom_get w.client)]
    split
    next => exact ⟨.inl rfl, rfl⟩
    next => exact ⟨.inr ⟨commands, rfl⟩, rfl⟩

/-- Whatever the store has answered, the transaction is over behind it. -/
theorem applyAll_meets (found : List Answer) :
    Meets (Sent (α := α) (σ := σ) s n) (applyAll found) (fun _ => Sent s n)
      fun _ => Committed s n :=
  Committed.orFinish (keeps_of_behind fun _ h => ⟨h.1, h.2⟩)

/-- Handlers are told, whatever they do. -/
theorem Sent.notifyAll_meets (tx : TransactionId) (changes : List (Layout × Applied)) :
    Meets (Sent (α := α) (σ := σ) s n) (notifyAll tx changes) (fun _ => Sent s n)
      fun _ => Committed s n := by
  intro w h
  obtain ⟨errors, app, hrun⟩ := notifyAll_ok w tx changes
  rw [hrun]
  exact ⟨h.server, h.supply⟩

/-- A commit has stopped while its transaction was open, or has ended it. -/
abbrev Ends (tx : TransactionId) (s : Server) (n : Nat) (w : Work α σ) : Prop :=
  Committing tx s n w ∨ Committed s n w

/-- What keeps the transaction open may also stop. -/
theorem Committing.orStop {op : Working α σ β} (h : Keeps (Committing tx s n) op) :
    Meets (Committing tx s n) op (fun _ => Committing tx s n) fun _ => Ends tx s n :=
  h.mono (fun _ h => h) (fun _ _ h => h) fun _ _ h => .inl h

/-- What stops behind the end of the transaction. -/
theorem Committed.orStop {P : Work α σ → Prop} {Q : β → Work α σ → Prop} {op : Working α σ β}
    (h : Meets P op Q fun _ => Committed s n) : Meets P op Q fun _ => Ends tx s n :=
  h.mono (fun _ h => h) (fun _ _ h => h) fun _ _ h => .inr h

/-- A commit that has found its transaction stops before anything is sent, or ends the
transaction. -/
theorem commit_ends (hrun : runFrom w transactionToCommit = (.ok tx, w₁))
    (h : Committing tx s n w₁) : Ends tx s n (runFrom w commit).2 := by
  unfold commit
  rw [runFrom_bind_ok hrun]
  refine Meets.behind ?_ h
  refine (Committing.orStop (keeps_checkpoint _)).bind fun _ => ?_
  refine (Committing.orStop Committing.keeps_absorbEdits).bind fun _ => ?_
  refine (current_meets _).bind fun session => Meets.pre (P := Committing tx s n) ?_ fun _ h => h.2
  refine (Committing.orStop (Committing.keeps_prepareAll _)).bind fun prepared => ?_
  refine (execute_meets.mono (fun _ h => h) (fun _ _ h => h) fun _ _ => False.elim).bind fun _ => ?_
  -- from here on the transaction ends
  refine (Committed.orStop (send_meets _)).bind fun replies => ?_
  refine (Committed.orStop ?_).mono (fun _ h => h) (fun _ _ h => .inr h) fun _ _ h => h
  have hsettle : Meets (Sent (α := α) (σ := σ) s n) settle (fun _ => Sent s n)
      fun _ => Committed s n := fun _ h => ⟨h.server, h.supply⟩
  refine hsettle.bind fun _ => ?_
  split
  next => exact Committed.finish_meets.bind fun _ => meets_throw_bind fun _ h => h
  next =>
    refine (applyAll_meets _).bind fun applied => ?_
    refine (current_meets _).bind fun session => Meets.pre (P := Sent s n) ?_ fun _ h => h.2
    refine (Sent.notifyAll_meets tx _).bind fun notifications => ?_
    refine Committed.finish_meets.bind fun _ => ?_
    dsimp only
    split
    next => exact meets_pure fun _ h => h
    next => exact meets_throw fun _ h => h

end Commit

section Life

/-- A transaction for each pipeline that a commit sends: that which it commits. -/
def pipelines (w : Work α σ) : List TransactionId :=
  match (runFrom w transactionToCommit).1 with
  | .ok tx =>
    .replicate ((runFrom w commit).2.client.server.stats.roundTrips -
      w.client.server.stats.roundTrips) tx
  | .error _ => []

/-- The transactions of the pipelines that a move sends to commit something. -/
def Move.pipelines (w : Work α σ) : Move α σ → List TransactionId
  | .commit => Session.pipelines w
  | _ => []

/-- Others do not give out numbers of transactions again. -/
def Move.Forward (w : Work α σ) : Move α σ → Prop
  | .meanwhile client _ => w.client.supply.transaction ≤ client.supply.transaction
  | _ => True

/-- What a session is used for: moves, and operations that make moves in a transaction. The list
has a transaction for each pipeline that was sent to commit something. -/
inductive Runs : Work α σ → List TransactionId → Work α σ → Prop
  | refl (w : Work α σ) : Runs w [] w
  | move {w₀ w : Work α σ} {sent : List TransactionId} (h : Runs w₀ sent w) (move : Move α σ)
    (hmove : move.Forward w) : Runs w₀ (sent ++ move.pipelines w) (move.run w)
  | addAll {w₀ w : Work α σ} {sent : List TransactionId} (h : Runs w₀ sent w) (m : Model α)
    (is : List (Instance α)) : Runs w₀ sent (runFrom w (addAll m is)).2
  /-- Any operation on what the session holds of a model. -/
  | viaTracker {β : Type} {w₀ w : Work α σ} {sent : List TransactionId} (h : Runs w₀ sent w)
    (m : Model α) (op : Tracker.Tracking α β) : Runs w₀ sent (runFrom w (viaTracker m op)).2
  /-- No operation is run in a transaction while another one is open. -/
  | refused {β : Type} {w₀ w : Work α σ} {sent : List TransactionId} {t : Transaction}
    (h : Runs w₀ sent w) (ht : w.session.transaction = some t) (op : Working α σ β) :
    Runs w₀ sent (runFrom w (withTransaction op)).2
  /-- An operation makes moves in a transaction. If it answers, they are committed. -/
  | withTransaction {β : Type} {w₀ w : Work α σ} {sent more : List TransactionId}
    (h : Runs w₀ sent w) (hnone : w.session.transaction = none) (op : Working α σ β)
    (hmore : Runs (withOpened w) more (runFrom (withOpened w) op).2) :
    Runs w₀ (sent ++ more ++
        if (runFrom (withOpened w) op).1.isOk then Session.pipelines (runFrom (withOpened w) op).2
        else [])
      (runFrom w (withTransaction op)).2

/-- A transaction that is held is open and has sent no pipeline, and none has sent two. -/
structure Tidy (sent : List TransactionId) (w : Work α σ) : Prop where
  opened : ∀ t, w.session.transaction = some t →
    t.isOpen = true ∧ t.id ∉ sent ∧ t.id.number < w.client.supply.transaction
  below : ∀ tx ∈ sent, tx.number < w.client.supply.transaction
  nodup : sent.Nodup

variable {sent : List TransactionId}

/-- What leaves the transaction alone. -/
theorem Tidy.of_eq (h : Tidy sent w) (htransaction : w'.session.transaction = w.session.transaction)
    (hsupply : w.client.supply.transaction ≤ w'.client.supply.transaction) : Tidy sent w' := by
  refine ⟨fun t ht => ?_, fun tx htx => Nat.lt_of_lt_of_le (h.below tx htx) hsupply, h.nodup⟩
  obtain ⟨hopen, hfresh, hlt⟩ := h.opened t (htransaction ▸ ht)
  exact ⟨hopen, hfresh, Nat.lt_of_lt_of_le hlt hsupply⟩

/-- What ends the transaction. -/
theorem Tidy.of_none (h : Tidy sent w) (htransaction : w'.session.transaction = none)
    (hsupply : w.client.supply.transaction ≤ w'.client.supply.transaction) : Tidy sent w' := by
  refine ⟨fun t ht => ?_, fun tx htx => Nat.lt_of_lt_of_le (h.below tx htx) hsupply, h.nodup⟩
  rw [htransaction] at ht
  cases ht

/-- Tracking leaves the transaction alone. -/
theorem Tidy.of_tracks (h : Tidy sent w) (htracks : Tracks w w') : Tidy sent w' := by
  obtain ⟨trackers, client, ⟨server, name, rfl⟩, rfl⟩ := htracks
  exact h.of_eq rfl (Nat.le_refl _)

/-- A new transaction has sent nothing. -/
theorem Tidy.withOpened (h : Tidy sent w) : Tidy sent (withOpened w) := by
  refine ⟨?_, fun tx htx => Nat.lt_succ_of_lt (h.below tx htx), h.nodup⟩
  rintro t ⟨⟩
  exact ⟨rfl, fun hmem => Nat.lt_irrefl _ (h.below _ hmem), Nat.lt_succ_self _⟩

/-- A commit finds an open transaction that has sent nothing, or stops and changes nothing. -/
theorem Tidy.transactionToCommit (h : Tidy sent w) :
    (∃ stop, runFrom w transactionToCommit = (.error stop, w)) ∨
    ∃ tx w₁, runFrom w transactionToCommit = (.ok tx, w₁) ∧ Tidy sent w₁ ∧
      Committing tx w.client.server w₁.client.supply.transaction w₁ := by
  obtain ⟨stop, hrun, -⟩ | ⟨tx, w₁, hrun, rfl | rfl, hcommitting⟩ :=
    transactionToCommit_cases fun t ht => (h.opened t ht).1
  · exact .inl ⟨stop, hrun⟩
  · exact .inr ⟨tx, _, hrun, h, hcommitting⟩
  · exact .inr ⟨tx, _, hrun, h.withOpened, hcommitting⟩

/-- The transaction that is committed has sent nothing. -/
theorem Tidy.fresh (h : Tidy sent w) {tx : TransactionId} {s : Server} {n : Nat}
    (hcommitting : Committing tx s n w) : tx ∉ sent ∧ tx.number < n := by
  obtain ⟨t, ht, rfl, -⟩ := hcommitting.transaction
  obtain ⟨-, hfresh, hlt⟩ := h.opened t ht
  exact ⟨hfresh, hcommitting.supply ▸ hlt⟩

/-- A commit sends nothing, or one pipeline for a transaction that had sent none and is over
then. -/
theorem Tidy.commit_sends (h : Tidy sent w) :
    Tidy sent (runFrom w commit).2 ∧
      (pipelines w = [] ∧ (runFrom w commit).2.client.server = w.client.server ∨
        ∃ tx, pipelines w = [tx] ∧ tx ∉ sent ∧
          tx.number < (runFrom w commit).2.client.supply.transaction ∧
          (runFrom w commit).2.client.server.stats.roundTrips =
            w.client.server.stats.roundTrips + 1 ∧
          (runFrom w commit).2.session.transaction = none) := by
  obtain ⟨stop, hrun⟩ | ⟨tx, w₁, hrun, htidy, hcommitting⟩ := h.transactionToCommit
  · have hcommit : runFrom w commit = (.error stop, w) := by
      unfold commit
      exact runFrom_bind_error hrun _
    rw [hcommit]
    exact ⟨h, .inl ⟨by rw [pipelines, hrun], rfl⟩⟩
  · have hpipelines : pipelines w = .replicate
        ((runFrom w commit).2.client.server.stats.roundTrips -
          w.client.server.stats.roundTrips) tx := by
      rw [pipelines, hrun]
    obtain ⟨hfresh, hlt⟩ := htidy.fresh hcommitting
    rw [hpipelines]
    obtain hends | hends := commit_ends hrun hcommitting
    · -- nothing was sent, and the transaction that was found is still open
      refine ⟨⟨fun t ht => ?_, fun id hid => ?_, h.nodup⟩, .inl ⟨?_, hends.server⟩⟩
      · obtain ⟨u, hu, rfl, hopen⟩ := hends.transaction
        obtain rfl := Option.some.inj (ht.symm.trans hu)
        exact ⟨hopen, hfresh, by rwa [hends.supply]⟩
      · rw [hends.supply]
        exact htidy.below id hid
      · rw [hends.server, Nat.sub_self]
        rfl
    · -- the transaction is over, also if there was nothing to send
      have htidy' := htidy.of_none hends.transaction (Nat.le_of_eq hends.supply.symm)
      refine ⟨htidy', ?_⟩
      obtain hserver | ⟨commands, hserver⟩ := hends.server
      · refine .inl ⟨?_, hserver⟩
        rw [hserver, Nat.sub_self]
        rfl
      · have htrips : (runFrom w commit).2.client.server.stats.roundTrips =
            w.client.server.stats.roundTrips + 1 := by
          rw [hserver]
          rfl
        refine .inr ⟨tx, ?_, hfresh, by rwa [hends.supply], htrips, hends.transaction⟩
        rw [htrips, Nat.add_sub_cancel_left]
        rfl

/-- A commit keeps the transactions in order. -/
theorem Tidy.commit (h : Tidy sent w) : Tidy (sent ++ pipelines w) (runFrom w commit).2 := by
  obtain ⟨htidy, ⟨hpipelines, -⟩ | ⟨tx, hpipelines, hfresh, hlt, -, hnone⟩⟩ := h.commit_sends
  · rwa [hpipelines, List.append_nil]
  · rw [hpipelines]
    refine ⟨fun t ht => ?_, fun id hid => ?_, ?_⟩
    · rw [hnone] at ht
      cases ht
    · rcases List.mem_append.mp hid with hid | hid
      · exact htidy.below id hid
      · rwa [List.mem_singleton.mp hid]
    · refine List.nodup_append.mpr ⟨htidy.nodup, List.pairwise_singleton _ _, ?_⟩
      intro id hid id' hid'
      rw [List.mem_singleton.mp hid']
      rintro rfl
      exact hfresh hid

/-- Opening a transaction keeps them in order. -/
theorem Tidy.begin (h : Tidy sent w) : Tidy sent (runFrom w begin).2 := by
  cases htransaction : w.session.transaction with
  | none =>
    rw [runFrom_begin_none htransaction]
    exact h.withOpened
  | some t =>
    obtain ⟨message, hrun⟩ := runFrom_begin_some htransaction
    rwa [hrun]

/-- So does every move. -/
theorem Tidy.move (h : Tidy sent w) {move : Move α σ} (hmove : move.Forward w) :
    Tidy (sent ++ move.pipelines w) (move.run w) := by
  -- all moves but commits send nothing for a transaction
  have hsilent : ∀ {w' : Work α σ}, Tidy sent w' → Tidy (sent ++ []) w' := fun h' => by
    rwa [List.append_nil]
  have htracks : ∀ {w' : Work α σ}, Tracks w w' → Tidy (sent ++ []) w' := fun h' =>
    hsilent (h.of_tracks h')
  cases move with
  | meanwhile client app => exact hsilent (h.of_eq rfl hmove)
  | addHandler kind handler => exact hsilent (h.of_eq rfl (Nat.le_refl _))
  | add m i => exact htracks ((tracks_add w m i).behind (.refl w))
  | delete m i => exact htracks ((tracks_delete w m i).behind (.refl w))
  | deleteKey m id => exact htracks ((tracks_deleteKey w m id).behind (.refl w))
  | deleteQuery consult m live =>
    exact htracks ((tracks_deleteQuery w m consult).behind (s := (w, live)) (.refl w))
  | get? m id => exact htracks ((tracks_get? w m id).behind (.refl w))
  | fetch consult m live =>
    exact htracks ((tracks_fetch w m consult).behind (s := (w, live)) (.refl w))
  | expunge m i => exact htracks ((tracks_viaTracker w m _).behind (.refl w))
  | expungeAll => exact hsilent (h.of_eq rfl (Nat.le_refl _))
  | rollback => exact hsilent (h.of_none rfl (Nat.le_refl _))
  | begin => exact hsilent h.begin
  | commit => exact h.commit

/-- An operation is not run in a transaction while another one is open. -/
theorem withTransaction_refused {t : Transaction} (ht : w.session.transaction = some t)
    (op : Working α σ β) : (runFrom w (withTransaction op)).2 = w := by
  obtain ⟨message, hrun⟩ := runFrom_begin_some ht
  unfold withTransaction
  rw [runFrom_bind_error (runFrom_discard_error hrun)]

/-- An operation in a transaction is committed if it answers, and else rolled back. -/
theorem withTransaction_ends (hnone : w.session.transaction = none) (op : Working α σ β) :
    (runFrom w (withTransaction op)).2 =
      match runFrom (withOpened w) op with
      | (.ok _, w₁) => (runFrom w₁ commit).2
      | (.error _, w₁) => { w₁ with session := w₁.session.rollback } := by
  unfold withTransaction
  rw [runFrom_bind_ok (runFrom_discard_ok (runFrom_begin_none hnone)), runFrom_bind,
    runFrom_tryCatch]
  cases runFrom (withOpened w) op with
  | mk result w₁ =>
    cases result with
    | error stop => rfl
    | ok b =>
      dsimp only
      rw [runFrom_bind]
      cases runFrom w₁ commit with
      | mk result w₂ => cases result <;> rfl

/-- Whatever a session is used for, its transactions stay in order. -/
theorem Tidy.runs {earlier : List TransactionId} (h : Runs w₀ sent w) (h₀ : Tidy earlier w₀) :
    Tidy (earlier ++ sent) w := by
  induction h generalizing earlier with
  | refl w => rwa [List.append_nil]
  | move h move hmove ih =>
    rw [← List.append_assoc]
    exact (ih h₀).move hmove
  | @addAll w₀ w sent h m is ih =>
    exact (ih h₀).of_tracks ((tracks_addAll w m is).behind (.refl w))
  | @viaTracker _ w₀ w sent h m op ih =>
    exact (ih h₀).of_tracks ((tracks_viaTracker w m op).behind (.refl w))
  | refused h ht op ih =>
    rw [withTransaction_refused ht]
    exact ih h₀
  | @withTransaction _ w₀ w sent more h hnone op hmore ih ihmore =>
    rw [withTransaction_ends hnone op]
    -- what was sent before counts as earlier for the moves of the operation
    have hinside := ihmore (ih h₀).withOpened
    rw [List.append_assoc] at hinside
    cases hrun : runFrom (Session.withOpened w) op with
    | mk result w₁ =>
      rw [hrun] at hinside
      cases result with
      | ok b =>
        rw [← List.append_assoc]
        exact hinside.commit
      | error stop =>
        show Tidy (earlier ++ (sent ++ more ++ [])) _
        rw [List.append_nil]
        exact hinside.of_none rfl (Nat.le_refl _)

/-- What is true of the transactions of a session between its moves. -/
structure TransactionLife (sent : List TransactionId) (w : Work α σ) : Prop where
  /-- There is no transaction, or one that is open. -/
  opened : ∀ t, w.session.transaction = some t → t.isOpen = true
  /-- None has sent two pipelines. -/
  nodup : sent.Nodup
  /-- A commit does not find one that was executed. -/
  found : ∀ t : Transaction, (runFrom w transactionToCommit).1 ≠ .error (.failed t.alreadyExecuted)
  /-- The one it finds can be executed when all models are prepared. -/
  executes : ∀ tx w₁ ps w₂, runFrom w editing = (.ok tx, w₁) →
    runFrom w₁ (prepareAll w₁.session.trackers) = (.ok ps, w₂) → (runFrom w₂ execute).1 = .ok ()
  /-- A commit that sends something sends one pipeline, and leaves no transaction. -/
  commit : (runFrom w commit).2.client.server = w.client.server ∨
    (runFrom w commit).2.client.server.stats.roundTrips = w.client.server.stats.roundTrips + 1 ∧
      (runFrom w commit).2.session.transaction = none
  /-- To open one fails just if one is open. -/
  begin_fails : (∃ stop, (runFrom w begin).1 = .error stop) ↔
    ∃ t, w.session.transaction = some t ∧ t.isOpen = true
  /-- Then it changes nothing. -/
  begin_keeps : ∀ stop, (runFrom w begin).1 = .error stop → (runFrom w begin).2 = w

/-- Transactions that are in order lead their lives. -/
theorem Tidy.transactionLife (h : Tidy sent w) : TransactionLife sent w where
  opened t ht := (h.opened t ht).1
  nodup := h.nodup
  found t ht := by
    obtain ⟨stop, hrun, hstop⟩ | ⟨tx, w₁, hrun, -⟩ :=
      transactionToCommit_cases fun t ht => (h.opened t ht).1
    · rw [hrun] at ht
      exact hstop t (Except.error.inj ht)
    · rw [hrun] at ht
      cases ht
  executes tx w₁ ps w₂ hediting hprepare := by
    obtain ⟨n, h₁⟩ := editing_ok (fun t ht => (h.opened t ht).1) hediting
    have h₂ := (Committing.keeps_prepareAll w₁.session.trackers).ok h₁ hprepare
    obtain ⟨_, w₃, hrun, -⟩ := execute_meets.exists_ok h₂
    rw [hrun]
  commit := by
    obtain ⟨-, ⟨-, hserver⟩ | ⟨tx, -, -, -, htrips, hnone⟩⟩ := h.commit_sends
    · exact .inl hserver
    · exact .inr ⟨htrips, hnone⟩
  begin_fails := by
    rw [(begin_fails_iff w).1]
    exact ⟨fun ⟨t, ht⟩ => ⟨t, ht, (h.opened t ht).1⟩, fun ⟨t, ht, _⟩ => ⟨t, ht⟩⟩
  begin_keeps := (begin_fails_iff w).2

/-- Whatever a session is used for from its start on, there is no transaction between its moves, or
an open one; none sends two pipelines; a commit that sends one leaves no transaction; and to open
one fails just if one is open, and changes nothing then. All this is true as well between the moves
of an operation that is run in a transaction. -/
theorem transactionLife_of_runs (id : SessionId) (catalog : Catalog) (config : SessionConfig)
    (client : Client) (app : σ) (h : Runs ⟨.start id catalog config, client, app⟩ sent w) :
    TransactionLife sent w ∧ (w.session.transaction = none →
      ∀ more w', Runs (withOpened w) more w' → TransactionLife (sent ++ more) w') := by
  have hstart : Tidy (α := α) [] ⟨.start id catalog config, client, app⟩ :=
    ⟨nofun, nofun, .nil⟩
  have htidy : Tidy sent w := .runs h hstart
  exact ⟨htidy.transactionLife, fun _ _ _ hmore =>
    (Tidy.runs hmore htidy.withOpened).transactionLife⟩

/-- A session commits a hero, adds and commits another one in one go, and opens a transaction. -/
theorem transactionLife_of_runs_heroes :
    ∃ w : Work Record Unit, Runs amongHeroes [⟨1⟩, ⟨2⟩] w ∧
      w.session.transaction = some ⟨⟨3⟩, ⟨1⟩, .opened⟩ ∧ TransactionLife [⟨1⟩, ⟨2⟩] w := by
  let m : Model Record := Sample.hero.model
  have hfirst := ((Runs.refl amongHeroes).move (.add m (newHero "new:1" .null "Ada")) trivial).move
    .commit trivial
  have hsecond := hfirst.withTransaction (by decide +kernel) (add m (newHero "new:2" .null "Brin"))
    ((Runs.refl _).move (.add m (newHero "new:2" .null "Brin")) trivial)
  obtain ⟨sent, w, hruns, hsent, htransaction⟩ : ∃ sent w, Runs amongHeroes sent w ∧
      sent = [⟨1⟩, ⟨2⟩] ∧ w.session.transaction = some ⟨⟨3⟩, ⟨1⟩, .opened⟩ :=
    ⟨_, _, hsecond.move .begin trivial, by decide +kernel, by decide +kernel⟩
  subst hsent
  exact ⟨w, hruns, htransaction, (transactionLife_of_runs _ _ _ _ _ hruns).1⟩

end Life

end Session

end KeyedRecords
