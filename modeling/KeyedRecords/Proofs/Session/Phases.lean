import KeyedRecords.Proofs.Session.Contributions
import KeyedRecords.Proofs.Session.Reachable

/-!
# The phases of a commit

A commit takes over what handlers edit (`Session.editing`), asks the store (`Session.answering`),
takes over the answers, and reports (`Session.reporting`). `Session.Commits` says that one has come
to its report, with the share that each model had in it: what its tracker held before, what the
store answered, which lines were added to the report, and what its tracker held behind it.
-/

namespace KeyedRecords

/-- What becomes of a server that commands are sent to, if there are any. -/
def Server.sent (s : Server) (commands : List Command) : Server :=
  if commands.isEmpty then s else (s.pipeline commands).2

/-- Commands lead the key space of a server somewhere. -/
theorem Server.space_sent (s : Server) {commands : List Command} (h : commands ≠ []) :
    (s.sent commands).space = (s.sweep.space.executeAll commands).2 := by
  rw [sent, if_neg (by simpa using h)]
  rfl

/-- Behind commands, keys that expire at once are dropped. -/
theorem Server.getElem?_sweep_sent (s : Server) (commands : List Command) (key : String) :
    (s.sent commands).sweep.space.entries[key]? =
      ((s.sweep.space.executeAll commands).2.entries[key]?).filter
        (Keyspace.isAlive s.clock.now) := by
  cases commands with
  | nil =>
    -- nothing that is left expires any more
    have hsweep : (s.space.sweep s.clock.now).entries[key]? =
        ((s.space.sweep s.clock.now).entries[key]?).filter (Keyspace.isAlive s.clock.now) := by
      rw [Keyspace.getElem?_sweep, Option.filter_filter]
      simp only [Bool.and_self]
    exact hsweep
  | cons c rest => exact Keyspace.getElem?_sweep ..

namespace Session

open Operation

variable {α σ β : Type} {w w₁ w₂ w₃ w' : Work α σ} {report : CommitReport Error}

/-- Finds the transaction to commit, and takes over what handlers edit. -/
def editing : Working α σ TransactionId := do
  let tx ← transactionToCommit
  viaClient Client.checkpoint
  absorbEdits tx
  return tx

/-- What the store says of everything that is pending. -/
def answering : Working α σ (List Answer) := do
  let prepared ← prepareAll (← current).trackers
  execute
  let commands := prepared.flatMap commandsFor
  let replies ← send commands
  settle
  if replies.length ≠ commands.length then
    finish
    let sent := Number.intText commands.length
    let got := Number.intText replies.length
    throw (.failed (.protocol s!"commit pipeline sent {sent} commands but got {got} replies"))
  return answers prepared replies

/-- Tells the handlers what has happened, and closes the transaction. -/
def reporting (tx : TransactionId) (applied : List Applied) :
    Working α σ (CommitReport Error) := do
  let layouts := (← current).trackers.map (·.layout)
  let notifications ← notifyAll tx (layouts.zip applied)
  finish
  return ⟨tx, applied.flatMap (·.outcomes), notifications⟩

/-- A commit goes through its phases, and fails if its report does. -/
theorem commit_eq :
    commit (α := α) (σ := σ) = (do
      let tx ← editing
      let found ← answering
      let applied ← applyAll found
      let report ← reporting tx applied
      if report.isSuccess then return report else throw (.failed (.commit report))) := by
  unfold commit editing answering reporting
  simp only [bind_assoc, pure_bind]
  congr! 16 with tx _ _ s prepared _ replies
  split
  -- behind replies that are too few or too many nothing runs
  · simp only [bind_assoc]
    rfl
  · simp only [pure_bind]

/-- The share of one model in a commit. -/
structure Share (α : Type) where
  /-- What the session held when nothing had been sent. -/
  before : Tracker α
  /-- What the store says of the contribution. -/
  answer : Answer
  /-- What was taken over. -/
  applied : Applied
  /-- What the session held then. -/
  after : Tracker α

/-- The answer was taken over. -/
def Share.Taken (s : Share α) : Prop :=
  runFrom s.before (Tracker.applyReply s.answer.prepared s.answer.reply s.answer.deleteFailure) =
    (.ok s.applied, s.after)

/-- A commit of `w` comes to its report and leads to `w'`. Behind what handlers edit, the session
stands as in `w₁`. -/
structure Commits (w w₁ : Work α σ) (shares : List (Share α)) (report : CommitReport Error)
    (w' : Work α σ) : Prop where
  edited : runFrom w editing = (.ok report.transaction, w₁)
  before : w₁.session.trackers = shares.map (·.before)
  run : ∃ w₂ w₃, runFrom w₁ answering = (.ok (shares.map (·.answer)), w₂) ∧
    runFrom w₂ (applyAll (shares.map (·.answer))) = (.ok (shares.map (·.applied)), w₃) ∧
    w₃.session.trackers = shares.map (·.after) ∧
    runFrom w₃ (reporting report.transaction (shares.map (·.applied))) = (.ok report, w')

section Editing

/-- Handlers that edit keep what neither the transaction nor the application matters to, if single
edits do. -/
theorem keeps_editing_of {P : Work α σ → Prop} (hP : Lasting P)
    (h : ∀ edits, Keeps P (viaTrackers (Operation.each Tracker.absorb edits))) : Keeps P editing :=
  (keeps_transactionToCommit hP).bind fun tx => (keeps_checkpoint _).bind fun _ =>
    (keeps_absorbEdits_of hP.app tx h).bind fun _ => meets_pure fun _ h => h

/-- What handlers edit is about trackers only. -/
theorem keeps_editing_beside {P : Work α σ → Prop} (hP : Lasting P)
    (htrackers : ∀ w trackers, P w → P { w with session := { w.session with trackers } }) :
    Keeps P editing :=
  keeps_editing_of hP fun _ => keeps_of_behind fun w hw => htrackers w _ hw

/-- What handlers edit changes neither the server nor the link. -/
theorem keeps_editing_link (w₀ : Work α σ) :
    Keeps (fun w => w.client.server = w₀.client.server ∧ w.client.fault = w₀.client.fault)
      (editing (α := α) (σ := σ)) :=
  keeps_editing_beside (fun _ _ _ _ h => h) fun _ _ h => h

/-- Nor does it register models. -/
theorem keeps_editing_catalog (c : Catalog) :
    Keeps (fun w => w.session.catalog = c) (editing (α := α) (σ := σ)) :=
  keeps_editing_beside (fun _ _ _ _ h => h) fun _ _ h => h

/-- What handlers edit keeps what operations of trackers keep. -/
theorem keeps_editing {I : Catalog → List (Tracker α) → Prop} (hI : Invariant I) :
    Keeps (Holds (σ := σ) I) editing :=
  keeps_editing_of (.holds I) (keeps_viaTrackers hI fun edited _ => .absorb edited)

end Editing

section Answering

/-- What a tracker contributes to a commit, in some session. -/
def Prepares (t : Tracker α) (p : Prepared) : Prop :=
  ∃ session validate lifetime n, t.prepare session validate lifetime n = .ok p

/-- What trackers of a session contribute one behind the other, with temporary names from the `n`-th
to before the `m`-th. -/
inductive Contribute (s : Session α σ) : Nat → List (Tracker α) → List Prepared → Nat → Prop
  | nil (n : Nat) : Contribute s n [] [] n
  | cons {n m : Nat} {t : Tracker α} {ts : List (Tracker α)} {p : Prepared} {ps : List Prepared}
    (first : t.prepare s.id s.config.validate s.catalog.config.lifetimeSeconds n = .ok p)
    (rest : Contribute s (n + p.names) ts ps m) : Contribute s n (t :: ts) (p :: ps) m

/-- Each tracker has its contribution. -/
theorem Contribute.prepares {s : Session α σ} {n m : Nat} {ts : List (Tracker α)}
    {ps : List Prepared} (h : Contribute s n ts ps m) : List.Forall₂ Prepares ts ps := by
  induction h with
  | nil => exact .nil
  | cons first _ ih => exact .cons ⟨_, _, _, _, first⟩ ih

/-- What the models contribute, and the names that are taken then. -/
theorem prepareAll_ok {ts : List (Tracker α)} {ps : List Prepared}
    (h : runFrom w (prepareAll ts) = (.ok ps, w')) :
    ∃ m, Contribute w.session w.client.supply.name ts ps m ∧ w' =
      { w with client := { w.client with supply := { w.client.supply with name := m } } } := by
  induction ts generalizing w ps with
  | nil =>
    cases h
    exact ⟨_, .nil _, rfl⟩
  | cons t rest ih =>
    rw [prepareAll, runFrom_bind_ok (runFrom_get w)] at h
    obtain ⟨p, w₁, hp, h₁⟩ := runFrom_bind_ok_iff.mp h
    obtain ⟨hp, rfl⟩ := runFrom_ofExcept_ok_iff.mp hp
    obtain ⟨_, w₂, hreserve, h₂⟩ := runFrom_bind_ok_iff.mp h₁
    obtain ⟨others, w₃, hrest, h₃⟩ := runFrom_bind_ok_iff.mp h₂
    cases hreserve
    cases h₃
    obtain ⟨m, hcontribute, rfl⟩ := ih hrest
    exact ⟨m, .cons hp hcontribute, rfl⟩

/-- Marking the transaction as sent changes nothing else. -/
theorem execute_ok {u : Unit} (h : runFrom w execute = (.ok u, w')) :
    ∃ transaction, w' = { w with session := { w.session with transaction } } := by
  unfold execute at h
  rw [runFrom_bind_ok (runFrom_current w)] at h
  split at h
  next =>
    obtain ⟨t, w₁, ht, hput⟩ := runFrom_bind_ok_iff.mp h
    obtain ⟨-, rfl⟩ := runFrom_ofExcept_ok_iff.mp ht
    cases hput
    exact ⟨_, rfl⟩
  next =>
    cases h
    exact ⟨_, rfl⟩

/-- All replies arrive if the link works. -/
theorem runFrom_send (hlink : w.client.fault = .none) (commands : List Command) :
    runFrom w (send commands) = (.ok (w.client.server.sweep.space.executeAll commands).1,
      { w with client := { w.client with server := w.client.server.sent commands } }) := by
  unfold send
  cases commands with
  | nil => rfl
  | cons c rest =>
    have hvia : runFrom w (viaClient (Client.pipeline (c :: rest))) = _ :=
      runFrom_on (Client.runFrom_pipeline hlink (c :: rest))
    simp only [List.isEmpty_cons, Bool.false_eq_true, if_false]
    rw [runFrom_tryCatch, hvia]
    rfl

/-- The store has answered each contribution. -/
theorem answering_ok (hlink : w.client.fault = .none) {found : List Answer}
    (h : runFrom w answering = (.ok found, w')) :
    ∃ ps m transaction, Contribute w.session w.client.supply.name w.session.trackers ps m ∧
      found = answersFrom w.client.server.sweep.space ps ∧ w' =
        { w with
          session := { w.session with transaction }
          client := { w.client with
            server := w.client.server.sent (ps.flatMap commandsFor)
            supply := { w.client.supply with name := m } } } := by
  unfold answering at h
  rw [runFrom_bind_ok (runFrom_current w)] at h
  obtain ⟨ps, w₁, hprepare, hnext⟩ := runFrom_bind_ok_iff.mp h
  obtain ⟨m, hcontribute, hw₁⟩ := prepareAll_ok hprepare
  obtain ⟨_, w₂, hexecute, hnext⟩ := runFrom_bind_ok_iff.mp hnext
  obtain ⟨transaction, hw₂⟩ := execute_ok hexecute
  -- up to here nothing has been sent
  have hlink₂ : w₂.client.fault = .none := by rw [hw₂, hw₁, hlink]
  simp only at hnext
  rw [runFrom_bind_ok (runFrom_send hlink₂ _)] at hnext
  obtain ⟨_, w₃, hsettle, hnext⟩ := runFrom_bind_ok_iff.mp hnext
  cases hsettle
  simp only [Keyspace.length_executeAll, ne_eq, not_true_eq_false, if_false] at hnext
  cases hnext
  subst hw₂
  subst hw₁
  exact ⟨ps, m, _, hcontribute, answers_executeAll .., rfl⟩

end Answering

section Taking

/-- An operation that ends the transaction when it stops succeeds as it would without that. -/
theorem orFinish_ok_iff {op : Working α σ β} {b : β} :
    runFrom w (tryCatch op fun stop => do
        finish
        throw stop) = (.ok b, w') ↔ runFrom w op = (.ok b, w') := by
  rw [runFrom_tryCatch]
  cases runFrom w op with
  | mk result w₁ =>
    cases result with
    | ok b' => rfl
    | error e =>
      refine ⟨fun h => ?_, nofun⟩
      obtain ⟨_, _, _, h⟩ := runFrom_bind_ok_iff.mp h
      cases h

/-- Answers are taken over tracker by tracker. -/
theorem exists_shares {ts ts' : List (Tracker α)} {found : List Answer} {applied : List Applied}
    (hlength : found.length = ts.length)
    (h : runFrom ts (Operation.each
      (fun a => Tracker.applyReply a.prepared a.reply a.deleteFailure) found) =
        (.ok applied, ts')) :
    ∃ shares : List (Share α), ts = shares.map (·.before) ∧ found = shares.map (·.answer) ∧
      applied = shares.map (·.applied) ∧ ts' = shares.map (·.after) := by
  induction found generalizing ts applied ts' with
  | nil =>
    obtain rfl := List.length_eq_zero_iff.mp hlength.symm
    cases h
    exact ⟨[], rfl, rfl, rfl, rfl⟩
  | cons a rest ih =>
    cases ts with
    | nil => cases hlength
    | cons t others =>
      rw [runFrom_each_cons] at h
      split at h
      next => cases h
      next b t₁ hfirst =>
        split at h
        next => cases h
        next bs others₁ hrest =>
          cases h
          obtain ⟨shares, rfl, rfl, rfl, rfl⟩ := ih (Nat.succ.inj hlength) hrest
          exact ⟨⟨t, a, b, t₁⟩ :: shares, rfl, rfl, rfl, rfl⟩

/-- Each share is what was taken over. -/
theorem taken_of_each {shares : List (Share α)}
    (h : runFrom (shares.map (·.before)) (Operation.each
      (fun a => Tracker.applyReply a.prepared a.reply a.deleteFailure) (shares.map (·.answer))) =
        (.ok (shares.map (·.applied)), shares.map (·.after))) : ∀ s ∈ shares, s.Taken := by
  induction shares with
  | nil => exact fun s hs => nomatch hs
  | cons s rest ih =>
    simp only [List.map_cons] at h
    rw [runFrom_each_cons] at h
    split at h
    next => cases h
    next b t₁ hfirst =>
      split at h
      next => cases h
      next bs others₁ hrest =>
        obtain ⟨hok, hstate⟩ := Prod.mk.inj h
        obtain ⟨rfl, rfl⟩ := List.cons.inj (Except.ok.inj hok)
        obtain ⟨rfl, rfl⟩ := List.cons.inj hstate
        exact List.forall_mem_cons.mpr ⟨hfirst, ih hrest⟩

/-- An operation on the trackers of a session. -/
theorem runFrom_viaTrackers (op : Operation (List (Tracker α)) β) :
    runFrom w (viaTrackers op) = ((runFrom w.session.trackers op).1,
      { w with session := { w.session with trackers := (runFrom w.session.trackers op).2 } }) := rfl

/-- What the store says of a contribution is taken over without fail. -/
theorem applyReply_answer_ok {t : Tracker α} (ht : t.Sound) {a : Answer} {ks : Keyspace}
    (hprepares : Prepares t a.prepared)
    (ha : a = answerOf a.prepared (ks.executeAll (commandsFor a.prepared)).1) :
    ∃ applied writes deletes t₁ t',
      runFrom t (Tracker.applyReply a.prepared a.reply a.deleteFailure) = (.ok applied, t') ∧
        applied.outcomes = writes ++ deletes ∧ t.Settlement a writes deletes t₁ t' := by
  obtain ⟨session, validate, lifetime, n, hprepare⟩ := hprepares
  have hfits : a.Fits := by
    rw [ha]
    exact fits_answerOf _ ks
  have hnodup := ((Tracker.keys_of_prepare hprepare).nodup_iff.mpr ht.nodup_dirty).of_append_right
  refine Tracker.applyReply_ok ht hfits hnodup fun w hw => ?_
  obtain ⟨i, hi, -⟩ := Tracker.exists_of_mem_writes hprepare hw
  exact ht.isSome_slot_of_mem_dirty hi

/-- What the store says of all contributions is taken over without fail. -/
theorem applyEach_ok {ts : List (Tracker α)} {ps : List Prepared} (ht : ∀ t ∈ ts, t.Sound)
    (h : List.Forall₂ Prepares ts ps) (ks : Keyspace) :
    ∃ applied ts', runFrom ts (Operation.each
        (fun a => Tracker.applyReply a.prepared a.reply a.deleteFailure) (answersFrom ks ps)) =
      (.ok applied, ts') := by
  induction h generalizing ks with
  | nil => exact ⟨[], [], rfl⟩
  | @cons t p ts ps hp hrest ih =>
    obtain ⟨ht, hts⟩ := List.forall_mem_cons.mp ht
    have hprepared := prepared_answerOf p (ks.executeAll (commandsFor p)).1
    obtain ⟨applied, -, -, -, t', hrun, -⟩ := applyReply_answer_ok ht
      (a := answerOf p (ks.executeAll (commandsFor p)).1) (hprepared.symm ▸ hp)
      (by rw [hprepared])
    obtain ⟨others, ts', hrun'⟩ := ih hts (ks.executeAll (commandsFor p)).2
    refine ⟨applied :: others, t' :: ts', ?_⟩
    rw [answersFrom, runFrom_each_cons, hrun]
    simp only [hrun']

/-- Taking over answers changes nothing but the trackers. -/
theorem applyAll_ok {found : List Answer} {applied : List Applied}
    (h : runFrom w (applyAll found) = (.ok applied, w')) :
    runFrom w.session.trackers (Operation.each
        (fun a => Tracker.applyReply a.prepared a.reply a.deleteFailure) found) =
      (.ok applied, w'.session.trackers) ∧ w'.client = w.client := by
  have h := orFinish_ok_iff.mp h
  rw [runFrom_viaTrackers] at h
  obtain ⟨hok, rfl⟩ := Prod.mk.inj h
  exact ⟨Prod.ext hok rfl, rfl⟩

end Taking

section Reporting

/-- Handlers are told whatever they do, and change nothing but the state of the application. -/
theorem notifyAll_ok (w : Work α σ) (tx : TransactionId) (changes : List (Layout × Applied)) :
    ∃ errors app, runFrom w (notifyAll tx changes) = (.ok errors, { w with app }) := by
  induction changes generalizing w with
  | nil => exact ⟨[], w.app, rfl⟩
  | cons change rest ih =>
    obtain ⟨l, applied⟩ := change
    have hnotify : ∀ (w : Work α σ) kind instances,
        ∃ errors app, runFrom w (notify tx kind l instances) = (.ok errors, { w with app }) :=
      fun _ _ _ => ⟨_, _, rfl⟩
    obtain ⟨written, app₁, hwritten⟩ := hnotify w .afterCommit applied.written
    obtain ⟨deleted, app₂, hdeleted⟩ := hnotify { w with app := app₁ } .afterDelete applied.deleted
    obtain ⟨errors, app₃, hrest⟩ := ih { w with app := app₂ }
    refine ⟨written ++ deleted ++ errors, app₃, ?_⟩
    rw [notifyAll, runFrom_bind_ok hwritten, runFrom_bind_ok hdeleted, runFrom_bind_ok hrest]
    rfl

/-- A commit whose answers have been taken over comes to its report. -/
theorem exists_reporting (w : Work α σ) (tx : TransactionId) (applied : List Applied) :
    ∃ errors app, runFrom w (reporting tx applied) =
      (.ok ⟨tx, applied.flatMap (·.outcomes), errors⟩,
        { w with session := { w.session with transaction := none }, app }) := by
  obtain ⟨errors, app, hnotify⟩ :=
    notifyAll_ok w tx ((w.session.trackers.map (·.layout)).zip applied)
  refine ⟨errors, app, ?_⟩
  unfold reporting
  rw [runFrom_bind_ok (runFrom_current w), runFrom_bind_ok hnotify]
  rfl

/-- A report has the lines of all models. -/
theorem reporting_ok {tx : TransactionId} {applied : List Applied}
    (h : runFrom w (reporting tx applied) = (.ok report, w')) :
    report.transaction = tx ∧ report.outcomes = applied.flatMap (·.outcomes) ∧
      w'.session.trackers = w.session.trackers ∧ w'.client = w.client := by
  obtain ⟨errors, app, hrun⟩ := exists_reporting w tx applied
  rw [hrun] at h
  cases h
  exact ⟨rfl, rfl, rfl, rfl⟩

end Reporting

/-- How a commit ends whose report is known. -/
def verdict (report : CommitReport Error) : Except Stop (CommitReport Error) :=
  if report.isSuccess then .ok report else .error (.failed (.commit report))

/-- The lines that a commit has reported, however it has ended. -/
def reported : Except Stop (CommitReport Error) → List (InstanceOutcome Error)
  | .ok report => report.outcomes
  | .error (.failed (.commit report)) => report.outcomes
  | .error _ => []

@[simp]
theorem reported_verdict (report : CommitReport Error) :
    reported (verdict report) = report.outcomes := by
  unfold verdict
  split <;> rfl

namespace Commits

variable {shares : List (Share α)}

/-- A commit that comes to its report ends as the report says. -/
theorem runFrom_commit (h : Commits w w₁ shares report w') :
    runFrom w commit = (verdict report, w') := by
  obtain ⟨w₂, w₃, hanswering, happly, -, hreporting⟩ := h.run
  rw [commit_eq, runFrom_bind_ok h.edited, runFrom_bind_ok hanswering, runFrom_bind_ok happly,
    runFrom_bind_ok hreporting, verdict]
  split <;> rfl

/-- The lines of the report are what the commit has reported. -/
theorem reported_eq (h : Commits w w₁ shares report w') :
    reported (runFrom w commit).1 = report.outcomes := by
  rw [h.runFrom_commit, reported_verdict]

/-- The report has the lines of all shares. -/
theorem outcomes_eq (h : Commits w w₁ shares report w') :
    report.outcomes = shares.flatMap (·.applied.outcomes) := by
  obtain ⟨w₂, w₃, -, -, -, hreporting⟩ := h.run
  rw [(reporting_ok hreporting).2.1, List.flatMap_map]

/-- Behind the commit, the trackers are those of the shares. -/
theorem trackers_eq (h : Commits w w₁ shares report w') :
    w'.session.trackers = shares.map (·.after) := by
  obtain ⟨w₂, w₃, -, -, hafter, hreporting⟩ := h.run
  rw [(reporting_ok hreporting).2.2.1, hafter]

variable (hlink : w.client.fault = .none)
include hlink

/-- What handlers edit changes neither the server nor the link. -/
theorem link_eq (h : Commits w w₁ shares report w') :
    w₁.client.server = w.client.server ∧ w₁.client.fault = .none := by
  have hlink₁ := (keeps_editing_link w).ok ⟨rfl, rfl⟩ h.edited
  exact ⟨hlink₁.1, hlink₁.2.trans hlink⟩

/-- The store has answered what the models contribute, one behind the other, and nothing else has
been sent. -/
theorem contribute (h : Commits w w₁ shares report w') :
    let ps := shares.map (·.answer.prepared)
    Contribute w₁.session w₁.client.supply.name (shares.map (·.before)) ps
        w'.client.supply.name ∧
      shares.map (·.answer) = answersFrom w.client.server.sweep.space ps ∧
      w'.client.server = w.client.server.sent (ps.flatMap commandsFor) := by
  intro ps
  obtain ⟨hserver, hlink₁⟩ := h.link_eq hlink
  obtain ⟨w₂, w₃, hanswering, happly, -, hreporting⟩ := h.run
  obtain ⟨ps', m, transaction, hcontribute, hanswers, rfl⟩ := answering_ok hlink₁ hanswering
  have hps : ps = ps' := by
    have hprepared := map_prepared_answersFrom w₁.client.server.sweep.space ps'
    rw [← hanswers, List.map_map] at hprepared
    exact hprepared
  subst hps
  rw [h.before] at hcontribute
  rw [(reporting_ok hreporting).2.2.2, (applyAll_ok happly).2, ← hserver]
  exact ⟨hcontribute, hanswers, rfl⟩

/-- The store has answered the contributions of all models, one behind the other, and is as they
have left it. -/
theorem answers_eq (h : Commits w w₁ shares report w') :
    let ps := shares.map (·.answer.prepared)
    shares.map (·.answer) = answersFrom w.client.server.sweep.space ps ∧
      (∀ s ∈ shares, Prepares s.before s.answer.prepared) ∧
      (ps.flatMap commandsFor ≠ [] → w'.client.server.space =
        (w.client.server.sweep.space.executeAll (ps.flatMap commandsFor)).2) := by
  intro ps
  obtain ⟨hcontribute, hanswers, hserver⟩ := h.contribute hlink
  have hprepares := hcontribute.prepares
  rw [List.forall₂_map_left_iff, List.forall₂_map_right_iff, List.forall₂_same] at hprepares
  refine ⟨hanswers, hprepares, fun hsent => ?_⟩
  rw [hserver, Server.space_sent _ hsent]

/-- Each answer says something sensible of its contribution. -/
theorem fits (h : Commits w w₁ shares report w') : ∀ s ∈ shares, s.answer.Fits := by
  intro s hs
  have hmem : s.answer ∈ shares.map (·.answer) := List.mem_map_of_mem hs
  rw [(h.answers_eq hlink).1] at hmem
  obtain ⟨ks, hks⟩ := exists_of_mem_answersFrom hmem
  rw [hks]
  exact fits_answerOf _ ks

/-- Each answer was taken over. -/
theorem taken (h : Commits w w₁ shares report w') : ∀ s ∈ shares, s.Taken := by
  obtain ⟨w₂, w₃, hanswering, happly, hafter, -⟩ := h.run
  obtain ⟨_, _, _, -, -, hw₂⟩ := answering_ok (h.link_eq hlink).2 hanswering
  have heach := (applyAll_ok happly).1
  simp only [hw₂, h.before, hafter] at heach
  exact taken_of_each heach

/-- Each answer makes sense, and its lines have been taken over. -/
theorem settlement_of_sound (hw : Sound w) (h : Commits w w₁ shares report w') :
    ∀ s ∈ shares, s.before.Sound ∧ Prepares s.before s.answer.prepared ∧
      ∃ writes deletes t₁, s.applied.outcomes = writes ++ deletes ∧
        Tracker.Settlement s.before s.answer writes deletes t₁ s.after := by
  intro s hs
  have hsound : s.before.Sound := by
    have hsound₁ := (keeps_editing invariant_sound).ok hw h.edited
    exact hsound₁ _ (h.before ▸ List.mem_map_of_mem hs)
  obtain ⟨hanswers, hprepares, -⟩ := h.answers_eq hlink
  have hmem : s.answer ∈ shares.map (·.answer) := List.mem_map_of_mem hs
  rw [hanswers] at hmem
  obtain ⟨ks, hks⟩ := exists_of_mem_answersFrom hmem
  obtain ⟨applied, writes, deletes, t₁, t', hrun, houtcomes, hsettlement⟩ :=
    applyReply_answer_ok hsound (hprepares s hs) hks
  have htaken : runFrom s.before (Tracker.applyReply s.answer.prepared s.answer.reply
      s.answer.deleteFailure) = _ := h.taken hlink s hs
  rw [htaken] at hrun
  obtain ⟨happlied, rfl⟩ := Prod.mk.inj hrun
  obtain rfl := Except.ok.inj happlied
  exact ⟨hsound, hprepares s hs, writes, deletes, t₁, houtcomes, hsettlement⟩

theorem settlement (hw : Reachable w) (h : Commits w w₁ shares report w') :
    ∀ s ∈ shares, s.before.Sound ∧ Prepares s.before s.answer.prepared ∧
      ∃ writes deletes t₁, s.applied.outcomes = writes ++ deletes ∧
        Tracker.Settlement s.before s.answer writes deletes t₁ s.after :=
  h.settlement_of_sound hlink (sound_of_reachable hw)

end Commits

/-- A commit whose pipeline was answered comes to its report. -/
theorem exists_commits_of_sound (hw : Sound w) (hlink : w.client.fault = .none)
    {tx : TransactionId} (hediting : runFrom w editing = (.ok tx, w₁)) {found : List Answer}
    (hanswering : runFrom w₁ answering = (.ok found, w₂)) :
    ∃ shares report w', report.transaction = tx ∧ Commits w w₁ shares report w' := by
  have hlink₁ := ((keeps_editing_link w).ok ⟨rfl, rfl⟩ hediting).2.trans hlink
  have hsound₁ : Sound w₁ := (keeps_editing invariant_sound).ok hw hediting
  obtain ⟨ps, m, transaction, hcontribute, hfound, hw₂⟩ := answering_ok hlink₁ hanswering
  have htrackers : w₂.session.trackers = w₁.session.trackers := by rw [hw₂]
  obtain ⟨applied, ts', heach⟩ :=
    applyEach_ok hsound₁ hcontribute.prepares w₁.client.server.sweep.space
  rw [← hfound, ← htrackers] at heach
  have happly : runFrom w₂ (applyAll found) = (.ok applied,
      { w₂ with session := { w₂.session with trackers := ts' } }) := by
    refine orFinish_ok_iff.mpr ?_
    rw [runFrom_viaTrackers, heach]
  -- there are as many answers as trackers, so that each tracker has its share
  have hlength : found.length = w₂.session.trackers.length := by
    rw [htrackers, hcontribute.prepares.length_eq, hfound,
      ← congrArg List.length (map_prepared_answersFrom w₁.client.server.sweep.space ps),
      List.length_map]
  obtain ⟨shares, hbefore, rfl, rfl, rfl⟩ := exists_shares hlength heach
  obtain ⟨errors, app, hreporting⟩ := exists_reporting
    { w₂ with session := { w₂.session with trackers := shares.map (·.after) } } tx
    (shares.map (·.applied))
  exact ⟨shares, ⟨tx, _, errors⟩, _, rfl, hediting, htrackers ▸ hbefore, w₂, _, hanswering, happly,
    rfl, hreporting⟩

theorem exists_commits (hw : Reachable w) (hlink : w.client.fault = .none) {tx : TransactionId}
    (hediting : runFrom w editing = (.ok tx, w₁)) {found : List Answer}
    (hanswering : runFrom w₁ answering = (.ok found, w₂)) :
    ∃ shares report w', report.transaction = tx ∧ Commits w w₁ shares report w' :=
  exists_commits_of_sound (sound_of_reachable hw) hlink hediting hanswering

/-- An operation that is seen to succeed leads somewhere. -/
theorem exists_ok_of_isOk {op : Working α σ β} (h : (runFrom w op).1.isOk = true) :
    ∃ b w', runFrom w op = (.ok b, w') := by
  cases hop : runFrom w op with
  | mk result w' =>
    cases result with
    | ok b => exact ⟨b, w', rfl⟩
    | error e =>
      rw [hop] at h
      cases h

/-- A commit that is seen to get through to the answers comes to its report. -/
theorem exists_commits_of_isOk (hw : Reachable w) (hlink : w.client.fault = .none)
    (hediting : (runFrom w editing).1.isOk = true)
    (hanswering : (runFrom (runFrom w editing).2 answering).1.isOk = true) :
    ∃ w₁ shares report w', Commits w w₁ shares report w' := by
  obtain ⟨tx, w₁, hediting⟩ := exists_ok_of_isOk hediting
  rw [hediting] at hanswering
  obtain ⟨found, w₂, hanswering⟩ := exists_ok_of_isOk hanswering
  obtain ⟨shares, report, w', -, hcommits⟩ := exists_commits hw hlink hediting hanswering
  exact ⟨w₁, shares, report, w', hcommits⟩

/-- A commit that succeeds has come to its report. -/
theorem exists_commits_of_ok (hw : Reachable w) (hlink : w.client.fault = .none)
    (h : runFrom w commit = (.ok report, w')) :
    ∃ w₁ shares, Commits w w₁ shares report w' ∧ report.isSuccess = true := by
  have hcommit := h
  rw [commit_eq] at h
  obtain ⟨tx, w₁, hediting, h⟩ := runFrom_bind_ok_iff.mp h
  obtain ⟨found, w₂, hanswering, -⟩ := runFrom_bind_ok_iff.mp h
  obtain ⟨shares, report', w'', -, hcommits⟩ := exists_commits hw hlink hediting hanswering
  rw [hcommits.runFrom_commit, verdict] at hcommit
  split at hcommit
  next hsuccess =>
    cases hcommit
    exact ⟨w₁, shares, hcommits, hsuccess⟩
  next => cases hcommit

end Session

end KeyedRecords
