import KeyedRecords.Proofs.Client.Running
import KeyedRecords.Proofs.Query.Lowering
import KeyedRecords.Proofs.Store.Listing
import KeyedRecords.Query.Live

/-!
# Reading the ids of a query

A query that is asked for its ids becomes a tree and a plan; the commands of the plan are sent with
one read behind them. With a link that works, and temporary keys that are free, the ids that are
read are those that the tree denotes, each of them once.
-/

namespace KeyedRecords

/-- Without an order, a plan is read in the order of the collections. -/
theorem Tree.reader_of_lower {tree : Tree} {lifetime n : Nat} {plan : Plan}
    (h : tree.lower none lifetime n = .ok plan) :
    (plan.source = none → plan.reader = .empty) ∧
      ∀ key, plan.source = some key → plan.reader =
        tree.origin.layout.defaultOrdering.elim (.set key) fun order =>
          .sorted key order.descending := by
  obtain ⟨found, -, rfl⟩ := lower_none_ok h
  unfold Lowering.storagePlan
  dsimp only
  constructor
  · intro hsource
    rw [hsource]
  · intro key hsource
    rw [hsource]
    cases tree.origin.layout.defaultOrdering <;> rfl

namespace ResultSet

variable {r : ResultSet} {client : Client} {ks ks' : Keyspace} {found : List String}

theorem runFrom_viaClient {α : Type} {op : Operation Client α} {a : α} {client' : Client}
    (h : runFrom client op = (.ok a, client')) :
    runFrom (r, client) (viaClient op) = (.ok a, (r, client')) :=
  Operation.runFrom_on h

theorem runFrom_current (r : ResultSet) (client : Client) :
    runFrom (r, client) current = (.ok r, (r, client)) := rfl

/-- Replies none of which reports a failure. -/
theorem runFrom_checkReplies {σ : Type} (s : σ) {replies : List Reply}
    (h : ∀ reply ∈ replies, reply.isError = false) :
    runFrom s (checkReplies replies) = (.ok ⟨⟩, s) := by
  induction replies with
  | nil => rfl
  | cons reply rest ih =>
    have hcheck : reply.check = .ok reply := by
      have hreply := h reply List.mem_cons_self
      cases reply with
      | error message => cases hreply
      | _ => rfl
    unfold checkReplies
    rw [runFrom_bind_ok (runFrom_discard_ok (Operation.runFrom_ofExcept hcheck s))]
    exact ih fun reply hreply => h reply (List.mem_cons_of_mem _ hreply)

/-- Replies that have been checked report no failure. -/
theorem checkReplies_ok {σ : Type} {s s' : σ} {replies : List Reply}
    (h : runFrom s (checkReplies replies) = (.ok ⟨⟩, s')) :
    s' = s ∧ ∀ reply ∈ replies, reply.isError = false := by
  induction replies generalizing s with
  | nil =>
    cases h
    exact ⟨rfl, List.forall_mem_nil _⟩
  | cons reply rest ih =>
    unfold checkReplies at h
    cases reply with
    | error message =>
      -- the check stops here
      have hcheck : runFrom s (discard (Operation.ofExcept (Reply.error message).check)) =
          (.error (.failed (Reply.failure message)), s) := rfl
      rw [runFrom_bind_error hcheck] at h
      cases h
    | _ =>
      obtain ⟨rfl, hrest⟩ := ih h
      exact ⟨rfl, List.forall_mem_cons.mpr ⟨rfl, hrest⟩⟩

/-- When a plan has been carried out, its commands have succeeded, and they have been sent together
with the reads. -/
theorem run_ok (hclient : client.Works) (hr : r.materialized = false)
    (hcommands : r.plan.commands ≠ []) {reads : List Command} {replies : List Reply}
    {s : ResultSet × Client} (h : runFrom (r, client) (run reads) = (.ok replies, s)) :
    client.server.sweep.space.Passes r.plan.commands ∧
      s = ({ r with materialized := true },
        { client with server := (client.server.pipeline (r.plan.commands ++ reads)).2 }) := by
  have hall := Keyspace.executeAll_append client.server.sweep.space r.plan.commands reads
  have hlength := Keyspace.length_executeAll client.server.sweep.space r.plan.commands
  have hreads := Keyspace.length_executeAll (client.server.sweep.space.executeAll r.plan.commands).2
    reads
  unfold run at h
  rw [runFrom_bind_ok (runFrom_viaClient hclient.runFrom_checkpoint),
    runFrom_bind_ok (runFrom_current r client)] at h
  simp only [hr, Bool.false_eq_true, if_false] at h
  rw [runFrom_bind_ok (runFrom_viaClient (hclient.runFrom_pipeline _)), hall] at h
  rw [if_neg (by simp [hlength, hreads]), List.take_left' hlength, List.drop_left' hlength,
    runFrom_bind_ok_iff] at h
  obtain ⟨⟨⟩, s₁, hcheck, h⟩ := h
  obtain ⟨rfl, hpasses⟩ := checkReplies_ok hcheck
  have hne : r.plan.commands.isEmpty = false := by simpa [List.isEmpty_iff] using hcommands
  simp only [hne] at h
  cases h
  exact ⟨hpasses, rfl⟩

/-- The commands that are sent in front of the next read. -/
def ahead (r : ResultSet) : List Command := if r.materialized then [] else r.plan.commands

/-- One read behind what has to be sent first, and where it leads. -/
theorem runFrom_run (hclient : client.Works)
    (h : client.server.sweep.space.Succeeds r.ahead ks) (read : Command) :
    runFrom (r, client) (run [read]) = (.ok [(ks.execute read).1],
      ({ r with materialized := r.materialized || !r.ahead.isEmpty },
        { client with server := (client.server.pipeline (r.ahead ++ [read])).2 })) := by
  have hall : (client.server.sweep.space.executeAll (r.ahead ++ [read])).1 =
      (client.server.sweep.space.executeAll r.ahead).1 ++ [(ks.execute read).1] := by
    rw [Keyspace.executeAll_append, h.leads]
    rfl
  have hlength := Keyspace.length_executeAll client.server.sweep.space r.ahead
  unfold run
  rw [runFrom_bind_ok (runFrom_viaClient hclient.runFrom_checkpoint),
    runFrom_bind_ok (runFrom_current r client)]
  have hahead : (if r.materialized then [] else r.plan.commands) = r.ahead := rfl
  simp only [hahead]
  rw [runFrom_bind_ok (runFrom_viaClient (hclient.runFrom_pipeline _)), hall,
    if_neg (by simp [hlength]), List.take_left' hlength, List.drop_left' hlength,
    runFrom_bind_ok (runFrom_checkReplies _ h.replies)]
  cases r.ahead.isEmpty with
  | true =>
    rw [Bool.not_true, Bool.or_false]
    rfl
  | false =>
    rw [Bool.not_false, Bool.or_true]
    rfl

/-- The commands of a plan and a read behind them are sent together, and the read is answered from
where the commands lead. -/
theorem exists_run (hclient : client.Works) (hr : r.materialized = false)
    (h : client.server.sweep.space.Succeeds r.plan.commands ks') (read : Command) :
    ∃ s, runFrom (r, client) (run [read]) = (.ok [(ks'.execute read).1], s) := by
  have hahead : r.ahead = r.plan.commands := by simp [ahead, hr]
  exact ⟨_, runFrom_run hclient (hahead ▸ h) read⟩

/-- Every read of a result set is answered from a key space. -/
def Answers (r : ResultSet) (client : Client) (ks : Keyspace) : Prop :=
  ∀ read, ∃ s, runFrom (r, client) (runOne read) = (.ok (ks.execute read).1, s)

/-- Reads are answered from where the commands lead that are sent in front of them. -/
theorem answers_of_ahead (hclient : client.Works)
    (h : client.server.sweep.space.Succeeds r.ahead ks) : r.Answers client ks := by
  intro read
  unfold runOne
  rw [runFrom_bind_ok (runFrom_run hclient h read)]
  exact ⟨_, rfl⟩

/-- The first read is answered from where the commands of the plan lead. -/
theorem answers_of_succeeds (hclient : client.Works) (hr : r.materialized = false)
    (h : client.server.sweep.space.Succeeds r.plan.commands ks') : r.Answers client ks' := by
  have hahead : r.ahead = r.plan.commands := by simp [ahead, hr]
  exact answers_of_ahead hclient (hahead ▸ h)

/-- Later reads are answered from what is there. -/
theorem answers_of_materialized (hclient : client.Works) (hr : r.materialized = true) :
    r.Answers client client.server.sweep.space := by
  have hahead : r.ahead = [] := by simp [ahead, hr]
  exact answers_of_ahead hclient (hahead ▸ .nil _)

/-- A read that is answered with texts. -/
theorem Answers.exists_readIds (h : r.Answers client ks) {read : Command}
    (hread : ks.execute read = (.list found, ks)) :
    ∃ s, runFrom (r, client) (readIds read) = (.ok found, s) := by
  obtain ⟨s, hrun⟩ := h read
  rw [hread] at hrun
  unfold readIds
  rw [runFrom_bind_ok hrun]
  exact ⟨s, rfl⟩

/-- All ids of a plan are read: each once, and those that its tree denotes. -/
theorem exists_ids {tree : Tree} {lifetime n : Nat} (hclient : client.Works)
    (hr : r.materialized = false) (h : tree.lower none lifetime n = .ok r.plan)
    (hread : tree.origin.layout.Readable client.server.sweep.space)
    (hfresh : client.server.sweep.space.Fresh r.plan.temporaries) :
    ∃ found s, runFrom (r, client) (ids 0 none) = (.ok found, s) ∧ found.Nodup ∧
      ∀ id, id ∈ found ↔ tree.Denotes tree.origin.layout client.server.sweep.space id := by
  obtain ⟨ks', hrun, -, hmean⟩ := Tree.runs_of_lower h hread hfresh
  have hanswers := answers_of_succeeds hclient hr hrun
  obtain ⟨hempty, hreader⟩ := Tree.reader_of_lower h
  unfold ids
  rw [runFrom_bind_ok (runFrom_current r client)]
  cases hsource : r.plan.source with
  | none =>
    rw [hempty hsource]
    refine ⟨[], _, rfl, .nil, fun id => ?_⟩
    exact iff_of_false List.not_mem_nil (Tree.not_denotes_of_lower h hsource hread id)
  | some key =>
    obtain ⟨hfits, hhas⟩ := hmean key hsource
    -- an ordered model is read in its order, and others as sets
    unfold Layout.memberKind Layout.isOrdered at hfits
    rw [hreader key hsource]
    cases hordering : tree.origin.layout.defaultOrdering with
    | none =>
      rw [hordering] at hfits
      obtain ⟨found, hfound, hlisted⟩ := Keyspace.Fits.execute_smembers hfits
      obtain ⟨s, hs⟩ := hanswers.exists_readIds hfound
      refine ⟨found, s, ?_, hlisted.nodup, fun id => (hlisted.mem_iff id).trans (hhas id)⟩
      dsimp only [Option.elim]
      rw [runFrom_bind_ok hs, Slice.slice_all]
      rfl
    | some order =>
      rw [hordering] at hfits
      obtain ⟨found, hfound, hlisted⟩ := Keyspace.Fits.execute_zrange hfits order.descending
      obtain ⟨s, hs⟩ := hanswers.exists_readIds hfound
      exact ⟨found, s, hs, hlisted.nodup, fun id => (hlisted.mem_iff id).trans (hhas id)⟩

end ResultSet

namespace LiveQuery

variable {ε : Type} {consult : Consult ε} {q : Query ε} {tree : Tree} {plan : Plan}
  {client : Client}

/-- A query becomes a tree and a plan. -/
theorem exists_prepare (hq : q.construct consult = .ok tree) (hordering : q.terms.ordering = none)
    (hplan : tree.lower none q.terms.lifetime client.supply.name = .ok plan) :
    ∃ name, runFrom (ofQuery q, client) (prepare consult) =
      (.ok ⟨q.layout, plan, false⟩,
        (⟨q, some tree, some ⟨q.layout, plan, false⟩⟩,
          { client with supply := { client.supply with name } })) := by
  have hconstruct : runFrom (ofQuery q, client) (construct consult) =
      (.ok tree, (⟨q, some tree, none⟩, client)) := by
    unfold construct
    rw [runFrom_bind_ok (Operation.runFrom_get _)]
    dsimp only [ofQuery]
    rw [runFrom_bind_ok (Operation.runFrom_ofExcept hq _)]
    rfl
  unfold prepare
  rw [runFrom_bind_ok (Operation.runFrom_get _)]
  dsimp only [ofQuery] at hconstruct ⊢
  rw [runFrom_bind_ok hconstruct, runFrom_bind_ok (Operation.runFrom_get _)]
  dsimp only
  rw [hordering, Option.map_none, runFrom_bind_ok (Operation.runFrom_ofExcept hplan _)]
  exact ⟨_, rfl⟩

/-- All ids of a query are read: each once, and those that its tree denotes. -/
theorem exists_ids (hclient : client.Works) (hq : q.construct consult = .ok tree)
    (hordering : q.terms.ordering = none)
    (hplan : tree.lower none q.terms.lifetime client.supply.name = .ok plan)
    (hread : tree.origin.layout.Readable client.server.sweep.space)
    (hfresh : client.server.sweep.space.Fresh plan.temporaries) :
    ∃ found s, runFrom (ofQuery q, client) (ids consult) = (.ok found, s) ∧ found.Nodup ∧
      ∀ id, id ∈ found ↔ tree.Denotes tree.origin.layout client.server.sweep.space id := by
  obtain ⟨name, hprepare⟩ := exists_prepare hq hordering hplan
  -- names have been reserved, and nothing else about the client has changed
  have hworks : ({ client with supply := { client.supply with name } } : Client).Works :=
    ⟨hclient.fault, hclient.cancelled⟩
  obtain ⟨found, s, hids, hnodup, hmem⟩ :=
    ResultSet.exists_ids (r := ⟨q.layout, plan, false⟩) hworks rfl hplan hread hfresh
  have hrun : ∃ s, runFrom (ofQuery q, client) (LiveQuery.ids consult) = (.ok found, s) := by
    unfold LiveQuery.ids viaResults
    rw [runFrom_bind_ok hprepare]
    exact ⟨_, Operation.runFrom_on hids⟩
  obtain ⟨s, hrun⟩ := hrun
  exact ⟨found, s, hrun, hnodup, hmem⟩

end LiveQuery

end KeyedRecords
