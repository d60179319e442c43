import KeyedRecords.Proofs.Commit.History
import KeyedRecords.Proofs.Query.Blocks
import KeyedRecords.Session.Commit

/-!
# Deletes that could not be evaluated

The commands that collect the ids to delete are sent in one pipeline with the script that deletes
them, which runs whatever became of the commands. If the key that the script reads is starved, it
finds nothing there, and no record is deleted (`Tracker.starved_delete`). A command that failed in
one operand of a union, or in what is taken away, starves nothing: the other ids are deleted though
the session reports that the deletes have failed (`Tracker.delete_despite_failure`).
-/

namespace KeyedRecords

namespace CommitScript

open Keyspace

variable {ks : Keyspace} {b : Batch}

/-- Where the collection of all ids has another kind, every delete is refused. -/
theorem visit_delete_refused (h : ¬ks.Fits b.keys.ids (memberKind b)) (id : String) :
    ∃ e, visit b ks (.delete id) = ⟨.delete id, ks, .error e, ks⟩ := by
  obtain hrefused | ⟨record, ks', hchecked, -⟩ := visit_delete b ks id
  · exact hrefused
  · exact absurd hchecked.ids h

/-- Refused deletes lead nowhere, and no id is among those deleted. -/
theorem visits_deletes_refused (h : ¬ks.Fits b.keys.ids (memberKind b)) (ids : List String) :
    (replyOf (visits b ks (ids.map .delete))).deleted = [] ∧
      behind ks (visits b ks (ids.map .delete)) = ks := by
  induction ids with
  | nil => exact ⟨rfl, rfl⟩
  | cons id rest ih =>
    obtain ⟨e, hvisit⟩ := visit_delete_refused h id
    rw [List.map_cons, visits, hvisit]
    exact ih

/-- A commit that finds no ids to delete, or where every delete is refused, deletes nothing and
leads where its writes lead. -/
theorem run_of_no_deletes {ids : List String} (hids : ks.run (idsOf b.deletes) = (.ok ids, ks))
    (h : ks.Fits b.keys.ids (memberKind b) → ids = []) :
    ∃ reply, ks.run (run b) = (.ok reply, behind ks (visits b ks (b.writes.map .write))) ∧
      reply.deleted = [] := by
  -- the deletes come first, and the writes start from the same key space
  have hdeletes : (replyOf (visits b ks (ids.eraseDups.map .delete))).deleted = [] ∧
      behind ks (visits b ks (ids.eraseDups.map .delete)) = ks := by
    by_cases hfits : ks.Fits b.keys.ids (memberKind b)
    · rw [h hfits]
      exact ⟨rfl, rfl⟩
    · exact visits_deletes_refused hfits ids.eraseDups
  obtain ⟨hdeleted, hbehind⟩ := hdeletes
  have hrun := run_eq hids
  rw [turnsOf, visits_append, behind_append, hbehind, replyOf_append (fun v => id?_of_mem_visits)
    (fun v => write?_of_mem_visits)] at hrun
  exact ⟨_, hrun, hdeleted⟩

/-- Where the keys of the ids to delete are missing, there are no ids to delete. -/
theorem run_idsOf_of_absent {sources : List DeleteSource}
    (h : ∀ source ∈ sources, ∃ key, source = .key key ∧ ks.data? key = none) :
    ks.run (idsOf sources) = (.ok [], ks) := by
  induction sources with
  | nil => rfl
  | cons source rest ih =>
    obtain ⟨⟨key, rfl, hnone⟩, hrest⟩ := List.forall_mem_cons.mp h
    have hread : ks.run (Step.read (·.members key)) = (.ok [], ks) := by
      rw [run_read, members, hnone]
    rw [idsOf, run_bind_ok hread, run_bind_ok (ih hrest), run_pure]
    rfl

/-- A write takes no record away. -/
theorem isSome_data?_write {id : String} (h : (ks.data? (b.keys.object id)).isSome)
    (w : InstanceWrite) : ((visit b ks (.write w)).after.data? (b.keys.object id)).isSome := by
  obtain ⟨e, hvisit⟩ | ⟨c, i, ks₁, ks', -, hassigned, hwritten, hvisit⟩ := visit_write b ks w
  · rwa [hvisit]
  · rw [hvisit]
    by_cases heq : id = i
    · rw [heq]
      exact hwritten.isSome_object
    · rw [hwritten.objects id heq]
      cases hassigned with
      | named => exact h
      | counted =>
        -- the counter is no record
        have hne : b.keys.object id ≠ b.keys.counter :=
          ModelKeys.InSection.ne (.object id rfl) (.counter rfl) (by simp)
        rwa [data?_update, if_neg hne]

/-- Writes take no record away. -/
theorem isSome_data?_writes {id : String} (h : (ks.data? (b.keys.object id)).isSome)
    (ws : List InstanceWrite) :
    ((behind ks (visits b ks (ws.map .write))).data? (b.keys.object id)).isSome := by
  induction ws generalizing ks with
  | nil => exact h
  | cons w rest ih => exact ih (isSome_data?_write h w)

end CommitScript

namespace Session

open Keyspace CommitScript

/-- The script of a model runs behind the commands that collect its ids to delete. -/
theorem executeAll_commandsFor {p : Prepared} (hbatch : p.hasBatch = true) (ks : Keyspace) :
    ks.executeAll (commandsFor p) =
      ((ks.executeAll p.preamble).1 ++
          [((ks.executeAll p.preamble).2.execute (.eval (.commit p.batch))).1],
        ((ks.executeAll p.preamble).2.execute (.eval (.commit p.batch))).2) := by
  rw [commandsFor, if_pos hbatch, executeAll_append]
  rfl

/-- The answer of a model holds the reply to its script. -/
theorem reply_answerOf {p : Prepared} (hbatch : p.hasBatch = true) (ks : Keyspace) :
    (answerOf p (ks.executeAll (commandsFor p)).1).reply =
      ((ks.executeAll p.preamble).2.execute (.eval (.commit p.batch))).1.asCommit.mapError
        Error.asRefusal := by
  rw [executeAll_commandsFor hbatch, answerOf, hbatch, ← length_executeAll ks p.preamble]
  simp

end Session

/-- What holds of the layouts of trees holds of that of their union. -/
theorem Tree.layout_unionOf {P : Layout → Prop} {o : Origin} {trees : List Tree} (ho : P o.layout)
    (h : ∀ tree ∈ trees, P tree.origin.layout) : P (Tree.unionOf o trees).origin.layout := by
  unfold Tree.unionOf
  split
  next => exact ho
  -- a single tree is not wrapped, and keeps its own origin
  next only honly =>
    have hmem : only ∈ trees.filter (!·.isEmpty) := by simp [honly]
    exact h only (List.mem_filter.mp hmem).1
  next => exact ho

namespace Tracker

open Keyspace CommitScript Lowering

variable {α : Type} {t : Tracker α} {session : SessionId} {validate : Bool} {lifetime n : Nat}
  {p : Prepared} {ks : Keyspace}

/-- What holds of the layouts of a tracker and of its queries holds of that of all that is to be
deleted. -/
theorem layout_deleteTree {P : Layout → Prop} (hown : P t.layout)
    (hqueries : ∀ q ∈ t.deleteQueries, P q.origin.layout) :
    P (t.deleteTree session).origin.layout := by
  refine Tree.layout_unionOf hown (List.forall_mem_cons.mpr ⟨?_, hqueries⟩)
  unfold Tree.selection
  split <;> exact hown

/-- What a tracker contributes: the ids to delete are under one key at most, which is the source of
the plan that the other commands are those of. -/
theorem prepare_ok (h : t.prepare session validate lifetime n = .ok p) :
    ∃ plan writes, t.deletePlan session lifetime n = .ok plan ∧
      p.batch = batchOf t.layout writes ((plan.bind (·.source)).toList.map .key) ∧
      p.preamble = (plan.map (·.commands)).getD [] ∧
      p.names = (plan.map (·.temporaries.length)).getD 0 := by
  obtain ⟨plan, hplan, h⟩ := bind_ok_iff.mp h
  cases h
  exact ⟨plan, _, hplan, rfl, rfl, rfl⟩

/-- The commands that collect the ids to delete come in blocks. -/
theorem preamble_blocks (h : t.prepare session validate lifetime n = .ok p) :
    let target : Target := ⟨(t.deleteTree session).origin.layout, lifetime⟩
    Blocks target n p.preamble ((List.range' n p.names).map target.temporary) := by
  obtain ⟨plan, -, hplan, -, hpreamble, hnames⟩ := prepare_ok h
  unfold deletePlan at hplan
  simp only at hplan
  split at hplan
  next =>
    cases hplan
    rw [hpreamble, hnames]
    exact .nil n
  next =>
    obtain ⟨plan', hlower, rfl⟩ := map_ok_iff.mp hplan
    obtain ⟨found, hfound, rfl⟩ := Tree.lower_none_ok hlower
    have hblocks := lowerNode_blocks hfound
    have hkeys := hblocks.keys_eq
    rw [hpreamble, hnames]
    show Blocks _ n found.commands ((List.range' n found.temporaries.length).map _)
    rw [hkeys] at hblocks
    exact hblocks

/-- If all of it is of the model of the tracker, the blocks are for that model. -/
theorem preamble_blocks_of_queries
    (hqueries : ∀ q ∈ t.deleteQueries, q.origin.layout = t.layout)
    (h : t.prepare session validate lifetime n = .ok p) :
    Blocks ⟨t.layout, lifetime⟩ n p.preamble
      ((List.range' n p.names).map t.layout.keys.temporary) := by
  have hblocks := preamble_blocks h
  rwa [layout_deleteTree (P := (· = t.layout)) rfl hqueries] at hblocks

/-- The commands that collect the ids to delete change results of queries only, whether or not they
fail. -/
theorem beside_preamble (h : t.prepare session validate lifetime n = .ok p)
    (hqueries : ∀ q ∈ t.deleteQueries, q.origin.layout.keys = t.layout.keys) (ks : Keyspace) :
    Beside (t.layout.keys.InSection · .temporary) ks (ks.executeAll p.preamble).2 := by
  refine ((preamble_blocks h).beside ks).mono fun key hkey => ?_
  obtain ⟨m, -, rfl⟩ := List.mem_map.mp hkey
  rw [Target.temporary, layout_deleteTree (P := fun l => l.keys = t.layout.keys) rfl hqueries]
  exact .temporary m rfl

/-- If the key of the ids to delete is starved, the script behind the commands that collect them
fails and changes nothing, or it leads where its writes lead. -/
theorem run_of_starved (h : t.prepare session validate lifetime n = .ok p)
    (hqueries : ∀ q ∈ t.deleteQueries, q.origin.layout = t.layout)
    (hfresh : ks.Fresh ((List.range' n p.names).map t.layout.keys.temporary))
    (hstarved : ks.Fits t.layout.keys.ids t.layout.memberKind →
      ∀ source, .key source ∈ p.batch.deletes →
        source ∈ starved (p.preamble.zip (ks.executeAll p.preamble).1)) :
    let ks₁ := (ks.executeAll p.preamble).2
    (∃ e, ks₁.run (CommitScript.run p.batch) = (.error e, ks₁)) ∨
      ∃ reply, ks₁.run (CommitScript.run p.batch) =
          (.ok reply, behind ks₁ (visits p.batch ks₁ (p.batch.writes.map .write))) ∧
        reply.deleted = [] := by
  intro ks₁
  obtain ⟨plan, writes, -, hbatch, -, -⟩ := prepare_ok h
  obtain ⟨e, hids⟩ | ⟨ids, hids⟩ := run_idsOf ks₁ p.batch.deletes
  · exact .inl ⟨e, run_eq_of_error hids⟩
  refine .inr (run_of_no_deletes hids fun hfits => ?_)
  -- the collection of all ids had its kind before, so given ids are restricted without fail
  have hfits' : ks.Fits t.layout.keys.ids t.layout.memberKind := by
    have hids : t.layout.keys.InSection t.layout.keys.ids .ids := .ids rfl
    rw [hbatch] at hfits
    exact Fits.of_data?_eq
      ((beside_preamble h (fun q hq => hqueries q hq ▸ rfl) ks).data?
        (hids.not_of_ne (by simp))).symm hfits
  have hblocks := preamble_blocks_of_queries hqueries h
  have habsent : ∀ source ∈ p.batch.deletes,
      ∃ key, source = .key key ∧ ks₁.data? key = none := by
    intro source hsource
    have hkey : source ∈ (plan.bind (·.source)).toList.map DeleteSource.key := by
      rwa [hbatch] at hsource
    obtain ⟨key, -, rfl⟩ := List.mem_map.mp hkey
    exact ⟨key, rfl, hblocks.data?_of_mem_starve hfresh hfits' (by simp) key
      (hstarved hfits' key hsource)⟩
  have hnone := hids.symm.trans (run_idsOf_of_absent habsent)
  exact Except.ok.inj (Prod.mk.inj hnone).1

/-- If the key of the ids to delete is starved, the script that is to delete them deletes no record:
none is in its reply, and those that were stored before the pipeline are stored behind it. Where the
collection of all ids has another kind, every delete is refused anyway. -/
theorem starved_delete (h : t.prepare session validate lifetime n = .ok p)
    (hqueries : ∀ q ∈ t.deleteQueries, q.origin.layout = t.layout)
    (hfresh : ks.Fresh ((List.range' n p.names).map t.layout.keys.temporary))
    (hstarved : ks.Fits t.layout.keys.ids t.layout.memberKind →
      ∀ source, .key source ∈ p.batch.deletes →
        source ∈ starved (p.preamble.zip (ks.executeAll p.preamble).1)) :
    (∀ reply, (Session.answerOf p (ks.executeAll (Session.commandsFor p)).1).reply = .ok reply →
      reply.deleted = []) ∧
    ∀ id, (ks.data? (t.layout.keys.object id)).isSome →
      ((ks.executeAll (Session.commandsFor p)).2.data? (t.layout.keys.object id)).isSome := by
  obtain ⟨plan, writes, -, hbatch, -, -⟩ := prepare_ok h
  cases hhas : p.hasBatch with
  | false =>
    -- without a batch nothing is sent
    have hcommands : Session.commandsFor p = [] := by simp [Session.commandsFor, hhas]
    rw [hcommands]
    refine ⟨fun reply hreply => ?_, fun id hid => hid⟩
    simp only [Session.answerOf, hhas, Bool.not_false, if_true] at hreply
    cases hreply
    rfl
  | true =>
    rw [Session.reply_answerOf hhas, Session.executeAll_commandsFor hhas]
    have hkept : ∀ id, (ks.executeAll p.preamble).2.data? (t.layout.keys.object id) =
        ks.data? (t.layout.keys.object id) := by
      intro id
      have hobject : t.layout.keys.InSection (t.layout.keys.object id) .object := .object id rfl
      exact (beside_preamble h (fun q hq => hqueries q hq ▸ rfl) ks).data?
        (hobject.not_of_ne (by simp))
    have hcommand : Step.ofCommand (.eval (.commit p.batch)) =
        Reply.commit <$> CommitScript.run p.batch := rfl
    obtain ⟨e, hrun⟩ | ⟨answer, hrun, hdeleted⟩ := run_of_starved h hqueries hfresh hstarved
    -- a script that fails has done nothing
    · rw [execute_eq, hcommand, run_map_error hrun]
      refine ⟨fun reply hreply => (nomatch hreply), fun id hid => ?_⟩
      rwa [hkept id]
    · rw [execute_eq, hcommand, run_map_ok hrun]
      refine ⟨fun reply hreply => ?_, fun id hid => ?_⟩
      · cases hreply
        exact hdeleted
      · rw [← hkept id] at hid
        have hkeys : p.batch.keys = t.layout.keys := by rw [hbatch]; rfl
        rw [← hkeys] at hid ⊢
        exact isSome_data?_writes hid p.batch.writes

/-- A tracker of heroes that is to delete some. -/
def doomedHeroes (ids : List String) (queries : List Tree) : Tracker Record :=
  { Tracker.empty Sample.hero.model heroes with deleteIds := ids, deleteQueries := queries }

/-- Two heroes of different teams are stored, and where the ids of a third team belong there is a
text. -/
def spoiltHeroes : Keyspace :=
  let ada : InstanceWrite :=
    .ofRecord heroes "hero:1" ⟨[("id", .int 1), ("name", .text "Ada"), ("team", .text "red")]⟩
      (some 0)
  let brin : InstanceWrite :=
    .ofRecord heroes "hero:2" ⟨[("id", .int 2), ("name", .text "Brin"), ("team", .text "blue")]⟩
      (some 0)
  (executeAll ⟨∅, 0⟩ [Submission.command heroes ⟨[ada, brin], []⟩,
    .set (heroes.keys.index "team" "green") "x"]).2

/-- The union of two teams fails, and with it the intersection that the heroes to delete are to be
found in. -/
theorem starved_delete_heroes :
    ∃ (t : Tracker Record) (p : Prepared) (ks : Keyspace),
      t.prepare ⟨1⟩ true 30 0 = .ok p ∧ (∀ q ∈ t.deleteQueries, q.origin.layout = t.layout) ∧
      ks.Fresh ((List.range' 0 p.names).map t.layout.keys.temporary) ∧
      (∃ reply ∈ (ks.executeAll p.preamble).1, reply.isError = true) ∧
      (∀ source, .key source ∈ p.batch.deletes →
        source ∈ starved (p.preamble.zip (ks.executeAll p.preamble).1)) ∧
      (ks.data? (t.layout.keys.object "1")).isSome ∧
      (∀ reply, (Session.answerOf p (ks.executeAll (Session.commandsFor p)).1).reply = .ok reply →
        reply.deleted = []) ∧
      ∀ id, (ks.data? (t.layout.keys.object id)).isSome →
        ((ks.executeAll (Session.commandsFor p)).2.data? (t.layout.keys.object id)).isSome := by
  let o : Origin := ⟨heroes, none⟩
  let t := doomedHeroes [] [.intersect o
    [.select o "team" [.text "gold", .text "green"], .select o "id" [.int 1]]]
  obtain ⟨p, hp, hnames, hdeletes, hfailed, hstarved⟩ : ∃ p, t.prepare ⟨1⟩ true 30 0 = .ok p ∧
      p.names = 3 ∧ p.batch.deletes = [.key (heroes.keys.temporary 2)] ∧
      (∃ reply ∈ (spoiltHeroes.executeAll p.preamble).1, reply.isError = true) ∧
      heroes.keys.temporary 2 ∈
        starved (p.preamble.zip (spoiltHeroes.executeAll p.preamble).1) := by
    refine ⟨_, rfl, ?_⟩
    decide +kernel
  have hqueries : ∀ q ∈ t.deleteQueries, q.origin.layout = t.layout :=
    List.forall_mem_singleton.mpr rfl
  have hfresh : spoiltHeroes.Fresh ((List.range' 0 p.names).map t.layout.keys.temporary) := by
    rw [hnames]
    exact ⟨by decide, by decide +kernel⟩
  have hsources : ∀ source, .key source ∈ p.batch.deletes →
      source ∈ starved (p.preamble.zip (spoiltHeroes.executeAll p.preamble).1) := by
    intro source hsource
    rw [hdeletes, List.mem_singleton] at hsource
    obtain rfl := DeleteSource.key.inj hsource
    exact hstarved
  exact ⟨t, p, spoiltHeroes, hp, hqueries, hfresh, hfailed, hsources, by decide +kernel,
    starved_delete hp hqueries hfresh fun _ => hsources⟩

/-- A hero is to be deleted, and with it those of two teams. The union of the teams fails, and the
session is told that nothing could be deleted; yet the record of the hero is gone, for the union of
both reads the missing key as an empty one. -/
theorem delete_despite_failure :
    ∃ (t : Tracker Record) (p : Prepared) (ks : Keyspace),
      t.prepare ⟨1⟩ true 30 0 = .ok p ∧ (∀ q ∈ t.deleteQueries, q.origin.layout = t.layout) ∧
      ks.Fresh ((List.range' 0 p.names).map t.layout.keys.temporary) ∧
      (∃ reply ∈ (ks.executeAll p.preamble).1, reply.isError = true) ∧
      (Session.answerOf p (ks.executeAll (Session.commandsFor p)).1).deleteFailure.isSome ∧
      ((Session.answerOf p (ks.executeAll (Session.commandsFor p)).1).reply.map
        (·.deleted)).toOption = some ["1"] ∧
      (ks.data? (t.layout.keys.object "1")).isSome ∧
      ((ks.executeAll (Session.commandsFor p)).2.data? (t.layout.keys.object "1")).isNone := by
  let t := doomedHeroes ["1"] [.select ⟨heroes, none⟩ "team" [.text "gold", .text "green"]]
  refine ⟨t, _, spoiltHeroes, rfl, List.forall_mem_singleton.mpr rfl, ⟨?_, ?_⟩, ?_⟩
  · decide +kernel
  · decide +kernel
  · decide +kernel

end Tracker

end KeyedRecords
