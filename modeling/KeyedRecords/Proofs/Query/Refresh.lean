import KeyedRecords.Proofs.Commit.Consistency
import KeyedRecords.Proofs.Commit.Footprint
import KeyedRecords.Proofs.Query.Reading
import KeyedRecords.Proofs.Query.Renaming
import KeyedRecords.Proofs.Query.Rerunning
import KeyedRecords.Proofs.Query.StorageOrder

/-!
# Refreshing results

A plan can be run again after any commits (`Layout.Later`), whether or not its temporary keys are
still there. It then does what a plan with fresh names does, and the same ids are read behind it
(`Tree.refresh_iff_fresh`), with one exception: on an ordered model, ids that were given are left in
a sorted set, and to this no ids can be added again (`Tree.refresh_fails_stars`).
-/

namespace KeyedRecords

open Keyspace

namespace Layout

/-- What may come of a key space: models commit, and time passes. -/
inductive Later (l : Layout) (ks : Keyspace) : Keyspace → Prop
  | refl : Later l ks ks
  /-- The model commits. -/
  | commit {before : Keyspace} (h : Later l ks before) (writes : List InstanceWrite)
      (deletes : List DeleteSource) :
      Later l ks (before.execute (.eval (.commit (CommitScript.batchOf l writes deletes)))).2
  /-- A model with other keys commits. -/
  | other {before : Keyspace} (h : Later l ks before) {b : Batch}
      (hb : ∀ key, b.keys.Owns key → ¬l.keys.Owns key) :
      Later l ks (before.execute (.eval (.commit b))).2
  /-- Keys that have expired are dropped. -/
  | sweep {before : Keyspace} (h : Later l ks before) (now : Nat) : Later l ks (before.sweep now)

variable {l : Layout} {ks ks' : Keyspace} {key : String}

/-- A commit changes no results of queries, neither those of its model nor those of another. -/
theorem beside_commit (b : Batch) (ks : Keyspace) :
    Beside (fun key => ∃ s, b.keys.InSection key s ∧ s ≠ .temporary) ks
      (ks.execute (.eval (.commit b))).2 := by
  rw [execute_commit_snd]
  exact (CommitScript.edits_lasting b).touches ks

/-- Results of queries are there later as they were, or not at all. -/
theorem Later.data?_temporary (h : l.Later ks ks') (hkey : l.keys.InSection key .temporary) :
    ks'.data? key = none ∨ ks'.data? key = ks.data? key := by
  induction h with
  | refl => exact .inr rfl
  | @commit before _ writes deletes ih =>
    have hsame := (beside_commit (CommitScript.batchOf l writes deletes) before).data?
      fun ⟨s, hs, hne⟩ => hne (hs.eq hkey)
    rwa [hsame]
  | @other before _ b hb ih =>
    have hsame := (beside_commit b before).data? fun ⟨s, hs, _⟩ => hb key ⟨s, hs⟩ ⟨_, hkey⟩
    rwa [hsame]
  | @sweep before _ now ih =>
    rcases data?_sweep_or before now key with hnone | hsame
    · exact .inl hnone
    · rwa [hsame]

/-- The keys of the model hold values of their kinds later too. -/
theorem Later.fits (h : l.Later ks ks') {kind : DataKind}
    (he : (Batch.ofLayout l).Expects key kind) (hfits : ks.Fits key kind) : ks'.Fits key kind := by
  induction h with
  | refl => exact hfits
  | @commit before _ writes deletes ih =>
    rw [execute_commit_snd]
    exact CommitScript.keepsKinds_run (CommitScript.batchOf l writes deletes) before key kind he ih
  | @other before _ b hb ih =>
    obtain ⟨s, hs, -⟩ := he
    exact ih.of_data?_eq ((beside_commit b before).data? fun ⟨t, ht, _⟩ => hb key ⟨t, ht⟩ ⟨s, hs⟩)
  | @sweep before _ now ih =>
    rcases data?_sweep_or before now key with hnone | hsame
    · exact .of_none hnone
    · exact ih.of_data?_eq hsame

/-- So queries can read them later too. -/
theorem Later.readable (h : l.Later ks ks') (hks : l.Readable ks) : l.Readable ks' :=
  ⟨h.fits (CommitScript.expects_ids _) hks.ids,
    fun f hf v => h.fits (CommitScript.expects_index _ _ _) (hks.index f hf v),
    fun f hf hunique => h.fits (CommitScript.expects_unique _ _) (hks.unique f hf hunique)⟩

/-- Where only results of queries are different, queries can read the keys of the model as well. -/
theorem Mirrors.readable {base : Keyspace} (h : l.Mirrors base ks) (hbase : l.Readable base) :
    l.Readable ks :=
  ⟨hbase.ids.of_data?_eq (h _ (ModelKeys.InSection.not_of_ne (.ids rfl) (by simp))),
    fun f hf v => (hbase.index f hf v).of_data?_eq
      (h _ (ModelKeys.InSection.not_of_ne (.index f.name v rfl) (by simp))),
    fun f hf hunique => (hbase.unique f hf hunique).of_data?_eq
      (h _ (ModelKeys.InSection.not_of_ne (.unique f.name rfl) (by simp)))⟩

end Layout

section Relabel

/-- Keys keep their names, except that those of one list have the names of another. -/
def Renaming.relabel {keys keys' : List String} (h : keys.Nodup) (h' : keys'.Nodup) : Renaming where
  Pairs key key' := (key' = key ∧ key ∉ keys ∧ key ∉ keys') ∨ (key, key') ∈ keys.zip keys'
  eq_iff := by
    rintro key key' other other' (⟨rfl, hkey, hkey'⟩ | hkey) (⟨rfl, hother, hother'⟩ | hother)
    · rfl
    · exact iff_of_false (fun heq => hkey (heq ▸ (List.of_mem_zip hother).1))
        fun heq => hkey' (heq ▸ (List.of_mem_zip hother).2)
    · exact iff_of_false (fun heq => hother (heq ▸ (List.of_mem_zip hkey).1))
        fun heq => hother' (heq ▸ (List.of_mem_zip hkey).2)
    · -- both lists have both keys at the same places
      obtain ⟨i, hi, hkey⟩ := List.mem_iff_getElem.mp hkey
      obtain ⟨j, hj, hother⟩ := List.mem_iff_getElem.mp hother
      rw [List.getElem_zip, Prod.mk.injEq] at hkey hother
      obtain ⟨rfl, rfl⟩ := hkey
      obtain ⟨rfl, rfl⟩ := hother
      rw [h.getElem_inj_iff, h'.getElem_inj_iff]

variable {keys keys' : List String} {ks : Keyspace} (hkeys : keys.Nodup)

/-- A key space without some keys corresponds to itself with the names of free keys for these. -/
theorem corresponds_relabel (h : ks.Fresh keys') :
    Corresponds (.relabel hkeys h.distinct) (ks.delete keys) ks := by
  refine ⟨?_, rfl⟩
  rintro key key' (⟨rfl, hnot, -⟩ | hmem)
  · rw [Keyspace.delete, Table.getElem?_eraseAll, if_neg hnot]
  · rw [Keyspace.delete, Table.getElem?_eraseAll, if_pos (List.of_mem_zip hmem).1]
    exact Option.map_eq_none_iff.mp (h.absent key' (List.of_mem_zip hmem).2)

variable (hkeys' : keys'.Nodup) {t : Lowering.Target} {n n' : Nat}

/-- Keys that are no results of queries keep their names if only such results get others. -/
theorem pairs_relabel (hsection : ∀ key ∈ keys, t.layout.keys.InSection key .temporary)
    (hsection' : ∀ key ∈ keys', t.layout.keys.InSection key .temporary) {key : String}
    (hkey : ¬t.layout.keys.InSection key .temporary) :
    (Renaming.relabel hkeys hkeys').Pairs key key :=
  .inl ⟨rfl, fun hmem => hkey (hsection key hmem), fun hmem => hkey (hsection' key hmem)⟩

/-- Temporary keys numbered in turn get the names of others. -/
theorem shifts_relabel (hn : keys = (List.range' n keys.length).map t.temporary)
    (hn' : keys' = (List.range' n' keys'.length).map t.temporary)
    (hle : keys.length ≤ keys'.length) :
    t.Shifts (.relabel hkeys hkeys') n n' keys.length := by
  intro i hi
  have hget : keys[i] = t.temporary (n + i) := by simp [List.getElem_of_eq hn hi]
  have hget' : keys'[i] = t.temporary (n' + i) := by
    simp [List.getElem_of_eq hn' (Nat.lt_of_lt_of_le hi hle)]
  refine .inr (List.mem_iff_getElem.mpr ⟨i, by simp only [List.length_zip]; omega, ?_⟩)
  rw [List.getElem_zip, hget, hget']

end Relabel

namespace ResultSet

variable {ρ : Renaming} {r r' : ResultSet} {client : Client} {after after' : Keyspace}

/-- A read that is answered alike behind the commands of two plans reads the same ids. -/
theorem readIds_congr (hclient : client.Works) (hr : r.materialized = false)
    (hr' : r'.materialized = false)
    (h : client.server.sweep.space.Succeeds r.plan.commands after)
    (h' : client.server.sweep.space.Succeeds r'.plan.commands after') {read read' : Command}
    (hread : read.Renamed ρ read') (hafter : Corresponds ρ after after') :
    (runFrom (r', client) (readIds read')).1 = (runFrom (r, client) (readIds read)).1 := by
  obtain ⟨s, hs⟩ := answers_of_succeeds hclient hr h read
  obtain ⟨s', hs'⟩ := answers_of_succeeds hclient hr' h' read'
  rw [(execute_renamed hread hafter).1] at hs'
  unfold readIds
  rw [runFrom_bind_ok hs, runFrom_bind_ok hs']
  cases (after.execute read).1.asList <;> rfl

/-- Two plans that are read in the same way are read as the same ids. -/
theorem ids_congr (hclient : client.Works) (hr : r.materialized = false)
    (hr' : r'.materialized = false)
    (h : client.server.sweep.space.Succeeds r.plan.commands after)
    (h' : client.server.sweep.space.Succeeds r'.plan.commands after')
    (hreader : r.plan.reader.Renamed ρ r'.plan.reader) (hafter : Corresponds ρ after after')
    (start : Int) (stop : Option Int) :
    (runFrom (r', client) (ids start stop)).1 = (runFrom (r, client) (ids start stop)).1 := by
  have hids : ∀ {read read' : Command}, read.Renamed ρ read' →
      (runFrom (r', client) (readIds read')).1 = (runFrom (r, client) (readIds read)).1 :=
    fun hread => readIds_congr hclient hr hr' h h' hread hafter
  unfold ids
  rw [runFrom_bind_ok (runFrom_current r client), runFrom_bind_ok (runFrom_current r' client)]
  revert hreader
  generalize r.plan.reader = reader, r'.plan.reader = reader'
  intro hreader
  cases hreader with
  | empty => rfl
  | set hkey =>
    have hread := hids (show (Command.smembers _).Renamed ρ (.smembers _) from
      (simulates_read fun _ _ h => h.set? hkey).bind fun _ => simulates_pure _)
    dsimp only
    rw [runFrom_bind, runFrom_bind]
    revert hread
    rcases runFrom (r, client) (readIds _) with ⟨result, s⟩
    rcases runFrom (r', client) (readIds _) with ⟨result', s'⟩
    rintro rfl
    cases result' <;> rfl
  | sorted hkey reversed =>
    dsimp only
    cases Slice.toInclusive? start stop with
    | none => rfl
    | some range =>
      exact hids ((simulates_read fun _ _ h => h.sortedSet? hkey).bind fun _ => simulates_pure _)
  | list hkey =>
    dsimp only
    cases Slice.toInclusive? start stop with
    | none => rfl
    | some range =>
      exact hids ((simulates_read fun _ _ h => list?_congr (h.data? hkey)).bind
        fun _ => simulates_pure _)

end ResultSet

namespace Tree

variable {tree : Tree} {sort : Option SortOrder} {lifetime n n' : Nat} {plan plan' : Plan}
  {ks ks₁ ks₂ : Keyspace}

/-- What makes a sort look up records does not lead to results of queries. -/
def PatternsApart (l : Layout) : Prop :=
  ∀ field member, ¬l.keys.InSection (patternKey (l.keys.sortPattern field) member) .temporary

/-- A plan does the same with other numbers, if both number different keys. -/
theorem plan_relabeled (hpattern : PatternsApart tree.origin.layout)
    (h : tree.lower sort lifetime n = .ok plan) (h' : tree.lower sort lifetime n' = .ok plan')
    (hkeys : plan.temporaries.Nodup) (hkeys' : plan'.temporaries.Nodup) :
    plan.Renamed (.relabel hkeys hkeys') plan' := by
  -- the names are paired one by one, so the plan with fewer of them comes first
  have hle : ∀ {n n' plan plan'}, tree.lower sort lifetime n = .ok plan →
      tree.lower sort lifetime n' = .ok plan' → ∀ (hkeys : plan.temporaries.Nodup)
      (hkeys' : plan'.temporaries.Nodup), plan.temporaries.length ≤ plan'.temporaries.length →
      plan.Renamed (.relabel hkeys hkeys') plan' := by
    intro n n' plan plan' h h' hkeys hkeys' hle
    obtain ⟨found, hfound, hplanned⟩ := lower_ok h
    obtain ⟨found', hfound', hplanned'⟩ := lower_ok h'
    have hblocks := Lowering.lowerNode_blocks hfound
    have hblocks' := Lowering.lowerNode_blocks hfound'
    have hpairs : ∀ {key}, ¬tree.origin.layout.keys.InSection key .temporary →
        (Renaming.relabel hkeys hkeys').Pairs key key :=
      pairs_relabel (t := ⟨tree.origin.layout, lifetime⟩) hkeys hkeys'
        (hplanned.temporaries hblocks) (hplanned'.temporaries hblocks')
    exact plan_renamed (fun hkey hs => hpairs (hkey.not_of_ne hs))
      (fun field member => hpairs (hpattern field member)) h h'
      (shifts_relabel hkeys hkeys' (hplanned.temporaries_eq hblocks)
        (hplanned'.temporaries_eq hblocks') hle)
  rcases Nat.le_total plan.temporaries.length plan'.temporaries.length with hlength | hlength
  · exact hle h h' hkeys hkeys' hlength
  · have hcount := (hle h' h hkeys' hkeys hlength).count
    exact hle h h' hkeys hkeys' (Nat.le_of_eq hcount)

/-- A plan that meets leftovers of its own does what a plan with fresh names does: all of its
commands succeed if all of those do, and then what it leaves corresponds to what those leave. -/
theorem rerun_as_fresh (hpattern : PatternsApart tree.origin.layout)
    (h : tree.lower sort lifetime n = .ok plan) (h' : tree.lower sort lifetime n' = .ok plan')
    (hkeys : plan.temporaries.Nodup) (hfresh' : ks.Fresh plan'.temporaries)
    (hleft : ks.Leftover plan.commands) :
    (ks.Passes plan.commands ↔ ks.Passes plan'.commands) ∧
      (ks.Passes plan.commands → Corresponds (.relabel hkeys hfresh'.distinct)
        (ks.executeAll plan.commands).2 (ks.executeAll plan'.commands).2) := by
  obtain ⟨found, hfound, hplanned⟩ := lower_ok h
  obtain ⟨hchain, hsource⟩ := Lowering.lowerNode_chain hfound
  -- once without leftovers, and then under other names
  have halike := hplanned.alike hchain hsource hpattern hkeys
    (Beside.delete ks fun _ hkey => hkey) hleft fun key hkey => by rw [data?_delete, if_pos hkey]
  obtain ⟨hreplies, hafter⟩ := executeAll_renamed
    (plan_relabeled hpattern h h' hkeys hfresh'.distinct).commands
    (corresponds_relabel hkeys hfresh')
  constructor
  · rw [halike.passes]
    unfold Passes
    rw [hreplies]
  · intro hpasses
    have hsame := halike.beside hpasses
    exact ⟨fun hkey => (hafter.entries hkey).trans (hsame.entries _ id),
      hafter.now.trans hsame.now⟩

theorem patternsApart {config : Config} {s : Schema} {l : Layout}
    (hconfig : config.validate = .ok ()) (hl : s.layout config.space = .ok l) :
    PatternsApart l := by
  intro field member
  have hlaid := Schema.layout_ok hl
  rw [hlaid.keys]
  exact not_inSection_patternKey (Config.star_not_mem hconfig) hlaid.name field member

/-- What the first run has left of given ids is there still behind commits, or has expired. -/
theorem given_later (hplan : tree.lower sort lifetime n = .ok plan)
    (hks : tree.origin.layout.Readable ks) (hfresh : ks.Fresh plan.temporaries)
    (hfirst : ks.Succeeds plan.commands ks₁) (hlater : tree.origin.layout.Later ks₁ ks₂)
    {key : String} {ids : List String} (hmem : .sadd key ids ∈ plan.commands) :
    ks₂.Fits key tree.origin.layout.memberKind ∧ ∀ m, ks₂.Has key m → m ∈ ids := by
  obtain ⟨found, hfound, hplanned⟩ := lower_ok hplan
  have hblocks := Lowering.lowerNode_blocks hfound
  obtain ⟨hkind, hsub⟩ := hplanned.given_behind hblocks hfresh hks.ids hmem
  rw [hfirst.leads] at hkind hsub
  have hsection := hplanned.temporaries hblocks key (hplanned.mem_of_sadd hblocks hmem)
  rcases hlater.data?_temporary hsection with hnone | hsame
  · exact ⟨.of_none hnone, fun m hm => absurd hm (not_has_of_none hnone m)⟩
  · exact ⟨hkind.of_data?_eq hsame, fun m hm => hsub m ((has_of_data?_eq hsame m).mp hm)⟩

/-- Sets of some of the given ids can stay: what an ordered model left has to be gone, since it is
of another kind. -/
theorem leftover_iff {l : Layout} {cs : List Command}
    (h : ∀ key ids, .sadd key ids ∈ cs → ks.Fits key l.memberKind ∧ ∀ m, ks.Has key m → m ∈ ids) :
    ks.Leftover cs ↔
      (l.isOrdered = true → ∀ key ids, .sadd key ids ∈ cs → ks.data? key = none) := by
  constructor
  · intro hleft hordered key ids hmem
    have hset := (hleft key ids hmem).1
    have hsorted := (h key ids hmem).1
    rw [Layout.memberKind, if_pos hordered] at hsorted
    cases hd : ks.data? key with
    | none => rfl
    | some d =>
      have hkinds := (hset d hd).symm.trans (hsorted d hd)
      cases hkinds
  · intro hnone key ids hmem
    obtain ⟨hkind, hsub⟩ := h key ids hmem
    cases hordered : l.isOrdered with
    | false =>
      rw [Layout.memberKind, hordered] at hkind
      exact ⟨hkind, hsub⟩
    | true => exact ⟨.of_none (hnone hordered key ids hmem), hsub⟩

/-- Running a plan again, after any commits and however many of its temporary keys have expired,
succeeds just if the same query does with fresh names, and none of the ids that it gives on an
ordered model are still there from before. Without a sort, fresh names always do. If it succeeds,
the ids that are read behind it are those of the fresh query. -/
theorem refresh_iff_fresh {config : Config} {s : Schema} {l : Layout}
    (hconfig : config.validate = .ok ()) (hl : s.layout config.space = .ok l)
    (horigin : tree.origin.layout = l) (hplan : tree.lower sort lifetime n = .ok plan)
    (hks : l.Readable ks) (hfresh : ks.Fresh plan.temporaries)
    (hfirst : ks.Succeeds plan.commands ks₁) (hlater : l.Later ks₁ ks₂)
    (hplan' : tree.lower sort lifetime n' = .ok plan') (hfresh' : ks₂.Fresh plan'.temporaries) :
    (ks₂.Passes plan.commands ↔ ks₂.Passes plan'.commands ∧
      (l.isOrdered = true → ∀ key ids, .sadd key ids ∈ plan.commands → ks₂.data? key = none)) ∧
    (sort = none → ks₂.Passes plan'.commands) ∧
    (ks₂.Passes plan.commands → ∀ client : Client, client.Works →
      client.server.sweep.space = ks₂ → ∀ start stop,
        (runFrom (⟨l, plan, false⟩, client) (ResultSet.ids start stop)).1 =
          (runFrom (⟨l, plan', false⟩, client) (ResultSet.ids start stop)).1) := by
  subst horigin
  obtain ⟨found, hfound, hplanned⟩ := lower_ok hplan
  have hblocks := Lowering.lowerNode_blocks hfound
  have hgiven : ∀ key ids, .sadd key ids ∈ plan.commands →
      ks₂.Fits key tree.origin.layout.memberKind ∧ ∀ m, ks₂.Has key m → m ∈ ids :=
    fun _ _ => given_later hplan hks hfresh hfirst hlater
  have hleftover : ks₂.Passes plan.commands → ks₂.Leftover plan.commands :=
    fun hpasses key ids hmem => ⟨hplanned.fits_of_passes hblocks hfresh.distinct hpasses hmem,
      (hgiven key ids hmem).2⟩
  have hpattern := patternsApart hconfig hl
  have hrerun : ks₂.Leftover plan.commands → _ :=
    rerun_as_fresh hpattern hplan hplan' hfresh.distinct hfresh'
  refine ⟨⟨fun hpasses => ⟨(hrerun (hleftover hpasses)).1.mp hpasses,
      (leftover_iff hgiven).mp (hleftover hpasses)⟩,
    fun hboth => (hrerun ((leftover_iff hgiven).mpr hboth.2)).1.mpr hboth.1⟩, ?_, ?_⟩
  · rintro rfl
    have hmirrors : tree.origin.layout.Mirrors ks ks₁ := by
      intro key hkey
      rw [← hfirst.leads]
      exact (hplanned.writes hblocks ks).1.data? fun hmem =>
        hkey (hplanned.temporaries hblocks key hmem)
    obtain ⟨_, hrun, -⟩ := runs_of_lower hplan' (hlater.readable (hmirrors.readable hks)) hfresh'
    exact hrun.replies
  · rintro hpasses client hclient rfl start stop
    obtain ⟨hiff, hafter⟩ := hrerun (hleftover hpasses)
    have hlive : (⟨tree.origin.layout, plan, false⟩ : ResultSet).materialized = false := rfl
    have hlive' : (⟨tree.origin.layout, plan', false⟩ : ResultSet).materialized = false := rfl
    exact (ResultSet.ids_congr hclient hlive hlive' ⟨hpasses, rfl⟩ ⟨hiff.mp hpasses, rfl⟩
      (plan_relabeled hpattern hplan hplan' hfresh.distinct hfresh'.distinct).reader
      (hafter hpasses) start stop).symm

section Stars

/-- The query for two documents by their slugs. -/
def slugTree : Tree := .select ⟨Request.starLayout, none⟩ "slug" [.text "a", .text "b"]

theorem readable_unrankedSpace : Request.starLayout.Readable unrankedSpace :=
  (CommitScript.agrees_of_reachable Request.layout_starDoc (by decide) (by decide)
    reachable_unrankedSpace).toReadable

/-- One of two documents that were found is deleted, and when the result has expired the plan is run
again. -/
theorem refresh_iff_fresh_stars :
    ∃ (plan plan' : Plan) (client : Client), slugTree.lower none 60 0 = .ok plan ∧
      slugTree.lower none 60 7 = .ok plan' ∧ client.Works ∧
      client.server.sweep.space.Passes plan.commands ∧
      ∀ start stop, (runFrom (⟨Request.starLayout, plan, false⟩, client)
        (ResultSet.ids start stop)).1 = (runFrom (⟨Request.starLayout, plan', false⟩, client)
          (ResultSet.ids start stop)).1 := by
  obtain ⟨plan, hplan, htemporaries⟩ : ∃ plan, slugTree.lower none 60 0 = .ok plan ∧
      plan.temporaries = [Request.starLayout.keys.temporary 0] := ⟨_, rfl, rfl⟩
  obtain ⟨plan', hplan', htemporaries'⟩ : ∃ plan, slugTree.lower none 60 7 = .ok plan ∧
      plan.temporaries = [Request.starLayout.keys.temporary 7] := ⟨_, rfl, rfl⟩
  have hfresh : unrankedSpace.Fresh plan.temporaries := by
    rw [htemporaries]
    exact ⟨by decide, by decide +kernel⟩
  obtain ⟨_, ⟨hreplies, rfl⟩, -⟩ := runs_of_lower hplan readable_unrankedSpace hfresh
  let left := ((unrankedSpace.executeAll plan.commands).2.execute
    (.eval (.commit (CommitScript.batchOf Request.starLayout [] [.ids ["a"]])))).2
  let client := Client.ofServer ⟨left, .manual 60000, ⟨0, 0, 0⟩⟩
  have hlater : Request.starLayout.Later (unrankedSpace.executeAll plan.commands).2
      client.server.sweep.space := .sweep (.commit .refl [] [.ids ["a"]]) 60000
  have hempty : ∀ n ∈ [0, 7],
      client.server.sweep.space.data? (Request.starLayout.keys.temporary n) = none := by
    cases hplan
    decide +kernel
  have hfresh' : client.server.sweep.space.Fresh plan'.temporaries := by
    rw [htemporaries']
    refine ⟨by decide, fun key hkey => ?_⟩
    obtain rfl := List.mem_singleton.mp hkey
    exact hempty 7 (by decide)
  have hconfig : Config.standard.validate = .ok () := rfl
  obtain ⟨hiff, hpasses, hids⟩ := refresh_iff_fresh hconfig Request.layout_starDoc rfl hplan
    readable_unrankedSpace hfresh ⟨hreplies, rfl⟩ hlater hplan' hfresh'
  have hrerun := hiff.mpr ⟨hpasses rfl, fun _ key ids hmem => by
    obtain ⟨found, hfound, hplanned⟩ := lower_ok hplan
    have hkey := hplanned.mem_of_sadd (Lowering.lowerNode_blocks hfound) hmem
    rw [htemporaries] at hkey
    obtain rfl := List.mem_singleton.mp hkey
    exact hempty 0 (by decide)⟩
  exact ⟨plan, plan', client, hplan, hplan', ⟨rfl, rfl⟩, hrerun, hids hrerun client ⟨rfl, rfl⟩ rfl⟩

/-- While the result is still there, a plan with given ids of an ordered model cannot be run again,
though nothing has happened since, and a fresh query for the same ids succeeds. -/
theorem refresh_fails_stars :
    ∃ (plan plan' : Plan) (ks : Keyspace), slugTree.lower none 60 0 = .ok plan ∧
      slugTree.lower none 60 7 = .ok plan' ∧ Request.starLayout.Readable unrankedSpace ∧
      unrankedSpace.Fresh plan.temporaries ∧ unrankedSpace.Succeeds plan.commands ks ∧
      Request.starLayout.Later ks ks ∧ ¬ks.Passes plan.commands ∧ ks.Passes plan'.commands := by
  obtain ⟨plan, hplan, htemporaries⟩ : ∃ plan, slugTree.lower none 60 0 = .ok plan ∧
      plan.temporaries = [Request.starLayout.keys.temporary 0] := ⟨_, rfl, rfl⟩
  obtain ⟨plan', hplan'⟩ : ∃ plan, slugTree.lower none 60 7 = .ok plan := ⟨_, rfl⟩
  have hfresh : unrankedSpace.Fresh plan.temporaries := by
    rw [htemporaries]
    exact ⟨by decide, by decide +kernel⟩
  obtain ⟨ks, hfirst, -⟩ := runs_of_lower hplan readable_unrankedSpace hfresh
  refine ⟨plan, plan', ks, hplan, hplan', readable_unrankedSpace, hfresh, hfirst, .refl, ?_, ?_⟩
  all_goals
    rw [← hfirst.leads]
    cases hplan
    cases hplan'
    unfold Passes
    decide +kernel

end Stars

end Tree

end KeyedRecords
