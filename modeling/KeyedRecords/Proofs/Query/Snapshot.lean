import KeyedRecords.Proofs.Model.Catalog
import KeyedRecords.Proofs.Query.Expiry
import KeyedRecords.Proofs.Query.Readers
import KeyedRecords.Proofs.Query.Refresh
import KeyedRecords.Proofs.Store.Collections

/-!
# Results are snapshots

Once the commands of a plan have been carried out, the ids of its query and their number stay what
they were until its temporary keys expire, whatever others do meanwhile
(`Tree.snapshot_stable`): no commit of any model and no other query touches these keys.
-/

namespace KeyedRecords

open Keyspace

theorem Lowering.Blocks.commands_ne_nil {t : Lowering.Target} {n : Nat} {cs : List Command}
    {keys : List String} {key : String} (h : Lowering.Blocks t n cs keys) (hkey : key ∈ keys) :
    cs ≠ [] := by
  cases h with
  | nil => exact absurd hkey List.not_mem_nil
  | cons hblock _ => cases hblock <;> simp

namespace Catalog

/-- What others ask of a server in one pipeline, while some temporary keys are in use: they commit
to models of the catalog, they carry out queries with other temporary keys, and they read. -/
inductive Requests (c : Catalog) (keys : List String) : List Command → Prop
  | nil : Requests c keys []
  | commit {l : Layout} {b : Batch} {more : List Command} (hl : l ∈ c.layouts)
      (hb : b.keys = l.keys) (h : Requests c keys more) :
      Requests c keys (.eval (.commit b) :: more)
  | query {tree : Tree} {sort : Option SortOrder} {lifetime n : Nat} {plan : Plan}
      {more : List Command} (hplan : tree.lower sort lifetime n = .ok plan)
      (hother : ∀ key ∈ plan.temporaries, key ∉ keys) (h : Requests c keys more) :
      Requests c keys (plan.commands ++ more)
  | read {command : Command} {more : List Command} (hread : ∀ key, ¬command.Writes key)
      (h : Requests c keys more) : Requests c keys (command :: more)

/-- What becomes of a server while others use it. -/
inductive Meanwhile (c : Catalog) (keys : List String) (s : Server) : Server → Prop
  | refl : Meanwhile c keys s s
  | pipeline {s' : Server} (h : Meanwhile c keys s s') {cs : List Command}
      (hcs : c.Requests keys cs) : Meanwhile c keys s (s'.pipeline cs).2
  | advance {s' s'' : Server} (h : Meanwhile c keys s s') {milliseconds : Nat}
      (hs'' : s'.advance milliseconds = .ok s'') : Meanwhile c keys s s''
  | elapse {s' : Server} (h : Meanwhile c keys s s') (milliseconds : Nat) :
      Meanwhile c keys s (s'.elapse milliseconds)

variable {c : Catalog} {l : Layout} {keys : List String} {key : String} {cs : List Command}

/-- No commit to a model of the catalog changes a result of a query on one of its models. -/
theorem Registered.entries_commit (hc : c.Registered) {l' : Layout} (hl : l ∈ c.layouts)
    (hl' : l' ∈ c.layouts) (hsection : l.keys.InSection key .temporary) {b : Batch}
    (hb : b.keys = l'.keys) (ks : Keyspace) :
    (ks.execute (.eval (.commit b))).2.entries[key]? = ks.entries[key]? := by
  refine (edited_execute ks _).beside.entries key ?_
  rintro ⟨s, hs, hne⟩
  rw [hb] at hs
  -- the key would belong to both models, so they are one, and its section is that of results
  obtain rfl := hc.eq_of_owns hl hl' ⟨_, hsection⟩ ⟨_, hs⟩
  exact hne (hs.eq hsection)

/-- Nothing that others ask for changes what is under keys in use. -/
theorem Requests.entries (h : c.Requests keys cs) (hc : c.Registered) (hl : l ∈ c.layouts)
    (hsection : l.keys.InSection key .temporary) (hkey : key ∈ keys) (ks : Keyspace) :
    (ks.executeAll cs).2.entries[key]? = ks.entries[key]? := by
  induction h generalizing ks with
  | nil => rfl
  | commit hl' hb _ ih => exact (ih _).trans (hc.entries_commit hl hl' hsection hb ks)
  | @query tree sort lifetime n plan more hplan hother _ ih =>
    -- the commands of the plan change its own temporary keys only
    obtain ⟨found, hfound, hplanned⟩ := Tree.lower_ok hplan
    obtain ⟨hbeside, -⟩ := hplanned.writes (Lowering.lowerNode_blocks hfound) ks
    rw [executeAll_append]
    exact (ih _).trans (hbeside.entries key fun hmem => hother key hmem hkey)
  | read hread _ ih => exact (ih _).trans ((edited_execute ks _).beside.entries key (hread key))

/-- A key in use stays as it is until it expires. -/
theorem Meanwhile.entries {s s' : Server} (h : c.Meanwhile keys s s') (hc : c.Registered)
    (hl : l ∈ c.layouts) (hsection : l.keys.InSection key .temporary) (hkey : key ∈ keys)
    {time : Nat} (hexpires : s.space.ExpiresAt key time) (hnow : s'.clock.now < time) :
    s'.space.entries[key]? = s.space.entries[key]? := by
  induction h with
  | refl => rfl
  | pipeline _ hcs ih =>
    -- a pipeline first drops what has expired, which the key has not
    have hsweep := (hexpires.of_entries (ih hnow)).getElem?_sweep hnow
    exact ((hcs.entries hc hl hsection hkey _).trans hsweep).trans (ih hnow)
  | advance _ hs'' ih =>
    obtain ⟨hspace, hle⟩ := Server.advance_ok hs''
    rw [hspace]
    exact ih (Nat.lt_of_le_of_lt hle hnow)
  | elapse _ milliseconds ih =>
    obtain ⟨hspace, hle⟩ := Server.elapse_spec _ milliseconds
    rw [hspace]
    exact ih (Nat.lt_of_le_of_lt hle hnow)

end Catalog

namespace ResultSet

variable {plan : Plan} {l : Layout} {client client' : Client} {ks ks' : Keyspace}

/-- Results of one plan are read alike where the key that they are read from holds the same. -/
theorem read_alike {r r' : ResultSet} (hr : r'.plan = r.plan) (h : r.Answers client ks)
    (h' : r'.Answers client' ks')
    (hkinds : ∀ key kind, r.plan.reader.expects? = some (key, kind) →
      ks.Fits key kind ∧ ks'.data? key = ks.data? key) :
    (∀ start stop, ∃ found, (runFrom (r, client) (ids start stop)).1 = .ok found ∧
      (runFrom (r', client') (ids start stop)).1 = .ok found) ∧
    ∃ size, (runFrom (r, client) count).1 = .ok size ∧
      (runFrom (r', client') count).1 = .ok size := by
  obtain ⟨items, hitems⟩ := Reader.exists_items fun key kind hreader => (hkinds key kind hreader).1
  have hitems' : r'.plan.reader.items ks' = .ok items := by
    rw [hr, Reader.items_congr fun key kind hreader => (hkinds key kind hreader).2]
    exact hitems
  constructor
  · intro start stop
    obtain ⟨s, hs⟩ := exists_ids_part h hitems start stop
    obtain ⟨s', hs'⟩ := exists_ids_part h' hitems' start stop
    rw [hr] at hs'
    exact ⟨_, congrArg Prod.fst hs, congrArg Prod.fst hs'⟩
  · obtain ⟨s, hs⟩ := exists_count h hitems
    obtain ⟨s', hs'⟩ := exists_count h' hitems'
    exact ⟨_, congrArg Prod.fst hs, congrArg Prod.fst hs'⟩

end ResultSet

namespace Tree

variable {c : Catalog} {tree : Tree} {sort : Option SortOrder} {lifetime n : Nat} {plan : Plan}

/-- A plan with temporary keys has commands. -/
theorem commands_ne_nil (h : tree.lower sort lifetime n = .ok plan) {key : String}
    (hkey : key ∈ plan.temporaries) : plan.commands ≠ [] := by
  obtain ⟨found, hfound, hplanned⟩ := lower_ok h
  have hblocks := Lowering.lowerNode_blocks hfound
  cases hplanned with
  | stored => exact hblocks.commands_ne_nil hkey
  | elided => exact hblocks.commands_ne_nil hkey
  | sorted => simp

/-- A temporary key from which a plan is read holds what is expected, once the commands of the plan
have succeeded. -/
theorem fits_reader (h : tree.lower sort lifetime n = .ok plan) {key : String} {kind : DataKind}
    (hreader : plan.reader.expects? = some (key, kind)) (hkey : key ∈ plan.temporaries)
    {ks : Keyspace} (hpasses : ks.Passes plan.commands) :
    (ks.executeAll plan.commands).2.Fits key kind := by
  obtain ⟨found, hfound, hplanned⟩ := lower_ok h
  have hblocks := Lowering.lowerNode_blocks hfound
  have hkinds := (Lowering.composable_ofMemberKind _).lowerNode hfound
  exact hplanned.fits_reader hblocks hkinds hreader hkey hpasses

/-- What a plan has left under the key that it is read from stays a snapshot. When its commands have
been carried out without fault, all reads of ids and of their number, by whatever client and within
whatever bounds, answer what the first such read answered, until the lifetime is over: neither
commits to models of the catalog make a difference, nor other queries, if these use other temporary
keys. -/
theorem snapshot_stable (hc : c.Registered) (hlayout : tree.origin.layout ∈ c.layouts)
    (hplan : tree.lower sort lifetime n = .ok plan) {key : String} {kind : DataKind}
    (hreader : plan.reader.expects? = some (key, kind)) (hkey : key ∈ plan.temporaries)
    {client : Client} (hclient : client.Works) {reads : List Command}
    (hreads : ∀ command ∈ reads, ∀ key, ¬command.Writes key) {replies : List Reply}
    {r : ResultSet} {client' later : Client}
    (hfirst : runFrom (⟨tree.origin.layout, plan, false⟩, client) (ResultSet.run reads) =
      (.ok replies, (r, client')))
    (hlater : c.Meanwhile plan.temporaries client'.server later.server) (hworks : later.Works)
    (hnow : later.server.clock.now < client.server.clock.now + 1000 * lifetime) :
    (∀ start stop, ∃ found,
      (runFrom (⟨tree.origin.layout, plan, false⟩, client) (ResultSet.ids start stop)).1 =
        .ok found ∧
      (runFrom (r, later) (ResultSet.ids start stop)).1 = .ok found) ∧
    ∃ size,
      (runFrom (⟨tree.origin.layout, plan, false⟩, client) ResultSet.count).1 = .ok size ∧
      (runFrom (r, later) ResultSet.count).1 = .ok size := by
  obtain ⟨hpasses, hs⟩ := ResultSet.run_ok hclient rfl (commands_ne_nil hplan hkey) hfirst
  cases hs
  obtain ⟨found, hfound, hplanned⟩ := lower_ok hplan
  have hblocks := Lowering.lowerNode_blocks hfound
  have hsection := hplanned.temporaries hblocks key hkey
  obtain ⟨-, hexpires⟩ := hplanned.writes hblocks client.server.sweep.space
  -- the reads change nothing, so the key is as the commands have left it, and expires in time
  have hleft : (client.server.pipeline (plan.commands ++ reads)).2.space.entries[key]? =
      (client.server.sweep.space.executeAll plan.commands).2.entries[key]? := by
    show (client.server.sweep.space.executeAll (plan.commands ++ reads)).2.entries[key]? = _
    rw [executeAll_append]
    exact (edited_executeAll _ reads).beside.entries key fun ⟨command, hmem, hwrites⟩ =>
      hreads command hmem key hwrites
  have hthen := ExpiresAt.of_entries (hexpires key hkey) hleft
  have hmeanwhile := hlater.entries hc hlayout hsection hkey hthen hnow
  have hsweep := (hthen.of_entries hmeanwhile).getElem?_sweep hnow
  refine ResultSet.read_alike rfl (ResultSet.answers_of_succeeds hclient rfl ⟨hpasses, rfl⟩)
    (ResultSet.answers_of_materialized hworks rfl) fun key' kind' hreader' => ?_
  obtain ⟨rfl, rfl⟩ : key = key' ∧ kind = kind' := by simpa [hreader] using hreader'
  refine ⟨fits_reader hplan hreader hkey hpasses, ?_⟩
  exact congrArg (Option.map Entry.data) ((hsweep.trans hmeanwhile).trans hleft)

/-- A star that was found is deleted, a hero is written, and the same query is asked under another
name. In the last millisecond of its lifetime, the first result is still what it was. -/
theorem snapshot_stable_stars :
    ∃ (plan : Plan) (r : ResultSet) (client later : Client),
      slugTree.lower none 60 0 = .ok plan ∧
        later.server.sweep.space.entries.contains (Request.starLayout.keys.object "a") = false ∧
        (∀ start stop, ∃ found,
          (runFrom (⟨Request.starLayout, plan, false⟩, client) (ResultSet.ids start stop)).1 =
            .ok found ∧
          (runFrom (r, later) (ResultSet.ids start stop)).1 = .ok found) ∧
        ∃ size, (runFrom (⟨Request.starLayout, plan, false⟩, client) ResultSet.count).1 = .ok size ∧
          (runFrom (r, later) ResultSet.count).1 = .ok size := by
  let c : Catalog := ⟨.standard, [Request.starLayout, CommitScript.heroes]⟩
  have hc : c.Registered := by
    refine (Catalog.Registered.singleton (c := ⟨.standard, [Request.starLayout]⟩) rfl
      Request.layout_starDoc).append CommitScript.layout_hero ?_
    decide
  obtain ⟨plan, hplan⟩ : ∃ plan, slugTree.lower none 60 0 = .ok plan := ⟨_, rfl⟩
  obtain ⟨plan', hplan'⟩ : ∃ plan, slugTree.lower none 60 7 = .ok plan := ⟨_, rfl⟩
  have htemporaries : plan.temporaries = [Request.starLayout.keys.temporary 0] := by
    cases hplan
    rfl
  have hreader : plan.reader.expects? =
      some (Request.starLayout.keys.temporary 0, .sortedSet) := by
    cases hplan
    rfl
  have hother : ∀ key ∈ plan'.temporaries, key ∉ plan.temporaries := by
    rw [htemporaries]
    cases hplan'
    decide
  let client := Client.ofServer ⟨unrankedSpace, .manual 0, ⟨0, 0, 0⟩⟩
  have hclient : client.Works := ⟨rfl, rfl⟩
  have hspace : client.server.sweep.space = unrankedSpace := by
    have hnow : unrankedSpace.now = 0 := by decide +kernel
    have hsweep : unrankedSpace.sweep unrankedSpace.now = unrankedSpace :=
      sweep_eq_self (by decide +kernel)
    rwa [hnow] at hsweep
  have hfresh : client.server.sweep.space.Fresh plan.temporaries := by
    rw [htemporaries, hspace]
    exact ⟨by decide, by decide +kernel⟩
  obtain ⟨after, hruns, -⟩ := runs_of_lower hplan (by rw [hspace]; exact readable_unrankedSpace)
    hfresh
  let read := Command.zcard (Request.starLayout.keys.temporary 0)
  obtain ⟨⟨r, client'⟩, hfirst⟩ := ResultSet.exists_run (r := ⟨Request.starLayout, plan, false⟩)
    hclient rfl hruns read
  have hreads : ∀ command ∈ [read], ∀ key, ¬command.Writes key := by
    intro command hcommand key
    obtain rfl := List.mem_singleton.mp hcommand
    exact id
  have hmem : Request.starLayout.keys.temporary 0 ∈ plan.temporaries := by
    rw [htemporaries]
    exact List.mem_singleton_self _
  obtain ⟨-, hs⟩ := ResultSet.run_ok hclient rfl (commands_ne_nil hplan hmem) hfirst
  cases hs
  -- what others do: two commits, the other query, and nothing more until just before the end
  let ada : InstanceWrite := .ofRecord CommitScript.heroes (IdentityKey.placeholder 0)
    (.ofList [("name", .text "Ada"), ("team", .text "red")]) none
  let others : List Command :=
    .eval (.commit (CommitScript.batchOf Request.starLayout [] [.ids ["a"]])) ::
      .eval (.commit (CommitScript.batchOf CommitScript.heroes [ada] [])) :: (plan'.commands ++ [])
  have hothers : c.Requests plan.temporaries others :=
    .commit List.mem_cons_self rfl (.commit (List.mem_cons_of_mem _ List.mem_cons_self) rfl
      (.query hplan' hother .nil))
  let left := ((client.server.pipeline (plan.commands ++ [read])).2.pipeline others).2
  let later := Client.ofServer { left with clock := .manual 59999 }
  have hadvance : left.advance 59999 = .ok later.server := rfl
  have hlater : c.Meanwhile plan.temporaries (client.server.pipeline (plan.commands ++ [read])).2
      later.server := .advance (.pipeline .refl hothers) hadvance
  have hnow : later.server.clock.now < client.server.clock.now + 1000 * 60 :=
    show 59999 < 0 + 1000 * 60 by decide
  obtain ⟨hids, hcount⟩ := snapshot_stable hc List.mem_cons_self hplan hreader hmem hclient hreads
    hfirst hlater ⟨rfl, rfl⟩ hnow
  refine ⟨plan, _, client, later, hplan, ?_, hids, hcount⟩
  cases hplan
  cases hplan'
  decide +kernel

end Tree

end KeyedRecords
