import KeyedRecords.Proofs.Query.Asking
import KeyedRecords.Proofs.Query.Chains
import KeyedRecords.Proofs.Query.Snapshot

/-!
# Results agree

A result is counted, read and asked for members with different commands, and from different keys if
it has been sorted: the sorted list is read and counted, and what was sorted is asked. All of these
see the same ids (`Tree.results_agree`), since a sort leaves none out and a collection has none
twice. A sort also takes lists, so the key that is sorted must not be one of these
(`Tree.results_disagree_heroes`).
-/

namespace KeyedRecords

namespace Keyspace

variable {ks : Keyspace} {key : String} {pattern? : Option String} {descending alpha : Bool}

/-- Behind a sort whose list is stored, and then expires, the list has the members of the key that
was sorted, and no other key has changed. -/
theorem exists_items_of_sort {dest : String} {seconds : Nat} {after : Keyspace}
    (hsucceeds : ks.Succeeds
      [.sort key pattern? descending alpha (some dest), .expire dest seconds] after) :
    (∀ members, ks.members key = .ok members →
      ∃ items, (Reader.list dest).items after = .ok items ∧ items.Perm members) ∧
      ∀ k, k ≠ dest → after.data? k = ks.data? k := by
  obtain ⟨hpasses, rfl⟩ := hsucceeds
  obtain ⟨items, hsorted, hstored⟩ := exists_sorted (passes_cons.mp hpasses).1
  simp only [executeAll, execute_expire, hstored]
  refine ⟨fun members hmembers => ⟨items, ?_, sorted_perm hsorted hmembers⟩, fun k hk => ?_⟩
  · obtain ⟨l, hl, hitems⟩ := list?_replace ks dest items
    unfold Reader.items
    dsimp only
    rw [list?_congr (data?_expire ..), hl]
    exact congrArg Except.ok hitems
  · rw [data?_expire, (puts_replace ks dest (.list items)).data?_eq, if_neg hk]

end Keyspace

namespace Plan

open Keyspace

variable {p : Plan} {ks : Keyspace} {found : List String}

/-- Membership is read from a collection of this kind. -/
def memberKind (p : Plan) : DataKind := if p.ordered then .sortedSet else .set

/-- The key where the result is before any sort can be asked for members. -/
def Askable (p : Plan) (ks : Keyspace) : Prop :=
  ∀ key, p.source = some key → ks.Fits key p.memberKind

/-- If a plan works on one of the model's own keys, and not on a temporary key that it fills itself,
that key holds nothing or a collection of the kind that membership is read from. -/
def SourceFits (p : Plan) (ks : Keyspace) : Prop :=
  ∀ key, p.source = some key → key ∉ p.temporaries → ks.Fits key p.memberKind

/-- Texts list the results of a plan: its reader finds just these, each once, and they are the
members of the key where the result is before any sort. -/
structure Lists (p : Plan) (ks : Keyspace) (found : List String) : Prop where
  items : p.reader.items ks = .ok found
  nodup : found.Nodup
  mem_iff : ∀ id, id ∈ found ↔ ∃ key, p.source = some key ∧ ks.Has key id

theorem memberKind_or (p : Plan) : p.memberKind = .set ∨ p.memberKind = .sortedSet := by
  unfold memberKind
  split
  · exact .inr rfl
  · exact .inl rfl

/-- What is read from a collection, from either end, are its members. -/
theorem exists_lists {key : String} (hsource : p.source = some key) (hask : p.Askable ks)
    (hreader : p.reader.expects? = some (key, p.memberKind)) : ∃ found, p.Lists ks found := by
  have hfits := hask key hsource
  obtain ⟨members, hmembers, hlisted⟩ := hfits.exists_members p.memberKind_or
  have hitems : ∃ found, p.reader.items ks = .ok found ∧ found.Perm members := by
    cases hread : p.reader with
    | empty =>
      rw [hread] at hreader
      cases hreader
    | set key' =>
      obtain ⟨rfl, hkind⟩ : key' = key ∧ .set = p.memberKind := by
        simpa [hread, Reader.expects?] using hreader
      obtain ⟨s, hs, -⟩ := (hkind ▸ hfits).set?
      cases hmembers.symm.trans (members_of_set? hs)
      refine ⟨_, ?_, .refl _⟩
      simp only [Reader.items, hs]
      rfl
    | sorted key' reversed =>
      obtain ⟨rfl, hkind⟩ : key' = key ∧ .sortedSet = p.memberKind := by
        simpa [hread, Reader.expects?] using hreader
      obtain ⟨z, hz, -⟩ := (hkind ▸ hfits).sortedSet?
      cases hmembers.symm.trans (members_of_sortedSet? hz)
      refine ⟨if reversed then ((byScore (z.getD ∅)).map Prod.fst).reverse
        else (byScore (z.getD ∅)).map Prod.fst, ?_, ?_⟩
      · simp only [Reader.items, hz]
        rfl
      · split
        · exact List.reverse_perm _
        · exact .refl _
    | list key' =>
      -- no plan keeps what it is asked for in a list
      obtain ⟨-, hkind⟩ : key' = key ∧ .list = p.memberKind := by
        simpa [hread, Reader.expects?] using hreader
      exact absurd p.memberKind_or (by simp [← hkind])
  obtain ⟨found, hfound, hperm⟩ := hitems
  have hlisted := hlisted.of_perm hperm
  refine ⟨found, hfound, hlisted.nodup, fun id => (hlisted.mem_iff id).trans ?_⟩
  simp [hsource]

end Plan

/-- All ids that a reader finds are read if no bounds are given. -/
theorem Reader.part_all {reader : Reader} {ks : Keyspace} {found : List String}
    (h : reader.items ks = .ok found) : reader.part found 0 none = found := by
  cases reader with
  | empty =>
    cases h
    rfl
  | set key => exact Slice.slice_all found
  | sorted key reversed => exact Slice.between_all found
  | list key => exact Slice.between_all found

namespace Lowering

open Keyspace

variable {t : Target} {n : Nat} {found : Fragment} {sort : Option SortOrder} {plan : Plan}
  {ks : Keyspace}

theorem Planned.source_eq (h : Planned t n found sort plan) : plan.source = found.source := by
  cases h <;> rfl

/-- Membership is read from a collection of the kind of the model. -/
theorem Planned.memberKind_eq (h : Planned t n found sort plan) :
    plan.memberKind = t.layout.memberKind := by
  cases h <;> rfl

/-- Behind the commands of a plan that have succeeded, its results are listed, if membership can be
read there. -/
theorem Planned.exists_lists (h : Planned t n found sort plan)
    (hready : ∀ key, found.source = some key → t.Ready found.temporaries key)
    (hdistinct : plan.temporaries.Nodup) (hpasses : ks.Passes plan.commands)
    (hask : plan.Askable (ks.executeAll plan.commands).2) :
    ∃ ids, plan.Lists (ks.executeAll plan.commands).2 ids := by
  cases h with
  | stored hstored =>
    cases hsource : found.source with
    | none =>
      have hreader : (storagePlan t.layout found).reader = .empty := by
        simp [storagePlan, hsource]
      refine ⟨[], by rw [hreader]; rfl, .nil, fun id => ?_⟩
      simp [storagePlan, hsource]
    | some key =>
      refine Plan.exists_lists (p := storagePlan t.layout found) hsource hask ?_
      unfold storagePlan Plan.memberKind Layout.isOrdered
      rw [hsource]
      cases t.layout.defaultOrdering <;> rfl
  | @elided key order hsource horder =>
    refine Plan.exists_lists hsource hask ?_
    unfold storagePlan Plan.memberKind Layout.isOrdered
    cases hordering : t.layout.defaultOrdering with
    | none =>
      rw [hordering] at horder
      cases horder
    | some order => rfl
  | @sorted key order f hsource horder hf =>
    dsimp only at hdistinct hpasses hask ⊢
    -- the list is not stored over its own source
    have hne : key ≠ t.temporary (n + found.temporaries.length) := by
      rintro rfl
      rcases hready _ hsource with hmem | hsection
      · exact (List.nodup_append.mp hdistinct).2.2 _ hmem _ (List.mem_singleton_self _) rfl
      · exact hsection (.temporary _ rfl)
    generalize t.temporary (n + found.temporaries.length) = dest at *
    obtain ⟨-, hsort⟩ := passes_append.mp hpasses
    rw [executeAll_append] at hask ⊢
    obtain ⟨hitems, hsame⟩ := exists_items_of_sort ⟨hsort, rfl⟩
    have hfits := (hask key hsource).of_data?_eq (hsame key hne).symm
    obtain ⟨members, hmembers, hlisted⟩ := hfits.exists_members (Plan.memberKind_or _)
    obtain ⟨ids, hids, hperm⟩ := hitems members hmembers
    have hlisted := hlisted.of_perm hperm
    refine ⟨ids, hids, hlisted.nodup, fun id => (hlisted.mem_iff id).trans ?_⟩
    rw [← has_of_data?_eq (hsame key hne) id]
    simp [storagePlan, hsource, sortCommand]

end Lowering

namespace ResultSet

open Keyspace Operation

variable {r : ResultSet} {p : Plan} {client : Client} {ks : Keyspace} {found : List String}

section Contains

variable (h : r.Answers client ks)
include h

/-- Membership is read from the key where the result is before any sort. -/
theorem exists_contains (hask : r.plan.Askable ks) (id : String) :
    ∃ s, runFrom (r, client) (contains id) =
      (.ok (r.plan.source.any fun key => (ks.score? key id).isSome), s) := by
  unfold contains
  rw [runFrom_bind_ok (runFrom_current r client)]
  unfold Plan.Askable Plan.memberKind at hask
  dsimp only
  cases hsource : r.plan.source with
  | none => exact ⟨_, rfl⟩
  | some key =>
    have hfits := hask key hsource
    dsimp only
    cases hordered : r.plan.ordered with
    | true =>
      rw [hordered, if_pos rfl] at hfits
      obtain ⟨s, hread⟩ := h (.zscore key id)
      rw [hfits.execute_zscore] at hread
      rw [if_pos rfl, runFrom_bind_ok hread, Option.any_some]
      generalize ks.score? key id = score
      cases score <;> exact ⟨s, rfl⟩
    | false =>
      rw [hordered, if_neg Bool.false_ne_true] at hfits
      obtain ⟨s, hread⟩ := h (.sismember key id)
      rw [hfits.execute_sismember] at hread
      rw [if_neg Bool.false_ne_true, runFrom_bind_ok hread, Option.any_some]
      generalize (ks.score? key id).isSome = hit
      cases hit <;> exact ⟨s, rfl⟩

/-- If membership is answered, the key can be asked. -/
theorem askable_of_contains {id : String} {b : Bool}
    (hrun : (runFrom (r, client) (contains id)).1 = .ok b) : r.plan.Askable ks := by
  intro key hsource
  unfold contains at hrun
  rw [runFrom_bind_ok (runFrom_current r client)] at hrun
  dsimp only at hrun
  rw [hsource] at hrun
  dsimp only at hrun
  unfold Plan.memberKind
  cases hordered : r.plan.ordered with
  | true =>
    obtain ⟨s, hread⟩ := h (.zscore key id)
    rw [hordered, if_pos rfl, runFrom_bind_ok hread] at hrun
    refine fits_of_execute_zscore (m := id) ?_
    -- a reply that reports a failure is not taken for an answer
    cases hreply : (ks.execute (.zscore key id)).1 with
    | error message =>
      rw [hreply] at hrun
      cases hrun
    | _ => rfl
  | false =>
    obtain ⟨s, hread⟩ := h (.sismember key id)
    rw [hordered, if_neg Bool.false_ne_true, runFrom_bind_ok hread] at hrun
    refine fits_of_execute_sismember (m := id) ?_
    cases hreply : (ks.execute (.sismember key id)).1 with
    | error message =>
      rw [hreply] at hrun
      cases hrun
    | _ => rfl

end Contains

/-- A plan is carried out by the next read, or has been, and this leads to a key space. -/
structure Serves (p : Plan) (ks : Keyspace) (s : ResultSet × Client) : Prop where
  plan : s.1.plan = p
  works : s.2.Works
  clock : s.2.server.clock.now = ks.now
  succeeds : s.2.server.sweep.space.Succeeds s.1.ahead ks

/-- Where nothing expires at once, reads are answered from the key space and lead to states in which
they are. -/
theorem Serves.meets_runOne {read : Command} (hread : ∀ key, ¬read.Writes key)
    (hswept : ks.sweep ks.now = ks) :
    Meets (Serves p ks) (runOne read) (fun _ => Serves p ks) fun _ _ => False := by
  rintro ⟨r, client⟩ ⟨hplan, hworks, hclock, hsucceeds⟩
  have hsame : (ks.execute read).2 = ks := (edited_execute ks read).beside.eq_self hread
  have hnext : ((client.server.pipeline (r.ahead ++ [read])).2).sweep.space = ks := by
    have hleads : (client.server.sweep.space.executeAll (r.ahead ++ [read])).2 = ks := by
      rw [executeAll_append, hsucceeds.leads]
      exact hsame
    show (client.server.sweep.space.executeAll (r.ahead ++ [read])).2.sweep _ = ks
    rw [hleads]
    exact (congrArg ks.sweep hclock).trans hswept
  have hahead : ahead { r with materialized := r.materialized || !r.ahead.isEmpty } = [] := by
    unfold ahead
    cases r.materialized with
    | true => rfl
    | false => cases r.plan.commands <;> simp
  unfold runOne
  rw [runFrom_bind_ok (runFrom_run hworks hsucceeds read)]
  refine ⟨hplan, ⟨hworks.fault, hworks.cancelled⟩, hclock, ?_⟩
  rw [hnext, hahead]
  exact .nil ks

/-- Where nothing expires at once, a read keeps what is served. -/
theorem Serves.keeps_runOne (hswept : ks.sweep ks.now = ks) (read : Command)
    (hread : ∀ key, ¬read.Writes key) : Keeps (Serves p ks) (runOne read) :=
  (meets_runOne hread hswept).mono (fun _ => id) (fun _ _ => id) fun _ _ => False.elim

/-- What reads of a result set lead to, one behind the other. -/
inductive Reads (s : ResultSet × Client) : ResultSet × Client → Prop
  | refl : Reads s s
  | count {s' : ResultSet × Client} (h : Reads s s') : Reads s (runFrom s' count).2
  | contains {s' : ResultSet × Client} (h : Reads s s') (id : String) :
      Reads s (runFrom s' (contains id)).2
  | ids {s' : ResultSet × Client} (h : Reads s s') (start : Int) (stop : Option Int) :
      Reads s (runFrom s' (ids start stop)).2

/-- Reads lead to states from which the same is read. -/
theorem Reads.serves {s s' : ResultSet × Client} (h : Reads s s') (hs : Serves p ks s)
    (hswept : ks.sweep ks.now = ks) : Serves p ks s' := by
  induction h with
  | refl => exact hs
  | count _ ih => exact (keeps_count (Serves.keeps_runOne hswept)).behind ih
  | contains _ id ih => exact (keeps_contains (Serves.keeps_runOne hswept) id).behind ih
  | ids _ start stop ih => exact (keeps_ids (Serves.keeps_runOne hswept) start stop).behind ih

theorem Serves.answers {s : ResultSet × Client} (h : Serves p ks s) : s.1.Answers s.2 ks :=
  answers_of_ahead h.works h.succeeds

/-- Where the results of a plan are listed, they are counted, asked for and read alike. -/
theorem Serves.agree {s : ResultSet × Client} (h : Serves p ks s) (hask : p.Askable ks)
    (hlists : p.Lists ks found) :
    (runFrom s count).1 = .ok found.length ∧ (runFrom s (ids 0 none)).1 = .ok found ∧
      ∀ id, (runFrom s (contains id)).1 = .ok (decide (id ∈ found)) := by
  obtain ⟨r, client⟩ := s
  obtain rfl : r.plan = p := h.plan
  refine ⟨?_, ?_, fun id => ?_⟩
  · obtain ⟨_, hcount⟩ := exists_count h.answers hlists.items
    exact congrArg Prod.fst hcount
  · obtain ⟨_, hids⟩ := exists_ids_part h.answers hlists.items 0 none
    exact (congrArg Prod.fst hids).trans (congrArg Except.ok (Reader.part_all hlists.items))
  · obtain ⟨_, hcontains⟩ := exists_contains h.answers hask id
    refine (congrArg Prod.fst hcontains).trans (congrArg Except.ok (Bool.eq_iff_iff.mpr ?_))
    rw [decide_eq_true_iff, hlists.mem_iff, Option.any_eq_true]
    rfl

end ResultSet

namespace Tree

open Keyspace ResultSet

variable {tree : Tree} {sort : Option SortOrder} {lifetime n : Nat} {plan : Plan}

/-- What the commands of a plan lead to does not expire at once, unless temporary keys have no time
to live. -/
theorem sweep_executeAll (h : tree.lower sort lifetime n = .ok plan)
    (hlifetime : plan.temporaries = [] ∨ 0 < lifetime) {s : Server} {ks : Keyspace}
    (hks : (s.sweep.space.executeAll plan.commands).2 = ks) :
    ks.sweep ks.now = ks := by
  obtain ⟨found, hfound, hplanned⟩ := lower_ok h
  obtain ⟨hbeside, hexpires⟩ := hplanned.writes (Lowering.lowerNode_blocks hfound) s.sweep.space
  rw [hks] at hbeside hexpires
  refine sweep_eq_self fun e he => ?_
  have hentry := Std.ExtTreeMap.mem_toList_iff_getElem?_eq_some.mp he
  by_cases hkey : e.1 ∈ plan.temporaries
  · have hlives := hlifetime.resolve_left (List.ne_nil_of_mem hkey)
    have htime := hexpires _ hkey _ hentry
    simp only [isAlive, htime, hbeside.now, decide_eq_true_eq]
    omega
  · -- what was there has been swept
    rw [hbeside.entries _ hkey] at hentry
    have hswept : (s.space.sweep s.clock.now).entries[e.1]? = some e.2 := hentry
    rw [getElem?_sweep] at hswept
    rw [hbeside.now]
    exact (Option.filter_eq_some_iff.mp hswept).2

/-- Behind the commands of a plan, the key where its result is before any sort can be asked for
members just if the plan fills it itself, or it had the right kind before. -/
theorem askable_iff_sourceFits (h : tree.lower sort lifetime n = .ok plan)
    (hdistinct : plan.temporaries.Nodup) {ks : Keyspace} (hpasses : ks.Passes plan.commands) :
    plan.Askable (ks.executeAll plan.commands).2 ↔ plan.SourceFits ks := by
  obtain ⟨found, hfound, hplanned⟩ := lower_ok h
  have hblocks := Lowering.lowerNode_blocks hfound
  have hready := (Lowering.lowerNode_chain hfound).2
  unfold Plan.Askable Plan.SourceFits
  rw [hplanned.memberKind_eq, hplanned.source_eq]
  constructor
  · intro hask key hsource hkey
    exact (hask key hsource).of_data?_eq ((hplanned.writes hblocks ks).1.data? hkey).symm
  · intro hsound key hsource
    by_cases hkey : key ∈ plan.temporaries
    · -- a temporary key is filled by the fragment, and a sort behind it fills another one
      have hfilled := (hready key hsource).resolve_right
        (not_not_intro (hplanned.temporaries hblocks key hkey))
      obtain ⟨more, later, hcommands, htemporaries, -, hsort⟩ := hplanned.exists_sort
      rw [htemporaries] at hdistinct
      have hlater : key ∉ later := fun hmem =>
        (List.nodup_append.mp hdistinct).2.2 key hfilled key hmem rfl
      rw [hcommands] at hpasses ⊢
      rw [executeAll_append]
      have hfits := hblocks.fits ((Lowering.composable_ofMemberKind _).lowerNode hfound)
        (passes_append.mp hpasses).1 key hfilled
      exact hfits.of_data?_eq ((hsort _).1.data? hlater)
    · exact (hsound key hsource hkey).of_data?_eq ((hplanned.writes hblocks ks).1.data? hkey)

/-- A plan whose commands succeed can be carried out. -/
theorem serves (h : tree.lower sort lifetime n = .ok plan) {client : Client}
    (hclient : client.Works) (hpasses : client.server.sweep.space.Passes plan.commands) :
    Serves plan (client.server.sweep.space.executeAll plan.commands).2
      (⟨tree.origin.layout, plan, false⟩, client) := by
  obtain ⟨found, hfound, hplanned⟩ := lower_ok h
  obtain ⟨hbeside, -⟩ :=
    hplanned.writes (Lowering.lowerNode_blocks hfound) client.server.sweep.space
  exact ⟨rfl, hclient, hbeside.now.symm, hpasses, rfl⟩

/-- Count, membership and ids of a result agree, whatever tree and sort the plan is made of. On each
store on which the commands of the plan succeed, there is one list of ids without repetitions such
that, whenever no more than reads has happened, its length is counted, its ids are read, and asking
for an id tells whether it is there. The store may hold anything under the keys of the model, except
that a key that the plan works on as it is must not be of another kind than the collections of the
model; exactly then an id can be asked for at all. Temporary keys that live for no second are gone
behind the first read, so then only first reads agree. -/
theorem results_agree (hplan : tree.lower sort lifetime n = .ok plan)
    (hdistinct : plan.temporaries.Nodup) {client : Client} (hclient : client.Works)
    (hpasses : client.server.sweep.space.Passes plan.commands) :
    (∀ id, (∃ b, (runFrom (⟨tree.origin.layout, plan, false⟩, client) (contains id)).1 = .ok b) ↔
      plan.SourceFits client.server.sweep.space) ∧
    (plan.SourceFits client.server.sweep.space → ∃ found : List String, found.Nodup ∧
      ∀ s, Reads (⟨tree.origin.layout, plan, false⟩, client) s →
        s = (⟨tree.origin.layout, plan, false⟩, client) ∨ plan.temporaries = [] ∨ 0 < lifetime →
          (runFrom s count).1 = .ok found.length ∧ (runFrom s (ids 0 none)).1 = .ok found ∧
            ∀ id, (runFrom s (contains id)).1 = .ok (decide (id ∈ found))) := by
  obtain ⟨found, hfound, hplanned⟩ := lower_ok hplan
  have hiff := askable_iff_sourceFits hplan hdistinct hpasses
  have hserves := serves hplan hclient hpasses
  refine ⟨fun id => ?_, fun hsound => ?_⟩
  · rw [← hiff]
    constructor
    · rintro ⟨b, hb⟩
      exact askable_of_contains hserves.answers hb
    · intro hask
      obtain ⟨_, hcontains⟩ := exists_contains hserves.answers hask id
      exact ⟨_, congrArg Prod.fst hcontains⟩
  · have hask := hiff.mpr hsound
    obtain ⟨ids, hlists⟩ := hplanned.exists_lists (Lowering.lowerNode_chain hfound).2 hdistinct
      hpasses hask
    refine ⟨ids, hlists.nodup, fun s hreads hs => Serves.agree ?_ hask hlists⟩
    obtain rfl | hlifetime := hs
    · exact hserves
    · exact hreads.serves hserves (sweep_executeAll hplan hlifetime rfl)

/-- Two stars that are sorted by their slugs are read from a list, and asked for in a sorted set. -/
theorem results_agree_stars :
    ∃ (plan : Plan) (client : Client) (found : List String),
      slugTree.lower (some ⟨"slug", true⟩) 60 0 = .ok plan ∧
        plan.source = some (Request.starLayout.keys.temporary 0) ∧
        plan.reader = .list (Request.starLayout.keys.temporary 1) ∧ found.Nodup ∧
        ∀ s, Reads (⟨Request.starLayout, plan, false⟩, client) s →
          (runFrom s count).1 = .ok found.length ∧ (runFrom s (ids 0 none)).1 = .ok found ∧
            ∀ id, (runFrom s (contains id)).1 = .ok (decide (id ∈ found)) := by
  obtain ⟨plan, hplan, hsource, hreader, htemporaries⟩ : ∃ plan,
      slugTree.lower (some ⟨"slug", true⟩) 60 0 = .ok plan ∧
        plan.source = some (Request.starLayout.keys.temporary 0) ∧
        plan.reader = .list (Request.starLayout.keys.temporary 1) ∧
        plan.temporaries = [0, 1].map Request.starLayout.keys.temporary := ⟨_, rfl, rfl, rfl, rfl⟩
  let client := Client.ofServer ⟨unrankedSpace, .manual 0, ⟨0, 0, 0⟩⟩
  have hspace : client.server.sweep.space = unrankedSpace := by
    have hnow : unrankedSpace.now = 0 := by decide +kernel
    have hsweep : unrankedSpace.sweep unrankedSpace.now = unrankedSpace :=
      sweep_eq_self (by decide +kernel)
    rwa [hnow] at hsweep
  have hpasses : client.server.sweep.space.Passes plan.commands := by
    rw [hspace]
    cases hplan
    unfold Passes
    decide +kernel
  obtain ⟨-, hagree⟩ := results_agree hplan (by rw [htemporaries]; decide) ⟨rfl, rfl⟩ hpasses
  have hfits : plan.SourceFits client.server.sweep.space := by
    intro key hkey hother
    obtain rfl := Option.some.inj (hsource.symm.trans hkey)
    exact absurd (by rw [htemporaries]; decide) hother
  obtain ⟨found, hnodup, hfound⟩ := hagree hfits
  exact ⟨plan, client, found, hplan, hsource, hreader, hnodup, fun s hs =>
    hfound s hs (.inr (.inr (by decide)))⟩

/-- Where a list with repetitions is in the place of an index entry, a sort takes it for the result:
an id is read twice, and counted twice, and cannot be asked for. And temporary keys that live for no
second are counted in the first read, and are empty in the next one. -/
theorem results_disagree_heroes :
    (∃ (tree : Tree) (sort : Option SortOrder) (plan : Plan) (client : Client),
      tree.lower sort 60 0 = .ok plan ∧ plan.temporaries.Nodup ∧ client.Works ∧
        client.server.sweep.space.Passes plan.commands ∧
        (runFrom (⟨tree.origin.layout, plan, false⟩, client) (ids 0 none)).1 = .ok ["1", "1"] ∧
        (runFrom (⟨tree.origin.layout, plan, false⟩, client) count).1 = .ok 2 ∧
        ∀ b, (runFrom (⟨tree.origin.layout, plan, false⟩, client) (contains "1")).1 ≠ .ok b) ∧
    ∃ (tree : Tree) (plan : Plan) (client : Client),
      tree.lower none 0 0 = .ok plan ∧ plan.temporaries.Nodup ∧ client.Works ∧
        client.server.sweep.space.Passes plan.commands ∧
        plan.SourceFits client.server.sweep.space ∧
        let counted := runFrom (⟨tree.origin.layout, plan, false⟩, client) count
        counted.1.toOption = some 2 ∧ (runFrom counted.2 (ids 0 none)).1.toOption = some [] := by
  let l := CommitScript.heroes
  let red := l.keys.index "team" "red"
  constructor
  · let tree : Tree := .select ⟨l, none⟩ "team" [.text "red"]
    let space : Keyspace := ⟨Table.insertAll ∅ [(red, ⟨.list ["1", "1"], none⟩)], 0⟩
    let client := Client.ofServer ⟨space, .manual 0, ⟨0, 0, 0⟩⟩
    have hspace : client.server.sweep.space = space :=
      show space.sweep space.now = space from sweep_eq_self (by decide +kernel)
    obtain ⟨plan, hplan, hsource, hreader⟩ : ∃ plan,
        tree.lower (some ⟨"name", false⟩) 60 0 = .ok plan ∧ plan.source = some red ∧
          plan.reader = .list (l.keys.temporary 0) := ⟨_, rfl, rfl, rfl⟩
    have hcommands : plan.commands = [.sort red (some (l.keys.sortPattern "name")) false true
        (some (l.keys.temporary 0)), .expire (l.keys.temporary 0) 60] := by
      cases hplan
      rfl
    have hpasses : client.server.sweep.space.Passes plan.commands := by
      rw [hspace, hcommands]
      unfold Passes
      decide +kernel
    have hserves := serves hplan ⟨rfl, rfl⟩ hpasses
    have hred : space.data? red = some (.list ["1", "1"]) := by
      simp [space, data?, Table.getElem?_insertAll]
    have hmembers : space.members red = .ok ["1", "1"] := by
      rw [members, hred]
    have hsucceeds := hpasses
    rw [hspace, hcommands] at hsucceeds
    obtain ⟨hsort, hsame⟩ := exists_items_of_sort ⟨hsucceeds, rfl⟩
    obtain ⟨items, hitems, hperm⟩ := hsort _ hmembers
    obtain rfl : items = ["1", "1"] :=
      List.perm_replicate.mp (show items.Perm (List.replicate 2 "1") from hperm)
    rw [← hreader, ← hspace, ← hcommands] at hitems
    rw [← hcommands, ← hspace] at hsame
    obtain ⟨_, hids⟩ := exists_ids_part hserves.answers hitems 0 none
    obtain ⟨_, hcount⟩ := exists_count hserves.answers hitems
    refine ⟨tree, _, plan, client, hplan, ?_, ⟨rfl, rfl⟩, hpasses, ?_, congrArg Prod.fst hcount,
      fun b hb => ?_⟩
    · cases hplan
      decide
    · exact (congrArg Prod.fst hids).trans (congrArg Except.ok (Reader.part_all hitems))
    · have hfits := askable_of_contains hserves.answers hb red hsource _
        ((hsame red (by decide)).trans (hspace ▸ hred))
      have hkind : plan.memberKind = .set := by
        cases hplan
        rfl
      rw [hkind] at hfits
      cases hfits
  · let tree : Tree := .select ⟨l, none⟩ "team" [.text "red", .text "blue"]
    let space : Keyspace := (executeAll ⟨∅, 0⟩ [.sadd red ["1", "2"]]).2
    let client := Client.ofServer ⟨space, .manual 0, ⟨0, 0, 0⟩⟩
    refine ⟨tree, _, client, rfl, by decide, ⟨rfl, rfl⟩, ?_, ?_, ?_, ?_⟩
    · unfold Passes
      decide +kernel
    · intro key hkey hother
      cases hkey
      exact absurd List.mem_cons_self hother
    · decide +kernel
    · decide +kernel

end Tree

end KeyedRecords
