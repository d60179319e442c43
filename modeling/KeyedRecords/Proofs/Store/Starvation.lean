import KeyedRecords.Proofs.Store.Execution

/-!
# Starved keys

A pipeline goes on behind a command that fails, and what that command was to store is missing. A
missing key reads as an empty collection, so an intersection of it comes out empty, and so does a
difference that starts from it, or a union of nothing else. `starved` lists the keys that are left
empty in this way, one command after another; `Keyspace.Collects` says what a single command does.
-/

namespace KeyedRecords

namespace Command

/-- The key under which a command stores the members that it collects. -/
def destination? : Command → Option String
  | .sinterstore dest _ | .sunionstore dest _ | .sdiffstore dest _ => some dest
  | .zinterstore dest _ _ _ | .zunionstore dest _ _ _ | .zdiffstore dest _ => some dest
  | .eval (.resolveUnique _ _ dest _) => some dest
  | _ => none

/-- Whether a command collects nothing, given keys that are empty: an intersection if one of them is
among its operands, a union if all its operands are, and a difference if its first one is. -/
def starves (empty : List String) : Command → Bool
  | .sinterstore _ keys | .zinterstore _ keys _ _ => keys.any (empty.contains ·)
  | .sunionstore _ keys | .zunionstore _ keys _ _ => keys.all (empty.contains ·)
  | .sdiffstore _ keys | .zdiffstore _ keys => keys.head?.any (empty.contains ·)
  | _ => false

end Command

/-- The empty keys behind a command that was answered, given those before it. -/
def starve (empty : List String) (answered : Command × Reply) : List String :=
  if answered.2.isError || answered.1.starves empty then
    answered.1.destination?.toList ++ empty
  else empty

/-- The keys that commands leave empty because some of them failed. -/
def starved (answered : List (Command × Reply)) : List String := answered.foldl starve []

namespace Members

/-- An intersection with the empty set. -/
theorem interAll_eq_empty {sets : List Members} (h : ∅ ∈ sets) : interAll sets = ∅ := by
  refine Std.ExtTreeSet.eq_empty_iff_forall_not_mem.mpr fun m hm => ?_
  exact Std.ExtTreeSet.not_mem_empty ((mem_interAll (List.ne_nil_of_mem h) m).mp hm ∅ h)

/-- A union of empty sets. -/
theorem unionAll_eq_empty {sets : List Members} (h : ∀ s ∈ sets, s = ∅) : unionAll sets = ∅ := by
  refine Std.ExtTreeSet.eq_empty_iff_forall_not_mem.mpr fun m hm => ?_
  obtain ⟨s, hs, hmem⟩ := (mem_unionAll sets m).mp hm
  rw [h s hs] at hmem
  exact Std.ExtTreeSet.not_mem_empty hmem

/-- A difference that starts from the empty set. -/
theorem diffAll_eq_empty (rest : List Members) : diffAll (∅ :: rest) = ∅ := by
  refine Std.ExtTreeSet.eq_empty_iff_forall_not_mem.mpr fun m hm => ?_
  exact Std.ExtTreeSet.not_mem_empty ((mem_diffAll ∅ rest m).mp hm).1

end Members

namespace Table

/-- An intersection with the empty sorted set. -/
theorem interAll_eq_empty {aggregate : Aggregate} {sets : List (Table Double)} (h : ∅ ∈ sets) :
    interAll aggregate sets = ∅ := by
  refine Std.ExtTreeMap.eq_empty_iff_forall_not_mem.mpr fun m hm => ?_
  have hall := (mem_interAll aggregate (List.ne_nil_of_mem h) m).mp hm
  exact Std.ExtTreeMap.not_mem_empty (hall ∅ h)

/-- A union of empty sorted sets. -/
theorem unionAll_eq_empty {aggregate : Aggregate} {sets : List (Table Double)}
    (h : ∀ z ∈ sets, z = ∅) : unionAll aggregate sets = ∅ := by
  refine Std.ExtTreeMap.eq_empty_iff_forall_not_mem.mpr fun m hm => ?_
  obtain ⟨z, hz, hmem⟩ := (mem_unionAll aggregate sets m).mp hm
  rw [h z hz] at hmem
  exact Std.ExtTreeMap.not_mem_empty hmem

/-- A difference that starts from the empty sorted set. -/
theorem diffAll_eq_empty (rest : List (Table Double)) : diffAll (∅ :: rest) = ∅ := by
  refine Std.ExtTreeMap.eq_empty_iff_forall_not_mem.mpr fun m hm => ?_
  exact Std.ExtTreeMap.not_mem_empty ((mem_diffAll ∅ rest m).mp hm).1

end Table

namespace Keyspace

variable {ks : Keyspace} {key dest : String} {keys empty : List String}

/-- A missing key reads as the empty set. -/
theorem setAt_of_none (h : ks.data? key = none) : ks.setAt key = ∅ := by
  simp [setAt, set?, h]

/-- A missing key reads as the empty sorted set. -/
theorem scoredAt_of_none (h : ks.data? key = none) : ks.scoredAt key = ∅ := by
  simp [scoredAt, scored, h]

theorem weightedAt_of_none {pair : String × Double} (h : ks.data? pair.1 = none) :
    ks.weightedAt pair = ∅ := by
  rw [weightedAt, scoredAt_of_none h]
  rfl

/-- Sets are combined as they are read, or one of them cannot be read and nothing changes. -/
theorem run_storeSets_cases (ks : Keyspace) (dest : String) (keys : List String)
    (f : List Members → Members) :
    (∃ e, ks.run (Step.storeSets dest keys f) = (.error e, ks)) ∨
      ∃ n, ks.run (Step.storeSets dest keys f) =
        (.ok n, ks.replace dest (.set (f (keys.map ks.setAt)))) := by
  unfold Step.storeSets
  cases hsets : ks.sets keys with
  | error e => exact .inl ⟨e, run_bind_error (by rw [run_read, hsets]) _⟩
  | ok sets =>
    have hread : sets = keys.map ks.setAt := by
      refine eq_map_of_mapM_ok hsets fun key s hs => ?_
      obtain ⟨s', hs', rfl⟩ := map_ok_iff.mp hs
      rw [setAt, hs']
    rw [run_bind_ok (by rw [run_read, hsets]), hread]
    exact .inr ⟨_, run_store ..⟩

/-- Every key gets a weight, or there are not as many weights as keys. -/
theorem run_pairWeights_cases (ks : Keyspace) (keys : List String)
    (weights : Option (List Double)) :
    (∃ e, ks.run (Step.pairWeights keys weights) = (.error e, ks)) ∨
      ∃ pairs : List (String × Double),
        ks.run (Step.pairWeights keys weights) = (.ok pairs, ks) ∧ pairs.map Prod.fst = keys := by
  unfold Step.pairWeights
  cases weights with
  | none =>
    refine .inr ⟨_, rfl, ?_⟩
    rw [List.map_map]
    exact List.map_id keys
  | some weights =>
    simp only
    split
    next hlength =>
      exact .inr ⟨_, rfl, List.map_fst_zip (Nat.le_of_eq hlength.symm)⟩
    next => exact .inl ⟨_, rfl⟩

/-- Sorted sets are combined as they are read, or one of them cannot be read and nothing changes. -/
theorem run_storeSorted_cases (ks : Keyspace) (dest : String) (keys : List String)
    (weights : Option (List Double)) (f : List (Table Double) → Table Double) :
    (∃ e, ks.run (Step.storeSorted dest keys weights f) = (.error e, ks)) ∨
      ∃ n, ∃ pairs : List (String × Double), pairs.map Prod.fst = keys ∧
        ks.run (Step.storeSorted dest keys weights f) =
          (.ok n, ks.replace dest (.sortedSet (f (pairs.map ks.weightedAt)))) := by
  unfold Step.storeSorted
  obtain ⟨e, hpairs⟩ | ⟨pairs, hpairs, hkeys⟩ := run_pairWeights_cases ks keys weights
  · exact .inl ⟨e, run_bind_error hpairs _⟩
  rw [run_bind_ok hpairs]
  cases hweighted : ks.weighted pairs with
  | error e => exact .inl ⟨e, run_bind_error (by rw [run_read, hweighted]) _⟩
  | ok sets =>
    have hread : sets = pairs.map ks.weightedAt := by
      refine eq_map_of_mapM_ok hweighted fun pair z hz => ?_
      obtain ⟨z', hz', rfl⟩ := map_ok_iff.mp hz
      rw [weightedAt, scoredAt, hz']
    rw [run_bind_ok (by rw [run_read, hweighted]), hread]
    exact .inr ⟨_, pairs, hkeys, run_store ..⟩

/-- Members of the first sorted set are stored, or one of the sets cannot be read and nothing
changes. -/
theorem run_storeSortedDiff_cases (ks : Keyspace) (dest : String) (keys : List String) :
    (∃ e, ks.run (Step.storeSortedDiff dest keys) = (.error e, ks)) ∨
      ∃ n, ks.run (Step.storeSortedDiff dest keys) =
        (.ok n, ks.replace dest (.sortedSet (Table.diffAll (keys.map ks.scoredAt)))) := by
  unfold Step.storeSortedDiff
  cases hscored : keys.mapM ks.scored with
  | error e => exact .inl ⟨e, run_bind_error (by rw [run_read, hscored]) _⟩
  | ok sets =>
    have hread : sets = keys.map ks.scoredAt := by
      refine eq_map_of_mapM_ok hscored fun key z hz => ?_
      rw [scoredAt, hz]
    rw [run_bind_ok (by rw [run_read, hscored]), hread]
    exact .inr ⟨_, run_store ..⟩

/-- Owners are stored, with scores if they are to be looked up, or they cannot be read and nothing
changes. -/
theorem run_resolveUnique_cases (ks : Keyspace) (hash : String) (values : List String)
    (dest : String) (ids : Option String) :
    (∃ e, ks.run (Step.resolveUnique hash values dest ids) = (.error e, ks)) ∨
      ∃ n d, d.kind = (if ids.isSome then .sortedSet else .set) ∧
        ks.run (Step.resolveUnique hash values dest ids) = (.ok n, ks.replace dest d) := by
  unfold Step.resolveUnique
  cases howners : ks.owners hash values with
  | error e => exact .inl ⟨e, run_bind_error (by rw [run_read, howners]) _⟩
  | ok found =>
    rw [run_bind_ok (by rw [run_read, howners])]
    cases ids with
    | none => exact .inr ⟨_, _, rfl, run_store ..⟩
    | some ids =>
      cases hids : ks.sortedSet? ids with
      | error e => exact .inl ⟨e, run_bind_error (by rw [run_read, hids]) _⟩
      | ok z =>
        simp only
        rw [run_bind_ok (by rw [run_read, hids])]
        exact .inr ⟨_, _, rfl, run_store ..⟩

/-- A command that collects members fails and changes nothing, or it replaces what its destination
holds; given keys that starve it, by nothing. -/
def Collects (ks : Keyspace) (c : Command) (dest : String) : Prop :=
  (∃ reply, reply.isError = true ∧ ks.execute c = (reply, ks)) ∨
    ∃ reply d, reply.isError = false ∧
      (∀ empty, c.starves empty = true → (∀ key ∈ empty, ks.data? key = none) →
        d.isEmpty = true) ∧
      ks.execute c = (reply, ks.replace dest d)

namespace Collects

variable {c : Command}

/-- A command that counts what one step stores. -/
theorem of_step {op : Step Nat} (hc : Step.ofCommand c = Reply.count <$> op)
    (h : (∃ e, ks.run op = (.error e, ks)) ∨ ∃ n d,
      (∀ empty, c.starves empty = true → (∀ key ∈ empty, ks.data? key = none) →
        d.isEmpty = true) ∧
      ks.run op = (.ok n, ks.replace dest d)) : ks.Collects c dest := by
  unfold Collects
  rw [execute_eq, hc]
  obtain ⟨e, hrun⟩ | ⟨n, d, hd, hrun⟩ := h
  · rw [run_map_error hrun]
    exact .inl ⟨_, rfl, rfl⟩
  · rw [run_map_ok hrun]
    exact .inr ⟨_, d, rfl, hd, rfl⟩

/-- A command that stores what an operation makes of sets. -/
theorem of_sets {f : List Members → Members}
    (hc : Step.ofCommand c = Reply.count <$> Step.storeSets dest keys f)
    (hf : ∀ empty, c.starves empty = true → (∀ key ∈ empty, ks.setAt key = ∅) →
      f (keys.map ks.setAt) = ∅) : ks.Collects c dest := by
  refine of_step hc ((run_storeSets_cases ks dest keys f).imp_right ?_)
  rintro ⟨n, hrun⟩
  refine ⟨n, _, fun empty hstarves hempty => ?_, hrun⟩
  rw [hf empty hstarves fun key hkey => setAt_of_none (hempty key hkey)]
  rfl

/-- A command that stores what an operation makes of weighted sorted sets. -/
theorem of_sorted {weights : Option (List Double)} {f : List (Table Double) → Table Double}
    (hc : Step.ofCommand c = Reply.count <$> Step.storeSorted dest keys weights f)
    (hf : ∀ empty (pairs : List (String × Double)), pairs.map Prod.fst = keys →
      c.starves empty = true → (∀ pair, pair.1 ∈ empty → ks.weightedAt pair = ∅) →
      f (pairs.map ks.weightedAt) = ∅) : ks.Collects c dest := by
  refine of_step hc ((run_storeSorted_cases ks dest keys weights f).imp_right ?_)
  rintro ⟨n, pairs, hpairs, hrun⟩
  refine ⟨n, _, fun empty hstarves hempty => ?_, hrun⟩
  rw [hf empty pairs hpairs hstarves fun pair hpair => weightedAt_of_none (hempty _ hpair)]
  rfl

end Collects

/-- Every command with a destination collects members there. -/
theorem collects_of_destination {c : Command} (hc : c.destination? = some dest) (ks : Keyspace) :
    ks.Collects c dest := by
  cases c with
  | sinterstore dest' keys =>
    cases hc
    refine .of_sets rfl fun empty hstarves hempty => Members.interAll_eq_empty ?_
    obtain ⟨key, hkey, hmem⟩ := List.any_eq_true.mp hstarves
    exact List.mem_map.mpr ⟨key, hkey, hempty key (List.contains_iff_mem.mp hmem)⟩
  | sunionstore dest' keys =>
    cases hc
    refine .of_sets rfl fun empty hstarves hempty => Members.unionAll_eq_empty ?_
    have hall := List.all_eq_true.mp hstarves
    rw [List.forall_mem_map]
    exact fun key hkey => hempty key (List.contains_iff_mem.mp (hall key hkey))
  | sdiffstore dest' keys =>
    cases hc
    refine .of_sets rfl fun empty hstarves hempty => ?_
    cases keys with
    | nil => cases hstarves
    | cons key rest =>
      rw [List.map_cons, hempty key (List.contains_iff_mem.mp hstarves), Members.diffAll_eq_empty]
  | zinterstore dest' keys weights aggregate =>
    cases hc
    refine .of_sorted rfl fun empty pairs hpairs hstarves hempty => Table.interAll_eq_empty ?_
    obtain ⟨key, hkey, hmem⟩ := List.any_eq_true.mp hstarves
    rw [← hpairs] at hkey
    obtain ⟨pair, hpair, rfl⟩ := List.mem_map.mp hkey
    exact List.mem_map.mpr ⟨pair, hpair, hempty pair (List.contains_iff_mem.mp hmem)⟩
  | zunionstore dest' keys weights aggregate =>
    cases hc
    refine .of_sorted rfl fun empty pairs hpairs hstarves hempty => Table.unionAll_eq_empty ?_
    have hall := List.all_eq_true.mp hstarves
    rw [← hpairs, List.forall_mem_map] at hall
    rw [List.forall_mem_map]
    exact fun pair hpair => hempty pair (List.contains_iff_mem.mp (hall pair hpair))
  | zdiffstore dest' keys =>
    cases hc
    refine .of_step rfl ((run_storeSortedDiff_cases ks dest keys).imp_right ?_)
    rintro ⟨n, hrun⟩
    refine ⟨n, _, fun empty hstarves hempty => ?_, hrun⟩
    cases keys with
    | nil => cases hstarves
    | cons key rest =>
      rw [List.map_cons, scoredAt_of_none (hempty key (List.contains_iff_mem.mp hstarves)),
        Table.diffAll_eq_empty]
      rfl
  | eval script =>
    cases script with
    | resolveUnique hash values dest' ids =>
      cases hc
      refine .of_step rfl ((run_resolveUnique_cases ks hash values dest ids).imp_right ?_)
      rintro ⟨n, d, -, hrun⟩
      -- the owners of values are looked up in a hash, which no key of a collection starves
      exact ⟨n, d, fun empty hstarves => (nomatch hstarves), hrun⟩
    | commit b => cases hc
  | _ => cases hc

/-- A command that collects members changes nothing but its destination. -/
theorem data?_execute_of_ne {c : Command} (hc : c.destination? = some dest) (ks : Keyspace)
    (hkey : key ≠ dest) : (ks.execute c).2.data? key = ks.data? key := by
  obtain ⟨reply, -, hrun⟩ | ⟨reply, d, -, -, hrun⟩ := collects_of_destination hc ks
  · rw [hrun]
  · rw [hrun, (puts_replace ks dest d).data?_eq, if_neg hkey]

/-- Behind a command that collects members, the keys that it starves are empty like those that
starve it, if its destination was so before or the command does not fail. -/
theorem data?_of_mem_starve {c : Command} (hc : c.destination? = some dest)
    (hdest : ks.data? dest = none ∨ (ks.execute c).1.isError = false)
    (hempty : ∀ key ∈ empty, key ≠ dest ∧ ks.data? key = none) :
    ∀ key ∈ starve empty (c, (ks.execute c).1),
      (key ∈ empty ∨ key = dest) ∧ (ks.execute c).2.data? key = none := by
  intro key hmem
  have hsame : ∀ key ∈ empty, (ks.execute c).2.data? key = none := fun key hkey =>
    (data?_execute_of_ne hc ks (hempty key hkey).1).trans (hempty key hkey).2
  unfold starve at hmem
  split at hmem
  next hreason =>
    rw [hc, Option.toList_some, List.singleton_append, List.mem_cons] at hmem
    rcases hmem with rfl | hmem
    · refine ⟨.inr rfl, ?_⟩
      obtain ⟨reply, herror, hrun⟩ | ⟨reply, d, herror, hnothing, hrun⟩ :=
        collects_of_destination hc ks
      -- a command that fails leaves its destination as it was
      · rw [hrun] at hdest ⊢
        simpa [herror] using hdest
      · rw [hrun] at hreason ⊢
        have hd : d.isEmpty = true :=
          hnothing empty (by simpa [herror] using hreason) fun key hkey => (hempty key hkey).2
        rw [(puts_replace ks key d).data?_eq, if_pos rfl, if_pos hd]
    · exact ⟨.inl hmem, hsame key hmem⟩
  next => exact ⟨.inl hmem, hsame key hmem⟩

/-- A time of expiry is set, whether or not there is such a key. -/
theorem execute_expire (ks : Keyspace) (key : String) (seconds : Nat) :
    ks.execute (.expire key seconds) =
      (.flag (ks.entries.contains key), ks.expire key (ks.now + 1000 * seconds)) := rfl

/-- The commands of two lists with their replies. -/
theorem zip_executeAll_append (ks : Keyspace) (cs more : List Command) :
    (cs ++ more).zip (ks.executeAll (cs ++ more)).1 =
      cs.zip (ks.executeAll cs).1 ++ more.zip ((ks.executeAll cs).2.executeAll more).1 := by
  rw [executeAll_append, List.zip_append (length_executeAll ks cs).symm]

end Keyspace

end KeyedRecords
