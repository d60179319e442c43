import KeyedRecords.Proofs.Result
import KeyedRecords.Proofs.Store.Listing

/-!
# Members of collections

The members of a collection can be listed, sorted and asked for one by one. A sort puts them in
another order and leaves none out (`sorted_perm`), and only a set or a sorted set can be asked
whether it has a member (`fits_of_execute_sismember`, `fits_of_execute_zscore`).
-/

namespace KeyedRecords

namespace Keyspace

variable {ks : Keyspace} {key m : String} {kind : DataKind} {items members : List String}
  {pattern? : Option String} {descending alpha : Bool}

/-- Other texts with the same items list the same members. -/
theorem Listed.of_perm (h : ks.Listed key members) (hperm : items.Perm members) :
    ks.Listed key items :=
  ⟨hperm.nodup_iff.mpr h.nodup, fun m => hperm.mem_iff.trans (h.mem_iff m)⟩

/-- The members of a collection can be sorted. -/
theorem Fits.exists_members (h : ks.Fits key kind) (hkind : kind = .set ∨ kind = .sortedSet) :
    ∃ members, ks.members key = .ok members ∧ ks.Listed key members := by
  unfold members
  cases hd : ks.data? key with
  | none => exact ⟨[], rfl, .nil, fun m => by simp [Has, score?, hd]⟩
  | some d =>
    obtain rfl := h d hd
    cases d with
    | set s =>
      refine ⟨_, rfl, s.nodup_toList, fun m => ?_⟩
      simp [Has, score?, hd, Data.score?]
    | sortedSet z =>
      refine ⟨_, rfl, nodup_byScore z, fun m => ?_⟩
      rw [mem_byScore, Std.ExtTreeMap.mem_iff_isSome_getElem?, Has, score?, hd]
      rfl
    | _ => exact absurd hkind (by simp [Data.kind])

/-- The members of a set in their order. -/
theorem members_of_set? {s : Option Members} (h : ks.set? key = .ok s) :
    ks.members key = .ok ((s.map (·.toList)).getD []) := by
  unfold set? at h
  unfold members
  cases hd : ks.data? key with
  | none =>
    rw [hd] at h
    cases h
    rfl
  | some d =>
    rw [hd] at h
    cases d <;> cases h
    rfl

/-- The members of a sorted set in their order. -/
theorem members_of_sortedSet? {z : Option (Table Double)} (h : ks.sortedSet? key = .ok z) :
    ks.members key = .ok ((byScore (z.getD ∅)).map Prod.fst) := by
  unfold sortedSet? at h
  unfold members
  cases hd : ks.data? key with
  | none =>
    rw [hd] at h
    cases h
    have hempty : byScore ∅ = [] := List.perm_nil.mp (List.mergeSort_perm _ _)
    simp [hempty]
  | some d =>
    rw [hd] at h
    cases d <;> cases h
    rfl

/-- Members that are sorted beside their weights are the same members. -/
theorem perm_keyed {α : Type} (le : α × String → α × String → Bool) (w : String → α)
    (members : List String) :
    (((members.map fun m => (w m, m)).mergeSort le).map Prod.snd).Perm members := by
  refine ((List.mergeSort_perm _ le).map Prod.snd).trans (.of_eq ?_)
  rw [List.map_map]
  exact List.map_id' _

/-- A sort by weights puts members in another order. -/
theorem sortMembers_perm (h : ks.sortMembers pattern? alpha members = .ok items) :
    items.Perm members := by
  unfold sortMembers at h
  cases alpha with
  | true =>
    cases h
    exact perm_keyed textLE _ members
  | false =>
    obtain ⟨keyed, hkeyed, h⟩ := bind_ok_iff.mp h
    cases h
    -- every member stands beside its weight
    have hmap : keyed = members.map fun m =>
        ((numericWeight (ks.weight pattern? m)).toOption.getD .zero, m) := by
      refine eq_map_of_mapM_ok hkeyed fun m b hb => ?_
      obtain ⟨x, hx, hb⟩ := bind_ok_iff.mp hb
      cases hb
      rw [hx]
      rfl
    rw [hmap]
    exact perm_keyed numberLE _ members

/-- What a sort lists are the members of its key. -/
theorem sorted_perm (h : ks.sorted key pattern? descending alpha = .ok items)
    (hmembers : ks.members key = .ok members) : items.Perm members := by
  obtain ⟨_, hread, h⟩ := bind_ok_iff.mp h
  cases hmembers.symm.trans hread
  obtain ⟨sorted, hsort, h⟩ := bind_ok_iff.mp h
  cases h
  have hperm := sortMembers_perm hsort
  split
  · exact (List.reverse_perm sorted).trans hperm
  · exact hperm

/-- A sort that stores its list and does not fail puts the members there. -/
theorem exists_sorted {dest : String}
    (hok : (ks.execute (.sort key pattern? descending alpha (some dest))).1.isError = false) :
    ∃ items, ks.sorted key pattern? descending alpha = .ok items ∧
      (ks.execute (.sort key pattern? descending alpha (some dest))).2 =
        ks.replace dest (.list items) := by
  have hcommand : Step.ofCommand (.sort key pattern? descending alpha (some dest)) =
      Step.read (·.sorted key pattern? descending alpha) >>= fun items =>
        Reply.count <$> Step.store dest (.list items) items.length := rfl
  rw [execute_eq, hcommand] at hok ⊢
  cases hsorted : ks.sorted key pattern? descending alpha with
  | error e =>
    rw [run_bind_error (by rw [run_read, hsorted])] at hok
    cases hok
  | ok items =>
    rw [run_bind_ok (by rw [run_read, hsorted]), run_map_ok (run_store ..)]
    exact ⟨items, rfl, rfl⟩

/-- A list that has been stored is read as it is. -/
theorem list?_replace (ks : Keyspace) (dest : String) (items : List String) :
    ∃ l, (ks.replace dest (.list items)).list? dest = .ok l ∧ l.getD [] = items := by
  unfold list?
  rw [(puts_replace ks dest (.list items)).data]
  cases items with
  | nil => exact ⟨none, rfl, rfl⟩
  | cons item rest => exact ⟨some (item :: rest), rfl, rfl⟩

section Membership

theorem execute_sismember {s : Option Members} (h : ks.set? key = .ok s) (m : String) :
    ks.execute (.sismember key m) = (.flag (s.any (·.contains m)), ks) :=
  execute_read (c := .sismember key m) (·.set? key) rfl h

/-- It is answered whether a set has a member. -/
theorem Fits.execute_sismember (h : ks.Fits key .set) (m : String) :
    ks.execute (.sismember key m) = (.flag (ks.score? key m).isSome, ks) := by
  obtain ⟨s, hs, hscore⟩ := h.set?
  rw [Keyspace.execute_sismember hs, hscore]
  cases s with
  | none => simp
  | some s =>
    refine congrArg (fun b => (Reply.flag b, ks)) (Bool.eq_iff_iff.mpr ?_)
    by_cases hm : m ∈ s <;> simp [hm]

/-- The score of a member of a sorted set is answered, if there is one. -/
theorem Fits.execute_zscore (h : ks.Fits key .sortedSet) (m : String) :
    ks.execute (.zscore key m) = ((ks.score? key m).elim .nil .float, ks) := by
  obtain ⟨z, hz, hscore⟩ := h.sortedSet?
  have hfound : z.bind (fun z => z[m]?) = ks.score? key m := by
    rw [hscore]
    cases z <;> simp
  refine execute_ok ?_
  unfold Step.ofCommand
  rw [run_bind_ok (by rw [run_read, hz]), hfound]
  cases ks.score? key m <;> rfl

/-- Whether a key has a member is answered for keys that hold sets, and for no others. -/
theorem fits_of_execute_sismember (h : (ks.execute (.sismember key m)).1.isError = false) :
    ks.Fits key .set := by
  intro d hd
  cases hs : ks.set? key with
  | error e =>
    rw [execute_eq, Step.ofCommand, run_bind_error (by rw [run_read, hs])] at h
    cases h
  | ok s =>
    unfold set? at hs
    rw [hd] at hs
    cases d <;> first | rfl | cases hs

/-- Scores are answered for keys that hold sorted sets, and for no others. -/
theorem fits_of_execute_zscore (h : (ks.execute (.zscore key m)).1.isError = false) :
    ks.Fits key .sortedSet := by
  intro d hd
  cases hz : ks.sortedSet? key with
  | error e =>
    rw [execute_eq, Step.ofCommand, run_bind_error (by rw [run_read, hz])] at h
    cases h
  | ok z =>
    unfold sortedSet? at hz
    rw [hd] at hz
    cases d <;> first | rfl | cases hz

end Membership

end Keyspace

end KeyedRecords
