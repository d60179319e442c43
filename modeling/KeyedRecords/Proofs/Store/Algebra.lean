import KeyedRecords.Proofs.Result
import KeyedRecords.Proofs.Store.Steps
import KeyedRecords.Store.Algebra

/-!
# What set algebra computes

The members of unions, intersections and differences, for sets and for sorted sets. Scores decide
about the order of members and never about membership. A step that stores a result replaces its
destination and cannot fail on keys that hold collections.
-/

namespace KeyedRecords

namespace Members

/-- The members of a union. -/
theorem mem_unionAll (sets : List Members) (m : String) :
    m ∈ unionAll sets ↔ ∃ s ∈ sets, m ∈ s := by
  -- the union so far is the accumulator of the fold
  suffices h : ∀ all : Members,
      m ∈ sets.foldl (fun all s => Members.insertAll all s.toList) all ↔
        m ∈ all ∨ ∃ s ∈ sets, m ∈ s by
    simpa [unionAll] using h ∅
  induction sets with
  | nil => simp
  | cons s rest ih =>
    intro all
    rw [List.foldl_cons, ih, mem_insertAll, Std.ExtTreeSet.mem_toList]
    simp only [List.mem_cons, exists_eq_or_imp]
    rw [or_comm (a := m ∈ s), or_assoc]

theorem mem_interAll {sets : List Members} (hne : sets ≠ []) (m : String) :
    m ∈ interAll sets ↔ ∀ s ∈ sets, m ∈ s := by
  cases sets with
  | nil => exact absurd rfl hne
  | cons s rest =>
    rw [interAll, Std.ExtTreeSet.mem_filter, List.forall_mem_cons]
    simp only [Std.ExtTreeSet.get_eq, List.all_eq_true, Std.ExtTreeSet.contains_iff_mem,
      exists_prop]

theorem mem_diffAll (s : Members) (rest : List Members) (m : String) :
    m ∈ diffAll (s :: rest) ↔ m ∈ s ∧ ∀ r ∈ rest, m ∉ r := by
  rw [diffAll, Std.ExtTreeSet.mem_filter]
  simp only [Std.ExtTreeSet.get_eq, Bool.not_eq_true', List.any_eq_false,
    Std.ExtTreeSet.contains_iff_mem, exists_prop]

end Members

namespace Table

/-- The names in a table with more entries. -/
theorem mem_insertAll {β : Type} (t : Table β) (entries : List (String × β)) (a : String) :
    a ∈ t.insertAll entries ↔ a ∈ entries.map Prod.fst ∨ a ∈ t := by
  induction entries generalizing t with
  | nil => simp [Table.insertAll]
  | cons e rest ih =>
    have step : Table.insertAll t (e :: rest) = Table.insertAll (t.insert e.1 e.2) rest := rfl
    rw [step, ih, Std.ExtTreeMap.mem_insert, Std.compare_eq_iff_eq, List.map_cons, List.mem_cons]
    grind

/-- One more member of a union is a member, and all others still are. -/
theorem mem_addCombined (aggregate : Aggregate) (z : Table Double) (m : String) (score : Double)
    (a : String) : a ∈ addCombined aggregate z m score ↔ a = m ∨ a ∈ z := by
  unfold addCombined
  split <;> rw [Std.ExtTreeMap.mem_insert, Std.compare_eq_iff_eq, eq_comm]

/-- A member of a union with a list of members. -/
theorem mem_foldl_addCombined (aggregate : Aggregate) (entries : List (String × Double))
    (z : Table Double) (a : String) :
    a ∈ entries.foldl (fun all e => addCombined aggregate all e.1 e.2) z ↔
      a ∈ z ∨ a ∈ entries.map Prod.fst := by
  induction entries generalizing z with
  | nil => simp
  | cons e rest ih =>
    rw [List.foldl_cons, ih, mem_addCombined, List.map_cons, List.mem_cons]
    grind

/-- The members of a union. -/
theorem mem_unionAll (aggregate : Aggregate) (sets : List (Table Double)) (m : String) :
    m ∈ unionAll aggregate sets ↔ ∃ z ∈ sets, m ∈ z := by
  -- the union so far is the accumulator of the outer fold
  suffices h : ∀ all : Table Double,
      m ∈ sets.foldl
          (fun all z => z.toList.foldl (fun all e => addCombined aggregate all e.1 e.2) all) all ↔
        m ∈ all ∨ ∃ z ∈ sets, m ∈ z by
    simpa [unionAll] using h ∅
  induction sets with
  | nil => simp
  | cons z rest ih =>
    intro all
    rw [List.foldl_cons, ih, mem_foldl_addCombined, Std.ExtTreeMap.map_fst_toList_eq_keys,
      Std.ExtTreeMap.mem_keys]
    simp only [List.mem_cons, exists_eq_or_imp]
    rw [or_assoc]

/-- Scores are combined for a member of all sorted sets. -/
theorem isSome_combineAll (aggregate : Aggregate) (m : String) (score : Double)
    (rest : List (Table Double)) :
    (combineAll aggregate m score rest).isSome = true ↔ ∀ z ∈ rest, m ∈ z := by
  induction rest generalizing score with
  | nil => simp [combineAll]
  | cons z rest ih =>
    rw [List.forall_mem_cons, Std.ExtTreeMap.mem_iff_isSome_getElem?, combineAll]
    cases z[m]? with
    | none => simp
    | some other => simpa using ih _

theorem mem_interAll (aggregate : Aggregate) {sets : List (Table Double)} (hne : sets ≠ [])
    (m : String) : m ∈ interAll aggregate sets ↔ ∀ z ∈ sets, m ∈ z := by
  cases sets with
  | nil => exact absurd rfl hne
  | cons z rest =>
    rw [interAll, Std.ExtTreeMap.mem_filterMap, List.forall_mem_cons]
    simp only [Std.ExtTreeMap.getKey_eq, isSome_combineAll, exists_prop]

theorem mem_diffAll (z : Table Double) (rest : List (Table Double)) (m : String) :
    m ∈ diffAll (z :: rest) ↔ m ∈ z ∧ ∀ r ∈ rest, m ∉ r := by
  rw [diffAll, Std.ExtTreeMap.mem_filter]
  simp only [Std.ExtTreeMap.getKey_eq, Bool.not_eq_true', List.any_eq_false,
    Std.ExtTreeMap.contains_iff_mem, exists_prop]

end Table

namespace Keyspace

variable {ks : Keyspace} {key dest : String} {keys : List String}

/-- The members of a sorted set, in order. -/
theorem mem_byScore (z : Table Double) (m : String) : m ∈ (byScore z).map Prod.fst ↔ m ∈ z := by
  have hperm := (List.mergeSort_perm z.toList scoredLE).map Prod.fst
  rw [byScore, hperm.mem_iff, Std.ExtTreeMap.map_fst_toList_eq_keys, Std.ExtTreeMap.mem_keys]

/-- The set of a key. -/
def setAt (ks : Keyspace) (key : String) : Members :=
  match ks.set? key with
  | .ok s => s.getD ∅
  | .error _ => ∅

/-- The members of the collection of a key, with scores. -/
def scoredAt (ks : Keyspace) (key : String) : Table Double :=
  match ks.scored key with
  | .ok z => z
  | .error _ => ∅

/-- The members of the collection of a key, with weighted scores. -/
def weightedAt (ks : Keyspace) (pair : String × Double) : Table Double :=
  (ks.scoredAt pair.1).map fun _ score => score.mul pair.2

/-- A key holds nothing but a collection that can be read with scores. -/
def FitsScored (ks : Keyspace) (key : String) : Prop := ks.Fits key .set ∨ ks.Fits key .sortedSet

/-- The members of a set. -/
theorem Fits.mem_setAt (h : ks.Fits key .set) (m : String) : m ∈ ks.setAt key ↔ ks.Has key m := by
  obtain ⟨s, hs, hscore⟩ := h.set?
  unfold setAt Has
  rw [hs, hscore]
  by_cases hm : m ∈ s.getD ∅ <;> simp [hm]

/-- What lies under a key that holds nothing but a collection. -/
theorem FitsScored.cases (h : ks.FitsScored key) :
    ks.data? key = none ∨ (∃ s, ks.data? key = some (.set s)) ∨
      ∃ z, ks.data? key = some (.sortedSet z) := by
  cases hd : ks.data? key with
  | none => exact .inl rfl
  | some d =>
    have hkind : d.kind = .set ∨ d.kind = .sortedSet := h.imp (· d hd) (· d hd)
    cases d with
    | set s => exact .inr (.inl ⟨s, rfl⟩)
    | sortedSet z => exact .inr (.inr ⟨z, rfl⟩)
    | _ => simp [Data.kind] at hkind

/-- The members of a collection can be read, whichever kind it is of. -/
theorem FitsScored.exists_members (h : ks.FitsScored key) :
    ∃ found, ks.members key = .ok found ∧ ∀ m, m ∈ found ↔ ks.Has key m := by
  unfold members Has score?
  obtain hd | ⟨s, hd⟩ | ⟨z, hd⟩ := h.cases
  · rw [hd]
    exact ⟨[], rfl, by simp⟩
  · rw [hd]
    refine ⟨s.toList, rfl, fun m => ?_⟩
    rw [Option.bind_some, Data.score?, Std.ExtTreeSet.mem_toList]
    by_cases hm : m ∈ s <;> simp [hm]
  · rw [hd]
    refine ⟨(byScore z).map Prod.fst, rfl, fun m => ?_⟩
    rw [Option.bind_some, Data.score?, mem_byScore, Std.ExtTreeMap.mem_iff_isSome_getElem?]

/-- Sets can be read. -/
theorem sets_eq (h : ∀ key ∈ keys, ks.Fits key .set) : ks.sets keys = .ok (keys.map ks.setAt) := by
  refine mapM_ok fun key hkey => ?_
  obtain ⟨s, hs, -⟩ := (h key hkey).set?
  unfold setAt
  rw [hs]
  rfl

/-- A collection can be read with scores. -/
theorem FitsScored.scored_eq (h : ks.FitsScored key) : ks.scored key = .ok (ks.scoredAt key) := by
  have hok : ∃ z, ks.scored key = .ok z := by
    unfold scored
    obtain hd | ⟨s, hd⟩ | ⟨z, hd⟩ := h.cases
    all_goals
      rw [hd]
      exact ⟨_, rfl⟩
  obtain ⟨z, hz⟩ := hok
  unfold scoredAt
  rw [hz]

/-- The members of a collection that is read with scores. -/
theorem FitsScored.mem_scoredAt (h : ks.FitsScored key) (m : String) :
    m ∈ ks.scoredAt key ↔ ks.Has key m := by
  unfold scoredAt scored Has score?
  obtain hd | ⟨s, hd⟩ | ⟨z, hd⟩ := h.cases
  · simp [hd]
  · rw [hd, Option.bind_some, Data.score?]
    dsimp only
    rw [Table.mem_insertAll]
    by_cases hm : m ∈ s <;> simp [hm]
  · rw [hd, Option.bind_some, Data.score?, Std.ExtTreeMap.mem_iff_isSome_getElem?]

/-- Weights do not change what is a member. -/
theorem FitsScored.mem_weightedAt {pair : String × Double} (h : ks.FitsScored pair.1) (m : String) :
    m ∈ ks.weightedAt pair ↔ ks.Has pair.1 m := by
  rw [weightedAt, Std.ExtTreeMap.mem_map, h.mem_scoredAt]

/-- The owners of values that are known. -/
theorem owners_eq {hash : String} (h : ks.Fits hash .hash) (values : List String) :
    ks.owners hash values = .ok (values.filterMap (ks.field? hash)) := by
  obtain ⟨t, ht, -, hfield⟩ := h.hash?
  unfold owners
  rw [ht]
  -- a missing hash knows the owner of no value
  have hvalues : values.filterMap (ks.field? hash) = values.filterMap ((t.getD ∅)[·]?) := by
    congr 1
    funext v
    exact hfield v
  rw [hvalues]
  cases t with
  | none => simp [bind, Except.bind, pure, Except.pure]
  | some t => rfl

theorem run_store (ks : Keyspace) (dest : String) (d : Data) (size : Nat) :
    ks.run (Step.store dest d size) = (.ok size, ks.replace dest d) := rfl

/-- The sets of keys are combined. -/
theorem run_storeSets (h : ∀ key ∈ keys, ks.Fits key .set) (dest : String)
    (f : List Members → Members) :
    ∃ n, ks.run (Step.storeSets dest keys f) =
      (.ok n, ks.replace dest (.set (f (keys.map ks.setAt)))) := by
  unfold Step.storeSets
  rw [run_bind_ok (by rw [run_read, sets_eq h])]
  exact ⟨_, run_store ..⟩

/-- The sorted sets of keys are combined, each with its weight. -/
theorem run_storeSorted {pairs : List (String × Double)} {weights : Option (List Double)}
    (hpairs : ks.run (Step.pairWeights keys weights) = (.ok pairs, ks))
    (h : ∀ p ∈ pairs, ks.FitsScored p.1) (dest : String)
    (f : List (Table Double) → Table Double) :
    ∃ n, ks.run (Step.storeSorted dest keys weights f) =
      (.ok n, ks.replace dest (.sortedSet (f (pairs.map ks.weightedAt)))) := by
  have hweighted : ks.weighted pairs = .ok (pairs.map ks.weightedAt) := by
    refine mapM_ok fun p hp => ?_
    -- one collection is read, and its scores are weighted
    show (do return (← ks.scored p.1).map fun _ (score : Double) => score.mul p.2) = _
    rw [(h p hp).scored_eq]
    rfl
  unfold Step.storeSorted
  rw [run_bind_ok hpairs, run_bind_ok (by rw [run_read, hweighted])]
  exact ⟨_, run_store ..⟩

/-- The members of the first sorted set that are in no other are stored. -/
theorem run_storeSortedDiff (h : ∀ key ∈ keys, ks.FitsScored key) (dest : String) :
    ∃ n, ks.run (Step.storeSortedDiff dest keys) =
      (.ok n, ks.replace dest (.sortedSet (Table.diffAll (keys.map ks.scoredAt)))) := by
  have hscored : keys.mapM ks.scored = .ok (keys.map ks.scoredAt) :=
    mapM_ok fun key hkey => (h key hkey).scored_eq
  unfold Step.storeSortedDiff
  rw [run_bind_ok (by rw [run_read, hscored])]
  exact ⟨_, run_store ..⟩

/-- The owners of values are stored. -/
theorem run_resolveUnique_set {hash : String} (h : ks.Fits hash .hash) (values : List String)
    (dest : String) :
    ∃ n, ks.run (Step.resolveUnique hash values dest none) =
      (.ok n, ks.replace dest
        (.set (Members.insertAll ∅ (values.filterMap (ks.field? hash))))) := by
  unfold Step.resolveUnique
  rw [run_bind_ok (by rw [run_read, owners_eq h])]
  exact ⟨_, run_store ..⟩

/-- The owners of values that belong to a sorted set are stored, with their scores there. -/
theorem run_resolveUnique_sorted {hash ids : String} (h : ks.Fits hash .hash)
    (hids : ks.Fits ids .sortedSet) (values : List String) (dest : String) :
    ∃ n, ks.run (Step.resolveUnique hash values dest (some ids)) =
      (.ok n, ks.replace dest (.sortedSet (Table.insertAll ∅
        ((values.filterMap (ks.field? hash)).filterMap fun id =>
          (ks.score? ids id).map fun s => (id, s))))) := by
  obtain ⟨z, hz, hscore⟩ := hids.sortedSet?
  unfold Step.resolveUnique
  rw [run_bind_ok (by rw [run_read, owners_eq h])]
  simp only [hscore]
  rw [run_bind_ok (by rw [run_read, hz])]
  exact ⟨_, run_store ..⟩

end Keyspace

end KeyedRecords
