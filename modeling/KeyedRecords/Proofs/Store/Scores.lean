import KeyedRecords.Proofs.Store.Starvation

/-!
# Scores in set algebra

The members of a sorted set have the scores of another one if the set is a part of it
(`Table.Within`). Set algebra on parts of one sorted set makes parts of it again, as long as a score
that is combined with itself stays the same.
-/

namespace KeyedRecords

namespace Table

variable {t z : Table Double} {sets : List (Table Double)} {aggregate : Aggregate}

/-- Members have the scores that they have in another sorted set. -/
def Within (z t : Table Double) : Prop :=
  ∀ (m : String) (x : Double), z[m]? = some x → t[m]? = some x

/-- A score of the sorted set stays the same when it is combined with itself. -/
def Idempotent (t : Table Double) (aggregate : Aggregate) : Prop :=
  ∀ (m : String) (x : Double), t[m]? = some x → aggregate.combine x x = x

theorem within_empty (t : Table Double) : Within ∅ t := by
  intro m x h
  simp at h

/-- One more member with its score. -/
theorem Within.insert (h : z.Within t) {m : String} {x : Double} (hm : t[m]? = some x) :
    Table.Within (z.insert m x) t := by
  intro m' x' h'
  rw [getElem?_insert] at h'
  split at h'
  next heq =>
    obtain rfl := Option.some.inj h'
    rwa [heq]
  next => exact h m' x' h'

/-- More members with their scores. -/
theorem Within.insertAll {entries : List (String × Double)} (h : z.Within t)
    (hentries : ∀ e ∈ entries, t[e.1]? = some e.2) : (z.insertAll entries).Within t := by
  induction entries generalizing z with
  | nil => exact h
  | cons e rest ih =>
    obtain ⟨he, hrest⟩ := List.forall_mem_cons.mp hentries
    exact ih (h.insert he) hrest

/-- One more member of a union, with the score that it has there already. -/
theorem Within.addCombined (h : z.Within t) (ht : t.Idempotent aggregate) {m : String} {x : Double}
    (hm : t[m]? = some x) : (addCombined aggregate z m x).Within t := by
  unfold Table.addCombined
  split
  next before hbefore =>
    obtain rfl := Option.some.inj ((h m before hbefore).symm.trans hm)
    rw [ht m before hm]
    exact h.insert hm
  next => exact h.insert hm

/-- The union of parts is a part. -/
theorem within_unionAll (ht : t.Idempotent aggregate) (h : ∀ z ∈ sets, z.Within t) :
    (unionAll aggregate sets).Within t := by
  -- the union so far is the accumulator of both folds
  have hfold : ∀ (entries : List (String × Double)) (all : Table Double), all.Within t →
      (∀ e ∈ entries, t[e.1]? = some e.2) →
      (entries.foldl (fun all e => addCombined aggregate all e.1 e.2) all).Within t := by
    intro entries
    induction entries with
    | nil => exact fun all hall _ => hall
    | cons e rest ih =>
      intro all hall hentries
      obtain ⟨he, hrest⟩ := List.forall_mem_cons.mp hentries
      exact ih _ (hall.addCombined ht he) hrest
  suffices hall : ∀ all : Table Double, all.Within t →
      (sets.foldl (fun all z => z.toList.foldl
        (fun all e => addCombined aggregate all e.1 e.2) all) all).Within t from
    hall ∅ (within_empty t)
  induction sets with
  | nil => exact fun all hall => hall
  | cons z rest ih =>
    intro all hall
    obtain ⟨hz, hrest⟩ := List.forall_mem_cons.mp h
    refine ih hrest _ (hfold _ all hall fun e he => hz e.1 e.2 ?_)
    exact Std.ExtTreeMap.mem_toList_iff_getElem?_eq_some.mp he

/-- Scores of a member of several parts are combined to the one that it has. -/
theorem combineAll_within (ht : t.Idempotent aggregate) {m : String} {x y : Double}
    (hm : t[m]? = some x) (h : ∀ z ∈ sets, z.Within t)
    (hcombined : combineAll aggregate m x sets = some y) : y = x := by
  induction sets with
  | nil => exact (Option.some.inj hcombined).symm
  | cons z rest ih =>
    obtain ⟨hz, hrest⟩ := List.forall_mem_cons.mp h
    obtain ⟨other, hother, hcombined⟩ := Option.bind_eq_some_iff.mp hcombined
    obtain rfl := Option.some.inj ((hz m other hother).symm.trans hm)
    rw [ht m other hm] at hcombined
    exact ih hrest hcombined

/-- The intersection of parts is a part. -/
theorem within_interAll (ht : t.Idempotent aggregate) (h : ∀ z ∈ sets, z.Within t) :
    (interAll aggregate sets).Within t := by
  cases sets with
  | nil => exact within_empty t
  | cons z rest =>
    obtain ⟨hz, hrest⟩ := List.forall_mem_cons.mp h
    intro m y hy
    rw [interAll, Std.ExtTreeMap.getElem?_filterMap, Option.pbind_eq_some_iff] at hy
    obtain ⟨x, hx, hcombined⟩ := hy
    rw [Std.ExtTreeMap.getKey_eq] at hcombined
    have hm := hz m x hx
    rwa [combineAll_within ht hm hrest hcombined]

/-- The difference of a part and others is a part. -/
theorem within_diffAll (h : z.Within t) (rest : List (Table Double)) :
    (diffAll (z :: rest)).Within t := by
  intro m x hx
  rw [diffAll, Std.ExtTreeMap.getElem?_filter] at hx
  exact h m x (Option.pfilter_eq_some_iff.mp hx).1

/-- Scores of one kind in a table of entries that all have it. -/
theorem eq_of_insertAll {x : Double} {entries : List (String × Double)}
    (h : ∀ e ∈ entries, e.2 = x) {m : String} {y : Double}
    (hy : (Table.insertAll ∅ entries)[m]? = some y) : y = x := by
  rw [getElem?_insertAll, Std.ExtTreeMap.getElem?_empty, Option.or_none] at hy
  obtain ⟨front, back, heq, -⟩ := List.lookup_eq_some_iff.mp hy
  exact h (m, y) (List.mem_reverse.mp (by simp [heq]))

end Table

namespace Keyspace

variable {ks : Keyspace} {key dest : String} {c : Command}

/-- The scores of a collection are read as they are. -/
theorem FitsScored.getElem?_scoredAt (h : ks.FitsScored key) (m : String) :
    (ks.scoredAt key)[m]? = ks.score? key m := by
  unfold scoredAt scored score?
  obtain hd | ⟨s, hd⟩ | ⟨z, hd⟩ := h.cases
  · simp [hd]
  · rw [hd, Option.bind_some, Data.score?]
    dsimp only
    have hmem := Table.mem_insertAll (∅ : Table Double) (s.toList.map fun m => (m, .one)) m
    by_cases hm : m ∈ s
    · rw [if_pos hm]
      have hin : m ∈ Table.insertAll (∅ : Table Double) (s.toList.map fun m => (m, .one)) :=
        hmem.mpr (.inl (by simpa using hm))
      obtain ⟨y, hy⟩ := Option.isSome_iff_exists.mp (Std.ExtTreeMap.mem_iff_isSome_getElem?.mp hin)
      rw [hy, Table.eq_of_insertAll (x := .one) (by simp) hy]
    · rw [if_neg hm, ← Option.not_isSome_iff_eq_none, ← Std.ExtTreeMap.mem_iff_isSome_getElem?,
        hmem]
      simpa using hm
  · rw [hd]
    rfl

/-- The scores of a collection, each multiplied by its weight. -/
theorem FitsScored.getElem?_weightedAt {pair : String × Double} (h : ks.FitsScored pair.1)
    (m : String) : (ks.weightedAt pair)[m]? = (ks.score? pair.1 m).map (·.mul pair.2) := by
  rw [weightedAt, Std.ExtTreeMap.getElem?_map, h.getElem?_scoredAt]

/-- The scores behind a command that stores a sorted set and lets it expire. -/
theorem score?_store {op : Step Nat} {n : Nat} {z : Table Double}
    (hc : Step.ofCommand c = Reply.count <$> op)
    (h : ks.run op = (.ok n, ks.replace dest (.sortedSet z))) (seconds : Nat) (m : String) :
    (ks.executeAll [c, .expire dest seconds]).2.score? dest m = z[m]? := by
  have hexecute : ks.execute c = (.count n, ks.replace dest (.sortedSet z)) :=
    execute_ok (hc ▸ run_map_ok h _)
  simp only [executeAll, hexecute, score?, execute_expire, data?_expire]
  exact (score?_replace ..).trans (if_pos rfl)

end Keyspace

end KeyedRecords
