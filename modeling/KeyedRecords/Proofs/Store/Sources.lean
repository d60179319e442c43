import KeyedRecords.Proofs.Store.Reading
import KeyedRecords.Proofs.Store.Starvation

/-!
# What commands read

A command that collects members reads its sources, and what it does depends on nothing else: on two
key spaces in which these hold the same, it fails on both, or leaves the same under its destination
(`Keyspace.overwrites_of_destination`). What the destination held before makes no difference, unless
it is a source. A sort that stores its list reads the keys that its pattern leads to as well.
-/

namespace KeyedRecords

/-- The keys that a command which collects members reads. -/
def Command.sources : Command → List String
  | .sinterstore _ keys | .sunionstore _ keys | .sdiffstore _ keys => keys
  | .zinterstore _ keys _ _ | .zunionstore _ keys _ _ | .zdiffstore _ keys => keys
  | .eval (.resolveUnique hash _ _ ids) => hash :: ids.toList
  | _ => []

namespace Keyspace

variable {α β : Type} {ks ks' : Keyspace} {dest : String} {keys : List String} {c : Command}

/-- Steps fail on two key spaces alike and change neither, or leave the same under a key. -/
def Overwrite (ks ks' : Keyspace) (dest : String) (op : Step α) : Prop :=
  (∃ e, ks.run op = (.error e, ks) ∧ ks'.run op = (.error e, ks')) ∨
    ∃ a d, ks.run op = (.ok a, ks.replace dest d) ∧ ks'.run op = (.ok a, ks'.replace dest d)

theorem overwrite_throw (ks ks' : Keyspace) (dest : String) (e : CommandFault) :
    Overwrite ks ks' dest (throw e : Step α) :=
  .inl ⟨e, rfl, rfl⟩

theorem overwrite_store (ks ks' : Keyspace) (dest : String) (d : Data) (size : Nat) :
    Overwrite ks ks' dest (Step.store dest d size) :=
  .inr ⟨size, d, run_store .., run_store ..⟩

/-- Reading the same first makes no difference. -/
theorem overwrite_read {f : Keyspace → Except CommandFault α} (hf : f ks' = f ks)
    {next : α → Step β} (hnext : ∀ a, Overwrite ks ks' dest (next a)) :
    Overwrite ks ks' dest (Step.read f >>= next) := by
  cases hread : f ks with
  | error e =>
    rw [hread] at hf
    exact .inl ⟨e, run_bind_error (by rw [run_read, hread]) _,
      run_bind_error (by rw [run_read, hf]) _⟩
  | ok a =>
    rw [hread] at hf
    unfold Overwrite
    rw [run_bind_ok (by rw [run_read, hread]), run_bind_ok (by rw [run_read, hf])]
    exact hnext a

section Steps

variable (h : ∀ key ∈ keys, ks'.data? key = ks.data? key)
include h

theorem overwrite_storeSets (dest : String) (f : List Members → Members) :
    Overwrite ks ks' dest (Step.storeSets dest keys f) :=
  overwrite_read (sets_congr (List.forall₂_same.mpr h)) fun _ => overwrite_store ..

theorem overwrite_storeSortedDiff (dest : String) :
    Overwrite ks ks' dest (Step.storeSortedDiff dest keys) :=
  overwrite_read
    (mapM_eq_of_forall₂ (List.forall₂_same.mpr fun key hkey => scored_congr (h key hkey)))
    fun _ => overwrite_store ..

theorem overwrite_storeSorted (dest : String) (weights : Option (List Double))
    (f : List (Table Double) → Table Double) :
    Overwrite ks ks' dest (Step.storeSorted dest keys weights f) := by
  have hpairs : ∀ pairs : List (String × Double), (∀ p ∈ pairs, p.1 ∈ keys) →
      Overwrite ks ks' dest (do
        let result := f (← Step.read (·.weighted pairs))
        Step.store dest (.sortedSet result) result.size) := fun pairs hmem =>
    overwrite_read
      (weighted_congr (List.forall₂_same.mpr fun p hp => ⟨h p.1 (hmem p hp), rfl⟩))
      fun _ => overwrite_store ..
  unfold Step.storeSorted Step.pairWeights
  cases weights with
  | none =>
    rw [pure_bind]
    exact hpairs _ (by simp)
  | some weights =>
    simp only
    split
    · rw [pure_bind]
      exact hpairs _ fun p hp => (List.of_mem_zip hp).1
    · exact overwrite_throw ..

theorem overwrite_resolveUnique {hash : String} {ids : Option String}
    (hkeys : keys = hash :: ids.toList) (values : List String) (dest : String) :
    Overwrite ks ks' dest (Step.resolveUnique hash values dest ids) := by
  subst hkeys
  refine overwrite_read (owners_congr (h hash List.mem_cons_self) values) fun found => ?_
  cases ids with
  | none => exact overwrite_store ..
  | some ids =>
    exact overwrite_read (sortedSet?_congr (h ids (by simp))) fun _ => overwrite_store ..

end Steps

/-- A command fails on two key spaces and changes neither, or leaves the same under a key. -/
def Overwrites (ks ks' : Keyspace) (c : Command) (dest : String) : Prop :=
  (∃ reply, reply.isError = true ∧ ks.execute c = (reply, ks) ∧ ks'.execute c = (reply, ks')) ∨
    ∃ reply d, reply.isError = false ∧ ks.execute c = (reply, ks.replace dest d) ∧
      ks'.execute c = (reply, ks'.replace dest d)

/-- A command that counts what its steps leave. -/
theorem Overwrite.command {op : Step Nat} (h : Overwrite ks ks' dest op)
    (hc : Step.ofCommand c = Reply.count <$> op) : Overwrites ks ks' c dest := by
  unfold Overwrites
  rw [execute_eq, execute_eq, hc]
  obtain ⟨e, hrun, hrun'⟩ | ⟨n, d, hrun, hrun'⟩ := h
  · rw [run_map_error hrun, run_map_error hrun']
    exact .inl ⟨_, rfl, rfl, rfl⟩
  · rw [run_map_ok hrun, run_map_ok hrun']
    exact .inr ⟨_, d, rfl, rfl, rfl⟩

/-- A command that collects members depends on its sources only. -/
theorem overwrites_of_destination (hc : c.destination? = some dest)
    (h : ∀ key ∈ c.sources, ks'.data? key = ks.data? key) : Overwrites ks ks' c dest := by
  cases c with
  | sinterstore =>
    cases hc
    exact (overwrite_storeSets h _ _).command rfl
  | sunionstore =>
    cases hc
    exact (overwrite_storeSets h _ _).command rfl
  | sdiffstore =>
    cases hc
    exact (overwrite_storeSets h _ _).command rfl
  | zinterstore =>
    cases hc
    exact (overwrite_storeSorted h _ _ _).command rfl
  | zunionstore =>
    cases hc
    exact (overwrite_storeSorted h _ _ _).command rfl
  | zdiffstore =>
    cases hc
    exact (overwrite_storeSortedDiff h _).command rfl
  | eval script =>
    cases script with
    | resolveUnique =>
      cases hc
      exact (overwrite_resolveUnique h rfl _ _).command rfl
    | commit => cases hc
  | _ => cases hc

/-- A sort that stores its list depends on the key that it sorts and on those that its pattern leads
to. -/
theorem overwrites_sort {key : String} (hkey : ks'.data? key = ks.data? key)
    {pattern? : Option String}
    (hpattern : ∀ pattern ∈ pattern?, ∀ member,
      ks'.data? (patternKey pattern member) = ks.data? (patternKey pattern member))
    (descending alpha : Bool) (dest : String) :
    Overwrites ks ks' (.sort key pattern? descending alpha (some dest)) dest := by
  have hop : Overwrite ks ks' dest (do
      let items ← Step.read (·.sorted key pattern? descending alpha)
      Step.store dest (.list items) items.length) :=
    overwrite_read (sorted_congr hkey hpattern descending alpha) fun _ => overwrite_store ..
  refine hop.command ?_
  rw [map_bind]
  rfl

end Keyspace

end KeyedRecords
