import KeyedRecords.Proofs.Slice
import KeyedRecords.Proofs.Store.Execution
import Mathlib.Data.List.Nodup

/-!
# Listing collections

Set and sorted sets are listed as a whole: the commands that do so answer every member once and
change nothing.
-/

namespace KeyedRecords

/-- The members of a set are listed once. -/
theorem Members.nodup_toList (s : Members) : s.toList.Nodup := by
  refine s.distinct_toList.imp ?_
  rintro a b hne rfl
  exact hne Std.ReflCmp.compare_self

/-- The keys of a table are listed once. -/
theorem Table.nodup_keys {β : Type} (t : Table β) : (t.toList.map Prod.fst).Nodup := by
  rw [Std.ExtTreeMap.map_fst_toList_eq_keys]
  refine t.distinct_keys.imp ?_
  rintro a b hne rfl
  exact hne Std.ReflCmp.compare_self

/-- The members of a sorted set are listed once. -/
theorem nodup_byScore (z : Table Double) : ((byScore z).map Prod.fst).Nodup := by
  -- sorting by score lists the same members
  have hperm := (List.mergeSort_perm z.toList scoredLE).map Prod.fst
  rw [byScore, hperm.nodup_iff]
  exact z.nodup_keys

namespace Keyspace

variable {ks ks' : Keyspace} {key : String}

/-- Texts list the members of a collection, each once. -/
structure Listed (ks : Keyspace) (key : String) (found : List String) : Prop where
  nodup : found.Nodup
  mem_iff : ∀ m, m ∈ found ↔ ks.Has key m

section Reads

variable {s : Option Members} {z : Option (Table Double)} {l : Option (List String)}

theorem execute_smembers (h : ks.set? key = .ok s) :
    ks.execute (.smembers key) = (.list ((s.map (·.toList)).getD []), ks) :=
  execute_read (c := .smembers key) (·.set? key) rfl h

theorem execute_scard (h : ks.set? key = .ok s) :
    ks.execute (.scard key) = (.count ((s.map (·.size)).getD 0), ks) :=
  execute_read (c := .scard key) (·.set? key) rfl h

/-- A sorted set is read by score, from either end. -/
theorem execute_zrange (h : ks.sortedSet? key = .ok z) (start stop : Int) (reversed : Bool) :
    ks.execute (.zrange key start stop reversed) =
      (.list (rankRange (z.getD ∅) start stop reversed), ks) :=
  execute_read (c := .zrange key start stop reversed) (·.sortedSet? key) rfl h

/-- All of a sorted set is read. -/
theorem execute_zrange_all (h : ks.sortedSet? key = .ok z) (reversed : Bool) :
    ks.execute (.zrange key 0 (-1) reversed) =
      (.list (if reversed then ((byScore (z.getD ∅)).map Prod.fst).reverse
        else (byScore (z.getD ∅)).map Prod.fst), ks) := by
  rw [execute_zrange h, rankRange, Slice.between_all]

theorem execute_zcard (h : ks.sortedSet? key = .ok z) :
    ks.execute (.zcard key) = (.count ((z.map (·.size)).getD 0), ks) :=
  execute_read (c := .zcard key) (·.sortedSet? key) rfl h

theorem execute_lrange (h : ks.list? key = .ok l) (start stop : Int) :
    ks.execute (.lrange key start stop) = (.list (Slice.between (l.getD []) start stop), ks) :=
  execute_read (c := .lrange key start stop) (·.list? key) rfl h

theorem execute_llen (h : ks.list? key = .ok l) :
    ks.execute (.llen key) = (.count ((l.map (·.length)).getD 0), ks) :=
  execute_read (c := .llen key) (·.list? key) rfl h

theorem execute_hgetall {h : Option (Table String)} (hh : ks.hash? key = .ok h) :
    ks.execute (.hgetall key) = (.pairs ((h.map (·.toList)).getD []), ks) :=
  execute_read (c := .hgetall key) (·.hash? key) rfl hh

theorem execute_hmget {h : Option (Table String)} (hh : ks.hash? key = .ok h)
    (fields : List String) :
    ks.execute (.hmget key fields) = (.optional (fields.map fun f => (h.getD ∅)[f]?), ks) :=
  execute_read (c := .hmget key fields) (·.hash? key) rfl hh

end Reads

/-- All members of a set are read. -/
theorem Fits.execute_smembers (h : ks.Fits key .set) :
    ∃ found, ks.execute (.smembers key) = (.list found, ks) ∧ ks.Listed key found := by
  obtain ⟨s, hs, -⟩ := h.set?
  refine ⟨_, Keyspace.execute_smembers hs, ?_, fun m => ?_⟩
  · cases s with
    | none => exact .nil
    | some s => exact Members.nodup_toList s
  · rw [← h.mem_setAt]
    unfold setAt
    rw [hs]
    cases s <;> simp

/-- All members of a sorted set are read, from either end. -/
theorem Fits.execute_zrange (h : ks.Fits key .sortedSet) (reversed : Bool) :
    ∃ found, ks.execute (.zrange key 0 (-1) reversed) = (.list found, ks) ∧
      ks.Listed key found := by
  obtain ⟨z, hz, hscore⟩ := h.sortedSet?
  have hitems : ks.Listed key ((byScore (z.getD ∅)).map Prod.fst) := by
    refine ⟨nodup_byScore _, fun m => ?_⟩
    rw [mem_byScore, Std.ExtTreeMap.mem_iff_isSome_getElem?, Has, hscore]
  refine ⟨_, execute_zrange_all hz reversed, ?_⟩
  cases reversed with
  | false => exact hitems
  -- reading from the other end lists the same members
  | true =>
    refine ⟨List.nodup_reverse.mpr hitems.nodup, fun m => ?_⟩
    rw [if_pos rfl, List.mem_reverse, hitems.mem_iff]

end Keyspace

end KeyedRecords
