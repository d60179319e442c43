import KeyedRecords.Proofs.Query.Kinds
import KeyedRecords.Proofs.Query.Reading

/-!
# What readers find

Once the commands of a plan have been sent, the ids and their number are read from one key. What is
read is determined by the ids that the reader finds there (`Reader.items`): a slice of them
(`ResultSet.exists_ids_part`), and how many there are (`ResultSet.exists_count`).
-/

namespace KeyedRecords

namespace Reader

open Keyspace

/-- All ids that a reader finds, in their order. -/
def items (ks : Keyspace) : Reader → Except CommandFault (List String)
  | .empty => .ok []
  | .set key => do return ((← ks.set? key).map (·.toList)).getD []
  | .sorted key reversed => do
    let found := (byScore ((← ks.sortedSet? key).getD ∅)).map Prod.fst
    return if reversed then found.reverse else found
  | .list key => do return (← ks.list? key).getD []

/-- The ids of a half-open slice; a set is cut when it has been read. -/
def part (items : List String) (start : Int) (stop : Option Int) : Reader → List String
  | .empty => []
  | .set _ => Slice.slice items start stop
  | .sorted _ _ | .list _ =>
    (Slice.toInclusive? start stop).elim [] fun range => Slice.between items range.1 range.2

variable {ks ks' : Keyspace} {reader : Reader}

/-- What is found depends on what the key of the reader holds, and on nothing else. -/
theorem items_congr
    (h : ∀ key kind, reader.expects? = some (key, kind) → ks'.data? key = ks.data? key) :
    reader.items ks' = reader.items ks := by
  cases reader with
  | empty => rfl
  | set key => simp only [items, set?_congr (h key .set rfl)]
  | sorted key reversed => simp only [items, sortedSet?_congr (h key .sortedSet rfl)]
  | list key => simp only [items, list?_congr (h key .list rfl)]

/-- Ids are found if the key of the reader holds nothing of another kind. -/
theorem exists_items (h : ∀ key kind, reader.expects? = some (key, kind) → ks.Fits key kind) :
    ∃ found, reader.items ks = .ok found := by
  cases reader with
  | empty => exact ⟨_, rfl⟩
  | set key =>
    obtain ⟨s, hs, -⟩ := (h key .set rfl).set?
    simp only [items, hs]
    exact ⟨_, rfl⟩
  | sorted key reversed =>
    obtain ⟨z, hz, -⟩ := (h key .sortedSet rfl).sortedSet?
    simp only [items, hz]
    exact ⟨_, rfl⟩
  | list key =>
    obtain ⟨l, hl⟩ := (h key .list rfl).list?
    simp only [items, hl]
    exact ⟨_, rfl⟩

end Reader

namespace ResultSet

open Keyspace

variable {r : ResultSet} {client : Client} {ks : Keyspace} {found : List String}

/-- The ids of a slice are read. -/
theorem exists_ids_part (h : r.Answers client ks) (hfound : r.plan.reader.items ks = .ok found)
    (start : Int) (stop : Option Int) :
    ∃ s, runFrom (r, client) (ids start stop) = (.ok (r.plan.reader.part found start stop), s) := by
  unfold ids
  rw [runFrom_bind_ok (runFrom_current r client)]
  revert hfound
  cases r.plan.reader with
  | empty => exact fun _ => ⟨_, rfl⟩
  | set key =>
    intro hfound
    obtain ⟨s, hs, hfound⟩ := bind_ok_iff.mp hfound
    cases hfound
    obtain ⟨after, hread⟩ := h.exists_readIds (execute_smembers hs)
    dsimp only
    rw [runFrom_bind_ok hread]
    exact ⟨after, rfl⟩
  | sorted key reversed =>
    intro hfound
    obtain ⟨z, hz, hfound⟩ := bind_ok_iff.mp hfound
    cases hfound
    dsimp only [Reader.part]
    cases Slice.toInclusive? start stop with
    | none => exact ⟨_, rfl⟩
    | some range => exact h.exists_readIds (execute_zrange hz ..)
  | list key =>
    intro hfound
    obtain ⟨l, hl, hfound⟩ := bind_ok_iff.mp hfound
    cases hfound
    dsimp only [Reader.part]
    cases Slice.toInclusive? start stop with
    | none => exact ⟨_, rfl⟩
    | some range => exact h.exists_readIds (execute_lrange hl ..)

/-- The number of ids that one read answers. -/
theorem Answers.exists_size (h : r.Answers client ks) {read : Command} {n : Nat}
    (hread : ks.execute read = (.count n, ks)) :
    ∃ s, runFrom (r, client) (do
      return (← Operation.ofExcept (← runOne read).asInt).toNat) = (.ok n, s) := by
  obtain ⟨s, hrun⟩ := h read
  rw [hread] at hrun
  rw [runFrom_bind_ok hrun]
  exact ⟨s, rfl⟩

/-- As many ids are counted as are found. -/
theorem exists_count (h : r.Answers client ks) (hfound : r.plan.reader.items ks = .ok found) :
    ∃ s, runFrom (r, client) count = (.ok found.length, s) := by
  unfold count
  rw [runFrom_bind_ok (runFrom_current r client)]
  revert hfound
  cases r.plan.reader with
  | empty =>
    intro hfound
    cases hfound
    exact ⟨_, rfl⟩
  | set key =>
    intro hfound
    obtain ⟨s, hs, hfound⟩ := bind_ok_iff.mp hfound
    cases hfound
    have hsize : (s.map (·.size)).getD 0 = ((s.map (·.toList)).getD []).length := by
      cases s with
      | none => rfl
      | some s => exact Std.ExtTreeSet.length_toList.symm
    rw [← hsize]
    exact h.exists_size (execute_scard hs)
  | sorted key reversed =>
    intro hfound
    obtain ⟨z, hz, hfound⟩ := bind_ok_iff.mp hfound
    cases hfound
    have hsize : (z.map (·.size)).getD 0 = (byScore (z.getD ∅)).length := by
      rw [byScore, List.length_mergeSort]
      cases z with
      | none => rfl
      | some z => exact Std.ExtTreeMap.length_toList.symm
    -- it does not matter from which end they are listed
    have hlength : (if reversed then ((byScore (z.getD ∅)).map Prod.fst).reverse
        else (byScore (z.getD ∅)).map Prod.fst).length = (z.map (·.size)).getD 0 := by
      rw [hsize]
      split <;> simp
    rw [hlength]
    exact h.exists_size (execute_zcard hz)
  | list key =>
    intro hfound
    obtain ⟨l, hl, hfound⟩ := bind_ok_iff.mp hfound
    cases hfound
    have hsize : (l.map (·.length)).getD 0 = (l.getD []).length := by cases l <;> rfl
    rw [← hsize]
    exact h.exists_size (execute_llen hl)

end ResultSet

end KeyedRecords
