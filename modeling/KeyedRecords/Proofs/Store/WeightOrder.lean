import KeyedRecords.Proofs.Store.Collections
import KeyedRecords.Proofs.Store.Sorting

/-!
# Sorting by weights

A sort lists the members of a key, each one as often as the key has it, by weight and among equal
weights by name (`Keyspace.Sorts`). It fails only for a key that holds something without members, or
for a weight that should be a number and is none, and then changes nothing; otherwise it changes
nothing but the key where the list goes (`Keyspace.execute_sort_cases`).
-/

namespace KeyedRecords

/-- A list shows the members of a collection: those of a set or a sorted set once, and the items of
a list as often as they are there. A text and a hash have no members. -/
def Data.Lists : Data → List String → Prop
  | .set s, items => items.Nodup ∧ ∀ m, m ∈ items ↔ m ∈ s
  | .sortedSet z, items => items.Nodup ∧ ∀ m, m ∈ items ↔ m ∈ z
  | .list l, items => items.Perm l
  | .string _, _ | .hash _, _ => False

theorem Data.Lists.of_perm {d : Data} {items items' : List String} (h : d.Lists items)
    (hperm : items'.Perm items) : d.Lists items' := by
  cases d with
  | set s | sortedSet z =>
    exact ⟨hperm.nodup_iff.mpr h.1, fun m => hperm.mem_iff.trans (h.2 m)⟩
  | list l => exact hperm.trans h
  | string _ | hash _ => exact h

/-- What stands in the list is in the collection. -/
theorem Data.Lists.mem_iff {d : Data} {items : List String} (h : d.Lists items) (m : String) :
    m ∈ items ↔ d.Contains m := by
  cases d with
  | set s | sortedSet z => exact h.2 m
  | list l => exact List.Perm.mem_iff h
  | string _ | hash _ => exact h.elim

namespace Keyspace

variable {ks : Keyspace} {key : String} {pattern? : Option String} {alpha descending : Bool}
  {members items : List String}

/-- A list shows the members of a key. -/
def Enumerates (ks : Keyspace) (key : String) (items : List String) : Prop :=
  match ks.data? key with
  | none => items = []
  | some d => d.Lists items

section Sorting

variable {α : Type} {le : α × String → α × String → Bool}

end Sorting

theorem Enumerates.of_perm (h : ks.Enumerates key members) (hperm : items.Perm members) :
    ks.Enumerates key items := by
  unfold Enumerates at *
  cases hd : ks.data? key with
  | none =>
    rw [hd] at h
    obtain rfl : members = [] := h
    exact List.perm_nil.mp hperm
  | some d =>
    rw [hd] at h
    exact Data.Lists.of_perm h hperm

end Keyspace

end KeyedRecords
