import KeyedRecords.Proofs.Session.Partitions
import KeyedRecords.Proofs.Store.Listing

/-!
# Where a key is held

In a sound tracker a key has one slot at most: a partition and the instance there (`Tracker.slot`).
Taking a key out empties its slot and no other (`Tracker.slot_without`), and putting an instance
fills the slot of its key.
-/

namespace KeyedRecords

namespace Tracker

open Operation

variable {α : Type} {t : Tracker α} {p : Partition} {key k : IdentityKey} {i : Instance α}

/-- The partition that holds a key, and the instance there. -/
def slot (t : Tracker α) (key : IdentityKey) : Option (Partition × Instance α) :=
  Partition.all.findSome? fun p => ((t.held p)[key]?).map (p, ·)

/-- The tracker without what it holds under a key. -/
def without (t : Tracker α) (key : IdentityKey) : Tracker α :=
  match t.slot key with
  | some (p, _) => t.drop p key
  | none => t

/-- A key has no slot if no partition has it. -/
theorem slot_eq_none_iff : t.slot key = none ↔ t.Lacks key := by
  simp only [slot, List.findSome?_eq_none_iff, Option.map_eq_none_iff, Lacks]
  exact ⟨fun h p => h p (by cases p <;> simp [Partition.all]), fun h p _ => h p⟩

/-- What is found in a slot is in that partition. -/
theorem held_of_slot (h : t.slot key = some (p, i)) : (t.held p)[key]? = some i := by
  obtain ⟨q, -, hq⟩ := List.exists_of_findSome?_eq_some h
  obtain ⟨j, hj, heq⟩ := Option.map_eq_some_iff.mp hq
  obtain ⟨rfl, rfl⟩ := Prod.mk.inj heq
  exact hj

namespace Sound

/-- The slot of a key is the one partition that has it. -/
theorem slot_eq_some_iff (h : t.Sound) :
    t.slot key = some (p, i) ↔ (t.held p)[key]? = some i := by
  refine ⟨held_of_slot, fun hi => ?_⟩
  cases hslot : t.slot key with
  | none =>
    rw [slot_eq_none_iff.mp hslot p] at hi
    cases hi
  | some found =>
    obtain ⟨q, j⟩ := found
    have hj := held_of_slot hslot
    obtain rfl := h.sole key q p (by rw [hj]; rfl) (by rw [hi]; rfl)
    rw [hi] at hj
    rw [Option.some.inj hj]

/-- Taking a key out of a tracker leaves it sound. -/
theorem without (h : t.Sound) (key : IdentityKey) : (t.without key).Sound := by
  unfold Tracker.without
  split
  · exact h.drop _ key
  · exact h

/-- Taking a key out answers what was in its slot. -/
theorem runFrom_pop (h : t.Sound) (key : IdentityKey) :
    runFrom t (pop key) = (.ok (t.slot key), t.without key) := by
  obtain ⟨hlacks, hrun⟩ | ⟨p, i, hi, hrun⟩ := Tracker.runFrom_pop h key
  · rw [hrun, Tracker.without, slot_eq_none_iff.mpr hlacks]
  · rw [hrun, Tracker.without, h.slot_eq_some_iff.mpr hi]

/-- A key that was taken out is in no partition. -/
theorem lacks_without (h : t.Sound) (key : IdentityKey) : (t.without key).Lacks key := by
  unfold Tracker.without
  split
  next hslot => exact h.lacks_drop (held_of_slot hslot)
  next hslot => exact slot_eq_none_iff.mp hslot

/-- Taking a key out empties its slot and no other. -/
theorem slot_without (h : t.Sound) (key k : IdentityKey) :
    (t.without key).slot k = if k = key then none else t.slot k := by
  split
  next heq =>
    subst heq
    exact slot_eq_none_iff.mpr (h.lacks_without k)
  next hne =>
    unfold Tracker.without
    split
    · simp [slot, held_drop, hne]
    · rfl

end Sound

/-- An instance that is put under a key that no other partition has is in the slot of that key. -/
theorem slot_put (hother : ∀ q, q ≠ p → (t.held q)[key]? = none) (i : Instance α)
    (k : IdentityKey) : (t.put p key i).slot k = if k = key then some (p, i) else t.slot k := by
  split
  next heq =>
    subst heq
    cases p <;> simp [slot, Partition.all, held_put, hother]
  next hne => simp [slot, held_put, hne]

/-- What was taken out of a slot and is put there again has never been away. -/
theorem put_without (h : t.slot key = some (p, i)) : (t.without key).put p key i = t := by
  have hi := held_of_slot h
  have hinsert : ((t.held p).erase key).insert key i = t.held p := by
    refine Std.ExtTreeMap.ext_getElem? fun k => ?_
    rw [Table.getElem?_insert, Table.getElem?_erase]
    split
    next heq => rw [heq, hi]
    next => rfl
  unfold without
  rw [h]
  cases p <;> simp only [drop, put, setHeld, held] at hinsert ⊢ <;> rw [hinsert]

section Fields

@[simp]
theorem model_without (t : Tracker α) (key : IdentityKey) : (t.without key).model = t.model := by
  unfold without drop setHeld
  split
  · split <;> rfl
  · rfl

@[simp]
theorem layout_without (t : Tracker α) (key : IdentityKey) :
    (t.without key).layout = t.layout := by
  unfold without drop setHeld
  split
  · split <;> rfl
  · rfl

@[simp]
theorem deleteIds_without (t : Tracker α) (key : IdentityKey) :
    (t.without key).deleteIds = t.deleteIds := by
  unfold without drop setHeld
  split
  · split <;> rfl
  · rfl

@[simp]
theorem deleteQueries_without (t : Tracker α) (key : IdentityKey) :
    (t.without key).deleteQueries = t.deleteQueries := by
  unfold without drop setHeld
  split
  · split <;> rfl
  · rfl

@[simp]
theorem model_put (t : Tracker α) (p : Partition) (key : IdentityKey) (i : Instance α) :
    (t.put p key i).model = t.model := by
  cases p <;> rfl

@[simp]
theorem layout_put (t : Tracker α) (p : Partition) (key : IdentityKey) (i : Instance α) :
    (t.put p key i).layout = t.layout := by
  cases p <;> rfl

@[simp]
theorem deleteIds_put (t : Tracker α) (p : Partition) (key : IdentityKey) (i : Instance α) :
    (t.put p key i).deleteIds = t.deleteIds := by
  cases p <;> rfl

@[simp]
theorem deleteQueries_put (t : Tracker α) (p : Partition) (key : IdentityKey) (i : Instance α) :
    (t.put p key i).deleteQueries = t.deleteQueries := by
  cases p <;> rfl

end Fields

namespace Sound

/-- The instances to write are those in the slots for such instances. -/
theorem mem_dirty_iff (h : t.Sound) :
    (key, i) ∈ t.dirty ↔ t.slot key = some (.added, i) ∨ t.slot key = some (.modified, i) := by
  rw [dirty, List.mem_append, Std.ExtTreeMap.mem_toList_iff_getElem?_eq_some,
    Std.ExtTreeMap.mem_toList_iff_getElem?_eq_some, h.slot_eq_some_iff, h.slot_eq_some_iff]
  rfl

theorem isSome_slot_of_mem_dirty (h : t.Sound) (hi : (key, i) ∈ t.dirty) :
    (t.slot key).isSome := by
  rcases h.mem_dirty_iff.mp hi with hslot | hslot <;> rw [hslot] <;> rfl

/-- No two instances to write have one key. -/
theorem nodup_dirty (h : t.Sound) : (t.dirty.map Prod.fst).Nodup := by
  rw [dirty, List.map_append]
  refine List.nodup_append'.mpr ⟨t.added.nodup_keys, t.modified.nodup_keys, fun k hadded hmod => ?_⟩
  rw [Std.ExtTreeMap.map_fst_toList_eq_keys, Std.ExtTreeMap.mem_keys,
    Std.ExtTreeMap.mem_iff_isSome_getElem?] at hadded hmod
  cases h.sole k .added .modified hadded hmod

end Sound

end Tracker

end KeyedRecords
