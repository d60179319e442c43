import KeyedRecords.Proofs.Client.Contracts
import KeyedRecords.Session.Preparation

/-!
# What edits do

An edit counts if it is about an instance that is to be written and changes its record
(`Tracker.Edits`). It puts the instance that is made of the record in the place of the old one, or
is refused. So edits keep what this keeps (`Tracker.keeps_absorb_of`).
-/

namespace KeyedRecords

namespace Tracker

open Operation

variable {α : Type} {t : Tracker α} {edited : EventInstance} {p : Partition} {i i' : Instance α}

/-- An edit gives another record to an instance that is to be written. -/
structure Edits (t : Tracker α) (edited : EventInstance) (p : Partition) (i : Instance α) :
    Prop where
  partition : t.partitionOf edited.key = some p
  written : p = .added ∨ p = .modified
  held : (t.held p)[edited.key]? = some i
  differs : (i.record t.model == edited.record) = false

/-- An edited instance stands where it stood. -/
theorem state_of_rebuild (h : t.rebuild i edited = .ok i') : i'.state = i.state := by
  unfold rebuild at h
  obtain ⟨value, -, h⟩ := bind_ok_iff.mp h
  split at h
  · rw [← pure_ok_iff.mp h]
  · exact (throw_ok_iff.mp h).elim

/-- It has the id that it had. -/
theorem id?_of_rebuild (h : t.rebuild i edited = .ok i') : i'.id? t.model = i.id? t.model := by
  unfold rebuild at h
  obtain ⟨value, -, h⟩ := bind_ok_iff.mp h
  split at h
  next hid =>
    rw [← pure_ok_iff.mp h]
    exact hid
  next => exact (throw_ok_iff.mp h).elim

/-- An edit that counts replaces the instance, or is refused. -/
theorem Edits.runFrom_absorbOne (h : t.Edits edited p i) :
    runFrom t (absorbOne edited) =
      match t.rebuild i edited with
      | .ok i' => (.ok ⟨⟩, t.put p edited.key i')
      | .error e => (.error (.failed e), t) := by
  unfold absorbOne
  rw [runFrom_bind_ok (runFrom_get t)]
  obtain ⟨hpartition, rfl | rfl, hheld, hdiffers⟩ := h <;>
    simp only [hpartition, hheld, hdiffers] <;> cases t.rebuild i edited <;> rfl

/-- Another one does nothing. -/
theorem runFrom_absorbOne_of_not (h : ∀ p i, ¬t.Edits edited p i) :
    runFrom t (absorbOne edited) = (.ok ⟨⟩, t) := by
  have hdiffers : ∀ p i, t.partitionOf edited.key = some p → p = .added ∨ p = .modified →
      (t.held p)[edited.key]? = some i → (i.record t.model == edited.record) = true := by
    intro p i hpartition hp hi
    rw [← Bool.not_eq_false]
    exact fun hne => h p i ⟨hpartition, hp, hi, hne⟩
  unfold absorbOne
  rw [runFrom_bind_ok (runFrom_get t)]
  dsimp only
  split
  next hpartition =>
    split
    next => rfl
    next i hi =>
      rw [if_pos (hdiffers _ i hpartition (.inl rfl) hi)]
      rfl
  next hpartition =>
    split
    next => rfl
    next i hi =>
      rw [if_pos (hdiffers _ i hpartition (.inr rfl) hi)]
      rfl
  all_goals rfl

/-- Edits keep a property if the instances that they make may take the places of the old ones. -/
theorem keeps_absorb_of {P : Tracker α → Prop} {edits : List EventInstance}
    (h : ∀ edited ∈ edits, ∀ t p i i', P t → t.Edits edited p i → t.rebuild i edited = .ok i' →
      P (t.put p edited.key i')) : Keeps P (absorb edits) := by
  induction edits with
  | nil => exact meets_pure fun _ h => h
  | cons edited rest ih =>
    obtain ⟨h, hrest⟩ := List.forall_mem_cons.mp h
    refine Meets.bind (Q := fun _ => P) (keeps_of_behind fun t ht => ?_) fun _ => ih hrest
    by_cases hedits : ∃ p i, t.Edits edited p i
    · obtain ⟨p, i, hedits⟩ := hedits
      rw [hedits.runFrom_absorbOne]
      cases hrebuild : t.rebuild i edited with
      | ok i' => exact h t p i i' ht hedits hrebuild
      | error e => exact ht
    · rwa [runFrom_absorbOne_of_not fun p i hi => hedits ⟨p, i, hi⟩]

end Tracker

end KeyedRecords
