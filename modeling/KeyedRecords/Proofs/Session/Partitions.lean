import KeyedRecords.Proofs.Session.Edits
import KeyedRecords.Proofs.Store.Contents
import KeyedRecords.Session.Outcome

/-!
# Partitions of a tracker

A sound tracker has each key in one partition at most, and its instances stand as their partitions
say (`Tracker.Sound`). Every operation of a tracker keeps it sound, so that taking a key out of it
does not fail (`Tracker.runFrom_pop`). Taking over the reply to a commit fails only if the reply
makes no sense (`Tracker.applyReply_meets`).
-/

namespace KeyedRecords

/-- An instance stands as those of a partition do. -/
structure Partition.Suits (p : Partition) (s : Lifecycle) : Prop where
  /-- Only added instances have never been stored. -/
  persistent : s.persistent = true ↔ p ≠ .added
  /-- Only deleted instances are to be deleted. -/
  deleted : s.deleted = true ↔ p = .deleted

namespace Tracker

open Operation

variable {α : Type} {t t' : Tracker α} {p q : Partition} {key k : IdentityKey} {i : Instance α}

theorem held_put (t : Tracker α) (p : Partition) (key : IdentityKey) (i : Instance α)
    (q : Partition) (k : IdentityKey) :
    ((t.put p key i).held q)[k]? = if q = p ∧ k = key then some i else (t.held q)[k]? := by
  unfold put
  cases p <;> cases q <;> simp [setHeld, held, Table.getElem?_insert]

theorem held_drop (t : Tracker α) (p : Partition) (key : IdentityKey) (q : Partition)
    (k : IdentityKey) :
    ((t.drop p key).held q)[k]? = if q = p ∧ k = key then none else (t.held q)[k]? := by
  unfold drop
  cases p <;> cases q <;> simp [setHeld, held, Table.getElem?_erase]

/-- Each key is in one partition at most, and instances stand as their partitions say. -/
structure Sound (t : Tracker α) : Prop where
  /-- No key is in two partitions. -/
  sole : ∀ (key : IdentityKey) p q, (t.held p)[key]?.isSome → (t.held q)[key]?.isSome → p = q
  /-- Instances stand as their partitions say. -/
  suits : ∀ p (key : IdentityKey) i, (t.held p)[key]? = some i → p.Suits i.state

/-- No partition has a key. -/
def Lacks (t : Tracker α) (key : IdentityKey) : Prop := ∀ p, (t.held p)[key]? = none

namespace Sound

/-- A tracker without instances is sound. -/
theorem empty (model : Model α) (layout : Layout) : (Tracker.empty model layout).Sound := by
  have hnone : ∀ p (key : IdentityKey), ((Tracker.empty model layout).held p)[key]? = none := by
    intro p key
    cases p <;> simp [Tracker.empty, held]
  exact ⟨fun key p q hp => by simp [hnone] at hp, fun p key i hi => by simp [hnone] at hi⟩

/-- Whether a tracker is sound depends on its partitions only. -/
theorem congr (h : t.Sound) (hheld : ∀ p, t'.held p = t.held p) : t'.Sound :=
  ⟨fun key p q hp hq => h.sole key p q (by rwa [← hheld]) (by rwa [← hheld]),
    fun p key i hi => h.suits p key i (by rwa [← hheld])⟩

/-- A key that is dropped leaves a sound tracker. -/
theorem drop (h : t.Sound) (p : Partition) (key : IdentityKey) : (t.drop p key).Sound := by
  have hsub : ∀ q (k : IdentityKey) i,
      ((t.drop p key).held q)[k]? = some i → (t.held q)[k]? = some i := by
    intro q k i hi
    rw [held_drop] at hi
    split at hi
    · cases hi
    · exact hi
  refine ⟨fun k q r hq hr => ?_, fun q k i hi => h.suits q k i (hsub q k i hi)⟩
  obtain ⟨i, hi⟩ := Option.isSome_iff_exists.mp hq
  obtain ⟨j, hj⟩ := Option.isSome_iff_exists.mp hr
  exact h.sole k q r (by rw [hsub q k i hi]; rfl) (by rw [hsub r k j hj]; rfl)

/-- An instance may be put under a key that no other partition has. -/
theorem put (h : t.Sound) (hother : ∀ q, q ≠ p → (t.held q)[key]? = none) (hi : p.Suits i.state) :
    (t.put p key i).Sound := by
  refine ⟨fun k q r hq hr => ?_, fun q k j hj => ?_⟩
  · rw [held_put] at hq hr
    -- the key that was put is in its partition only
    by_cases hk : k = key
    · have honly : ∀ s, (if s = p ∧ k = key then some i else (t.held s)[k]?).isSome → s = p := by
        intro s hs
        by_cases hs' : s = p
        · exact hs'
        · rw [if_neg fun hand => hs' hand.1, hk, hother s hs'] at hs
          cases hs
      rw [honly q hq, honly r hr]
    · rw [if_neg fun hand => hk hand.2] at hq hr
      exact h.sole k q r hq hr
  · rw [held_put] at hj
    split at hj
    next hand =>
      rw [hand.1, ← Option.some.inj hj]
      exact hi
    next => exact h.suits q k j hj

/-- A key that one partition has is in no other. -/
theorem held_eq_none (h : t.Sound) (hi : (t.held p)[key]? = some i) (hq : q ≠ p) :
    (t.held q)[key]? = none := by
  rw [← Option.not_isSome_iff_eq_none]
  exact fun hthere => hq (h.sole key q p hthere (by rw [hi]; rfl))

end Sound

/-- A key that is dropped from the one partition that has it is in none. -/
theorem Sound.lacks_drop (h : t.Sound) (hi : (t.held p)[key]? = some i) :
    (t.drop p key).Lacks key := by
  intro q
  rw [held_drop]
  split
  next => rfl
  next hne => exact h.held_eq_none hi fun hq => hne ⟨hq, rfl⟩

/-- A key is looked for in partitions that do not have it. -/
theorem runFrom_popFrom_of_none {ps : List Partition} (h : ∀ p ∈ ps, (t.held p)[key]? = none)
    (found : Option (Partition × Instance α)) :
    runFrom t (popFrom key found ps) = (.ok found, t) := by
  induction ps with
  | nil => rfl
  | cons p rest ih =>
    obtain ⟨hp, hrest⟩ := List.forall_mem_cons.mp h
    rw [popFrom, runFrom_bind_ok (runFrom_get t), hp]
    exact ih hrest

/-- A key is taken out of the one partition that has it, if there is one. -/
theorem runFrom_popFrom (h : t.Sound) (key : IdentityKey) (ps : List Partition) :
    ((∀ p ∈ ps, (t.held p)[key]? = none) ∧ runFrom t (popFrom key none ps) = (.ok none, t)) ∨
      ∃ p i, (t.held p)[key]? = some i ∧
        runFrom t (popFrom key none ps) = (.ok (some (p, i)), t.drop p key) := by
  induction ps with
  | nil => exact .inl ⟨by simp, rfl⟩
  | cons p rest ih =>
    rw [popFrom, runFrom_bind_ok (runFrom_get t)]
    cases hi : (t.held p)[key]? with
    | none =>
      obtain ⟨hnone, hrun⟩ | hfound := ih
      · exact .inl ⟨List.forall_mem_cons.mpr ⟨hi, hnone⟩, hrun⟩
      · exact .inr hfound
    | some i =>
      -- the partitions behind this one do not have the key
      have hset : runFrom t (set (t.drop p key) : Tracking α PUnit) = (.ok ⟨⟩, t.drop p key) := rfl
      refine .inr ⟨p, i, hi, ?_⟩
      rw [runFrom_bind_ok hset]
      exact runFrom_popFrom_of_none (fun q _ => h.lacks_drop hi q) _

/-- Taking a key out of a sound tracker does not fail. -/
theorem runFrom_pop (h : t.Sound) (key : IdentityKey) :
    (t.Lacks key ∧ runFrom t (pop key) = (.ok none, t)) ∨
      ∃ p i, (t.held p)[key]? = some i ∧
        runFrom t (pop key) = (.ok (some (p, i)), t.drop p key) := by
  obtain ⟨hnone, hrun⟩ | hfound := runFrom_popFrom h key Partition.all
  · exact .inl ⟨fun p => hnone p (by cases p <;> simp [Partition.all]), hrun⟩
  · exact .inr hfound

/-- A reason for which taking a key out of some tracker stops. -/
def Duplicate (α : Type) (e : Stop) : Prop :=
  ∃ (t : Tracker α) (key : IdentityKey), (runFrom t (pop key)).1 = .error e

/-- Taking a key out of partitions stops only if two of them hold it. -/
theorem exists_eq_of_popFrom {ps : List Partition} {found : Option (Partition × Instance α)}
    {e : Stop} (h : (runFrom t (popFrom key found ps)).1 = .error e) :
    ∃ (name : String) (first second : Partition), e = .failed (.consistency
      s!"{name} instance {key} held by both {first.name} and {second.name}") := by
  induction ps generalizing t found with
  | nil => cases h
  | cons p rest ih =>
    rw [popFrom, runFrom_bind_ok (runFrom_get t)] at h
    cases hi : (t.held p)[key]? with
    | none =>
      rw [hi] at h
      exact ih h
    | some i =>
      have hset : runFrom t (set (t.drop p key) : Tracking α PUnit) = (.ok ⟨⟩, t.drop p key) := rfl
      simp only [hi] at h
      rw [runFrom_bind_ok hset] at h
      cases found with
      | none => exact ih h
      | some first =>
        obtain rfl := Except.error.inj h
        exact ⟨_, _, _, rfl⟩

/-- What is taken out of a sound tracker stands as its partition says, and is in none afterwards. -/
theorem pop_meets (key : IdentityKey) :
    Meets (Sound (α := α)) (pop key)
      (fun found t => t.Sound ∧ t.Lacks key ∧ ∀ p i, found = some (p, i) → p.Suits i.state)
      fun _ _ => False := by
  intro t h
  obtain ⟨hlacks, hrun⟩ | ⟨p, i, hi, hrun⟩ := runFrom_pop h key
  · rw [hrun]
    exact ⟨h, hlacks, nofun⟩
  · rw [hrun]
    refine ⟨h.drop p key, h.lacks_drop hi, ?_⟩
    rintro _ _ ⟨⟩
    exact h.suits p key i hi

/-- A key is taken out of a sound tracker, whatever was under it. -/
theorem discard_pop_meets (key : IdentityKey) :
    Meets (Sound (α := α)) (discard (pop key)) (fun _ t => t.Sound ∧ t.Lacks key)
      fun _ _ => False :=
  ((pop_meets key).mono (fun _ h => h) (fun _ _ h => ⟨h.1, h.2.1⟩) fun _ _ h => h).discard

/-- Adding an instance keeps a tracker sound. -/
theorem add_meets (i : Instance α) : Meets Sound (add i) (fun _ => Sound) fun _ _ => False := by
  unfold add
  refine meets_get.bind fun t => ?_
  refine ((discard_pop_meets _).pre fun _ h => h.2).bind fun _ => ?_
  refine (meets_modify fun t h => h.1.put (fun q _ => h.2 q) ?_).bind fun _ =>
    meets_pure fun _ h => h
  -- a stored instance becomes a modified one, and its mark is taken from it
  constructor
  · simp [Lifecycle.clearDeleted]
  · cases hp : i.state.persistent <;> simp [Lifecycle.clearDeleted]

/-- A stored instance may be put among the deleted ones. -/
theorem putDeleted_meets (key : IdentityKey) {i : Instance α} (hi : i.state.persistent = true) :
    Meets (fun t => t.Sound ∧ t.Lacks key) (putDeleted key i) (fun _ => Sound)
      fun _ _ => False := by
  unfold putDeleted
  have hmark : i.state.markDeleted = .ok { i.state with deleted := true } := by
    rw [Lifecycle.markDeleted, if_pos hi]
  rw [hmark]
  refine (meets_ofExcept (Q := fun state t => state = { i.state with deleted := true } ∧
    t.Sound ∧ t.Lacks key) ?_ nofun).bind fun state => ?_
  · rintro _ ⟨⟩ t h
    exact ⟨rfl, h⟩
  · refine meets_modify fun t h => ?_
    obtain ⟨rfl, hsound, hlacks⟩ := h
    exact hsound.put (fun q _ => hlacks q) ⟨by simp [hi], by simp⟩

/-- Planning to delete an instance keeps a tracker sound. -/
theorem delete_meets (i : Instance α) :
    Meets Sound (delete i) (fun _ => Sound) fun _ _ => False := by
  -- what is found under the key counts, or else the instance itself
  have hrest : ∀ key (i : Instance α), Meets (fun t => t.Sound ∧ t.Lacks key)
      (if i.state.persistent = true then do
        putDeleted key i
        return true
      else return false) (fun _ => Sound) fun _ _ => False := by
    intro key i
    split
    next hi => exact (putDeleted_meets key hi).bind fun _ => meets_pure fun _ h => h
    next => exact meets_pure fun _ h => h.1
  unfold delete
  refine meets_get.bind fun t => ?_
  refine ((pop_meets _).pre fun _ h => h.2).bind fun found => ?_
  cases found with
  | none => exact (hrest _ i).pre fun _ h => ⟨h.1, h.2.1⟩
  | some found => exact (hrest _ found.2).pre fun _ h => ⟨h.1, h.2.1⟩

/-- Planning to delete a mere id keeps a tracker sound. -/
theorem addDeleteId_meets (id : String) :
    Meets Sound (addDeleteId (α := α) id) (fun _ => Sound) fun _ _ => False := by
  refine meets_modify fun t h => ?_
  split
  · exact h
  · exact h.congr fun p => by cases p <;> rfl

/-- Planning to delete what is stored under an id keeps a tracker sound. -/
theorem deleteId_meets (id : String) :
    Meets Sound (deleteId (α := α) id) (fun _ => Sound) fun _ _ => False := by
  unfold deleteId
  refine (pop_meets id).bind fun found => ?_
  cases found with
  | none => exact (addDeleteId_meets id).pre fun _ h => h.1
  | some found =>
    obtain ⟨p, i⟩ := found
    simp only
    split
    next hi => exact (putDeleted_meets id hi).pre fun _ h => ⟨h.1, h.2.1⟩
    -- an instance that has never been stored stays where it was
    next =>
      refine (meets_modify fun t h => ?_).bind fun _ => addDeleteId_meets id
      exact h.1.put (fun q _ => h.2.1 q) (h.2.2 p i rfl)

/-- Planning to delete what a tree matches keeps a tracker sound. -/
theorem deleteMatching_meets (tree : Tree) :
    Meets Sound (deleteMatching (α := α) tree) (fun _ => Sound) fun _ => Sound := by
  unfold deleteMatching
  refine meets_get.bind fun t => ?_
  simp only
  -- a tree over another model is refused
  split
  next => exact meets_throw_bind fun _ h => h.2
  next =>
    split
    next => exact meets_pure fun _ h => h.2
    next =>
      rintro _ ⟨rfl, h⟩
      exact h.congr fun p => by cases p <;> rfl

/-- Forgetting an instance keeps a tracker sound. -/
theorem expunge_meets (key : IdentityKey) :
    Meets Sound (expunge (α := α) key) (fun _ => Sound) fun _ _ => False := by
  unfold expunge
  refine (pop_meets key).bind fun found => ?_
  cases found with
  | none => exact meets_pure fun _ h => h.1
  | some found => exact meets_pure fun _ h => h.1

/-- Holding an instance that was read keeps a tracker sound. -/
theorem markLoaded_meets {i : Instance α} (hi : Partition.loaded.Suits i.state) :
    Meets Sound (markLoaded i) (fun _ => Sound) fun _ _ => False := by
  unfold markLoaded
  refine meets_get.bind fun t => ?_
  simp only
  split
  next => exact meets_pure fun _ h => h.2
  next hnone =>
    have hlacks : ∀ p, (t.held p)[i.identityKey t.model]? = none := fun p =>
      List.findSome?_eq_none_iff.mp hnone p (by cases p <;> simp [Partition.all])
    refine Meets.bind (Q := fun _ => Sound) ?_ fun _ => meets_pure fun _ h => h
    rintro _ ⟨rfl, h⟩
    exact h.put (fun q _ => hlacks q) hi

/-- Taking over edits keeps a tracker sound. -/
theorem absorb_meets (edits : List EventInstance) :
    Meets Sound (absorb (α := α) edits) (fun _ => Sound) fun _ => Sound := by
  refine keeps_absorb_of fun edited _ t p i i' h hedits hrebuild => ?_
  -- an edited instance stands where it stood, in the partition where it was
  exact h.put (fun q hq => h.held_eq_none hedits.held hq)
    (state_of_rebuild hrebuild ▸ h.suits p _ i hedits.held)

/-- The reason to stop at a reply to a commit that makes no sense: it has too few or too many
results, or names an instance that nothing is known of. -/
inductive Senseless : Stop → Prop
  | count (name sent got : String) :
    Senseless (.failed (.consistency s!"{name} commit sent {sent} writes but got {got} replies"))
  | unknown (name : String) (key : IdentityKey) :
    Senseless (.failed (.consistency
      s!"commit reply names {name} instance {key} which the session does not hold"))

/-- Stopping at a reply that makes no sense is not stopping at a key that two partitions hold. -/
theorem Senseless.not_duplicate {e : Stop} (h : Senseless e) : ¬Duplicate α e := by
  rintro ⟨t, key, hpop⟩
  obtain ⟨name, first, second, rfl⟩ := exists_eq_of_popFrom hpop
  -- the texts of the two reasons end in different letters
  have hends : ∀ text, Stop.failed (.consistency text) = .failed (.consistency
      s!"{name} instance {key} held by both {first.name} and {second.name}") →
      text.toList.reverse.take 2 = ['w', 'e'] ∨ text.toList.reverse.take 2 = ['d', 'e'] := by
    rintro _ ⟨⟩
    cases second <;> simp [toString, Partition.name, String.toList_append]
  generalize he : Stop.failed (.consistency
      s!"{name} instance {key} held by both {first.name} and {second.name}") = e at h hends
  cases h with
  | count _ _ _ => simpa [toString, String.toList_append] using hends _ rfl
  | unknown _ _ => simpa [toString, String.toList_append] using hends _ rfl

/-- A written instance is stored, and is not to be deleted. -/
theorem suits_of_acknowledge {m : Model α} {ack : WriteAck} {i i' : Instance α}
    (h : acknowledge m ack i = .ok i') : Partition.loaded.Suits i'.state := by
  unfold acknowledge at h
  obtain ⟨value, -, h⟩ := bind_ok_iff.mp h
  rw [← pure_ok_iff.mp h]
  exact ⟨by simp [Lifecycle.markPersistent], by simp [Lifecycle.markPersistent]⟩

/-- Taking over the result of a write keeps a tracker sound. -/
theorem applyWrite_meets (applied : Applied) (w : WriteReply) :
    Meets Sound (applyWrite (α := α) applied w) (fun _ => Sound)
      fun e t => t.Sound ∧ Senseless e := by
  unfold applyWrite
  refine ((pop_meets w.identity).mono (fun _ h => h) (fun _ _ h => h) fun _ _ h => h.elim).bind
    fun found => ?_
  cases found with
  | none =>
    refine meets_get.bind fun t => meets_throw fun _ h => ⟨h.2.1, .unknown _ _⟩
  | some found =>
    obtain ⟨p, i⟩ := found
    refine meets_get.bind fun t => ?_
    -- an instance that was not written goes back where it was
    have hkeep : ∀ applied' : Applied, Meets (fun s => t = s ∧ s.Sound ∧ s.Lacks w.identity ∧
        ∀ q j, some (p, i) = some (q, j) → q.Suits j.state)
        (do
          set (t.put p w.identity i)
          return applied') (fun _ => Sound) fun e t => t.Sound ∧ Senseless e := by
      rintro applied' _ ⟨rfl, h⟩
      exact h.1.put (fun q _ => h.2.1 q) (h.2.2 p i rfl)
    simp only
    split
    next => exact hkeep _
    next ack _ =>
      split
      next => exact hkeep _
      next i' hi' =>
        refine ((discard_pop_meets ack.id).mono (fun _ h => h.2.1) (fun _ _ h => h)
          fun _ _ h => h.elim).bind fun _ => ?_
        refine (meets_modify fun t h => ?_).bind fun _ => meets_pure fun _ h => h
        exact h.1.put (fun q _ => h.2 q) (suits_of_acknowledge hi')

/-- Taking over the results of writes keeps a tracker sound. -/
theorem applyWrites_meets (applied : Applied) (ws : List WriteReply) :
    Meets Sound (applyWrites (α := α) applied ws) (fun _ => Sound)
      fun e t => t.Sound ∧ Senseless e := by
  induction ws generalizing applied with
  | nil => exact meets_pure fun _ h => h
  | cons w rest ih => exact (applyWrite_meets applied w).bind fun applied => ih applied

/-- Taking over the result of a delete keeps a tracker sound. -/
theorem applyDelete_meets (tally : DeleteTally) (d : EventInstance) :
    Meets Sound (applyDelete (α := α) tally d) (fun _ => Sound) fun _ _ => False := by
  unfold applyDelete
  split
  next => exact meets_get.bind fun t => meets_get.bind fun _ => meets_pure fun _ h => h.2.2
  next =>
    refine (discard_pop_meets d.key).bind fun _ => ?_
    exact meets_get.bind fun _ => meets_pure fun _ h => h.2.1

/-- Taking over the results of deletes keeps a tracker sound. -/
theorem applyDeletes_meets (tally : DeleteTally) (ds : List EventInstance) :
    Meets Sound (applyDeletes (α := α) tally ds) (fun _ => Sound) fun _ _ => False := by
  induction ds generalizing tally with
  | nil => exact meets_pure fun _ h => h
  | cons d rest ih => exact (applyDelete_meets tally d).bind fun tally => ih tally

/-- Taking over that ids were deleted which queries matched keeps a tracker sound. -/
theorem applyAllMatched_meets (tally : DeleteTally) (ids : List String) :
    Meets Sound (applyAllMatched (α := α) tally ids) (fun _ => Sound) fun _ _ => False := by
  induction ids generalizing tally with
  | nil => exact meets_pure fun _ h => h
  | cons id rest ih =>
    refine Meets.bind (Q := fun _ => Sound) ?_ fun tally => ih tally
    unfold applyMatched
    refine meets_get.bind fun t => ((pop_meets id).pre fun _ h => h.2).bind fun found => ?_
    exact meets_get.bind fun _ => meets_pure fun _ h => h.2.1

/-- Taking over that ids were refused which queries matched leaves a tracker as it is. -/
theorem applyAllRefused_meets (tally : DeleteTally) (failed : List (String × BackendError)) :
    Meets Sound (applyAllRefused (α := α) tally failed) (fun _ => Sound) fun _ _ => False := by
  induction failed generalizing tally with
  | nil => exact meets_pure fun _ h => h
  | cons f rest ih =>
    refine Meets.bind (Q := fun _ => Sound) ?_ fun tally => ih tally
    exact meets_get.bind fun _ => meets_pure fun _ h => h.2

/-- Taking over what became of the deletes keeps a tracker sound. -/
theorem settleDeletes_meets (p : Prepared) (applied : Applied) (r : BatchReply) :
    Meets Sound (settleDeletes (α := α) p applied r) (fun _ => Sound) fun _ _ => False := by
  unfold settleDeletes
  refine (applyDeletes_meets _ _).bind fun tally => ?_
  refine (applyAllMatched_meets _ _).bind fun tally => ?_
  refine (applyAllRefused_meets _ _).bind fun tally => ?_
  refine (meets_modify fun t h => ?_).bind fun _ => meets_pure fun _ h => h
  exact h.congr fun p => by cases p <;> rfl

/-- Taking over the reply to a batch keeps a tracker sound, and fails only if the reply makes no
sense. -/
theorem applyReply_meets (p : Prepared) (reply : Except BackendError BatchReply)
    (deleteFailure : Option BackendError) :
    Meets Sound (applyReply (α := α) p reply deleteFailure) (fun _ => Sound)
      fun e t => t.Sound ∧ Senseless e := by
  unfold applyReply
  refine meets_get.bind fun t => ?_
  simp only
  split
  next => exact meets_pure fun _ h => h.2
  next r =>
    split
    next => exact meets_throw_bind fun _ h => ⟨h.2, .count _ _ _⟩
    next =>
      refine ((applyWrites_meets _ _).pre fun _ h => h.2).bind fun applied => ?_
      split
      next => exact meets_pure fun _ h => h
      next =>
        exact (settleDeletes_meets p applied r).mono (fun _ h => h) (fun _ _ h => h)
          fun _ _ h => h.elim

end Tracker

end KeyedRecords
