import KeyedRecords.Proofs.Session.Absorption

/-!
# Queued ids and tracked instances

An id is queued for deletion only as long as no stored instance is held under it (`Tracker.Apart`);
else the instance itself is to be deleted. `Tracker.deleteId` sees to that when an id is queued.
This module says of each operation of a tracker whether it keeps the two apart: those that begin to
hold a stored instance do not look for its id in the queue, and a commit may write an instance under
an id of which the delete has failed (`Tracker.Settlement.apart_iff`).
-/

namespace KeyedRecords

namespace Tracker

open Operation

variable {α : Type} {t t' t₁ : Tracker α} {p : Partition} {key k : IdentityKey} {i : Instance α}
  {x : String}

/-- A stored instance is held under a key: it is to be written again, it was read, or it is to be
deleted. -/
def Tracks (t : Tracker α) (key : IdentityKey) : Prop :=
  key ∈ t.modified ∨ key ∈ t.loaded ∨ key ∈ t.deleted

instance (t : Tracker α) (key : IdentityKey) : Decidable (t.Tracks key) :=
  inferInstanceAs (Decidable (_ ∨ _))

/-- No id is queued that a stored instance is held under. -/
def Apart (t : Tracker α) : Prop := ∀ x ∈ t.deleteIds, ¬t.Tracks x

instance (t : Tracker α) : Decidable t.Apart :=
  inferInstanceAs (Decidable (∀ x ∈ t.deleteIds, ¬t.Tracks x))

/-- A key is tracked if a partition of stored instances has it. -/
theorem tracks_iff : t.Tracks key ↔ ∃ p, p ≠ .added ∧ (t.held p)[key]?.isSome := by
  simp only [Tracks, Std.ExtTreeMap.mem_iff_isSome_getElem?]
  constructor
  · rintro (h | h | h)
    · exact ⟨.modified, by simp, h⟩
    · exact ⟨.loaded, by simp, h⟩
    · exact ⟨.deleted, by simp, h⟩
  · rintro ⟨p, hp, h⟩
    cases p with
    | added => exact absurd rfl hp
    | modified => exact .inl h
    | loaded => exact .inr (.inl h)
    | deleted => exact .inr (.inr h)

/-- In a sound tracker a key is tracked if its slot is one of a stored instance. -/
theorem Sound.tracks_iff (ht : t.Sound) :
    t.Tracks key ↔ ∃ p i, p ≠ .added ∧ t.slot key = some (p, i) := by
  simp only [Tracker.tracks_iff, Option.isSome_iff_exists, ht.slot_eq_some_iff, exists_and_left]

/-- A key that no partition has is not that of an added instance. -/
theorem Lacks.not_mem_added (h : t.Lacks key) : key ∉ t.added := by
  intro hadded
  rw [Std.ExtTreeMap.mem_iff_isSome_getElem?, show t.added[key]? = none from h .added] at hadded
  cases hadded

/-- An empty tracker keeps ids and instances apart. -/
theorem Apart.empty (m : Model α) (l : Layout) : (Tracker.empty m l).Apart := nofun

/-- Trackers that are alike track the same keys. -/
theorem Alike.tracks_iff (h : Alike t t') : t'.Tracks key ↔ t.Tracks key := by
  simp only [Tracker.tracks_iff, h.keys]

theorem Alike.apart_iff (h : Alike t t') : t'.Apart ↔ t.Apart := by
  simp only [Apart, h.tracks_iff, (terms_eq_iff.mp h.terms).2.2.1]

/-- A key that was taken out is tracked no more. -/
theorem Sound.tracks_without (ht : t.Sound) (key k : IdentityKey) :
    (t.without key).Tracks k ↔ k ≠ key ∧ t.Tracks k := by
  rw [(ht.without key).tracks_iff, ht.tracks_iff, ht.slot_without]
  split
  next heq => simp [heq]
  next hne => simp [hne]

/-- An instance that is put under a key that was free is tracked if its partition is one of stored
instances. -/
theorem tracks_put (hlacks : t.Lacks key) (p : Partition) (i : Instance α) (k : IdentityKey) :
    (t.put p key i).Tracks k ↔ if k = key then p ≠ .added else t.Tracks k := by
  simp only [Tracker.tracks_iff, held_put]
  split
  next heq =>
    subst heq
    constructor
    · rintro ⟨q, hq, hsome⟩
      split at hsome
      next hand => exact hand.1 ▸ hq
      next =>
        rw [hlacks q] at hsome
        cases hsome
    · exact fun hp => ⟨p, hp, by simp⟩
  next hne => simp [hne]

/-- Taking a key out keeps ids and instances apart. -/
theorem Apart.without (h : t.Apart) (ht : t.Sound) (key : IdentityKey) : (t.without key).Apart := by
  intro x hx
  rw [deleteIds_without] at hx
  exact fun htracks => h x hx ((ht.tracks_without key x).mp htracks).2

/-- An instance that takes the place of what was under its key is kept apart from the queued ids if
it is not stored, or its key is not queued. -/
theorem apart_put_without (ht : t.Sound) (h : t.Apart) (p : Partition) (key : IdentityKey)
    (i : Instance α) :
    ((t.without key).put p key i).Apart ↔ ¬(p ≠ .added ∧ key ∈ t.deleteIds) := by
  simp only [Apart, deleteIds_put, deleteIds_without, tracks_put (ht.lacks_without key),
    ht.tracks_without]
  constructor
  · rintro hapart ⟨hp, hkey⟩
    exact hapart key hkey (by simpa using hp)
  · intro hnot x hx htracks
    split at htracks
    next heq => exact hnot ⟨htracks, heq ▸ hx⟩
    next => exact h x hx htracks.2

/-- The key of a free slot can be taken out and nothing happens. -/
theorem without_of_slot (h : t.slot key = none) : t.without key = t := by
  unfold without
  rw [h]

/-- A stored instance is put among those to be deleted without fail. -/
theorem runFrom_putDeleted (t : Tracker α) (key : IdentityKey)
    (hi : i.state.persistent = true) :
    runFrom t (putDeleted key i) =
      (.ok ⟨⟩, t.put .deleted key { i with state := { i.state with deleted := true } }) := by
  have hmark : i.state.markDeleted = .ok { i.state with deleted := true } := by
    rw [Lifecycle.markDeleted, if_pos hi]
  unfold putDeleted
  rw [runFrom_bind_ok (runFrom_ofExcept hmark _)]
  rfl

section Edits

variable (ht : t.Sound) (h : t.Apart)
include ht h

/-- Adding an instance ends up with its id queued and tracked exactly if it is a stored one whose id
was queued. -/
theorem apart_add (i : Instance α) :
    (runFrom t (add i)).2.Apart ↔
      ¬(i.state.persistent = true ∧ i.identityKey t.model ∈ t.deleteIds) := by
  unfold add
  rw [runFrom_bind_ok (runFrom_get t)]
  dsimp only
  rw [runFrom_bind_ok (runFrom_discard_ok (ht.runFrom_pop _))]
  have hput := apart_put_without ht h (if i.state.persistent then .modified else .added)
    (i.identityKey t.model) { i with state := i.state.clearDeleted }
  refine hput.trans ?_
  cases i.state.persistent <;> simp

/-- Planning to delete an instance ends up with its id queued and tracked exactly if it is a stored
one that was not held, and its id was queued. -/
theorem apart_delete (i : Instance α) :
    (runFrom t (delete i)).2.Apart ↔
      ¬(i.state.persistent = true ∧ i.identityKey t.model ∈ t.deleteIds ∧
        i.identityKey t.model ∉ t.added) := by
  -- what was found under the key counts, or else the instance itself
  have hrest : ∀ key (j : Instance α),
      (runFrom (t.without key) (if j.state.persistent = true then do
        putDeleted key j
        return true
      else return false : Tracking α Bool)).2.Apart ↔
        ¬(j.state.persistent = true ∧ key ∈ t.deleteIds) := by
    intro key j
    split
    next hj =>
      rw [runFrom_bind_ok (runFrom_putDeleted _ key hj)]
      refine (apart_put_without ht h .deleted key _).trans ?_
      simp [hj]
    next hj => exact iff_of_true (h.without ht key) fun hand => hj hand.1
  unfold delete
  rw [runFrom_bind_ok (runFrom_get t)]
  dsimp only
  rw [runFrom_bind_ok (ht.runFrom_pop _)]
  generalize i.identityKey t.model = key
  cases hslot : t.slot key with
  | none =>
    refine (hrest key i).trans ?_
    simp only [(slot_eq_none_iff.mp hslot).not_mem_added, not_false_eq_true, and_true]
  | some found =>
    obtain ⟨p, j⟩ := found
    refine (hrest key j).trans ?_
    have hsuits := ht.suits p key j (held_of_slot hslot)
    by_cases hp : p = .added
    · -- what has never been stored is forgotten
      subst hp
      have hj : ¬j.state.persistent = true := fun hj => hsuits.persistent.mp hj rfl
      have hadded : key ∈ t.added :=
        Std.ExtTreeMap.mem_iff_isSome_getElem?.mpr (Option.isSome_of_mem (held_of_slot hslot))
      simp [hj, hadded]
    · -- what is stored was held, so its id was not queued
      have hkey : key ∉ t.deleteIds := fun hkey =>
        h key hkey (ht.tracks_iff.mpr ⟨p, j, hp, hslot⟩)
      simp [hkey]

/-- Planning to delete an id moves the instance that is held under it, or there is none. -/
theorem Apart.deleteId (x : String) : (runFrom t (deleteId x)).2.Apart := by
  have hqueue : ∀ t' : Tracker α, t'.Apart → ¬t'.Tracks x →
      (runFrom t' (addDeleteId x)).2.Apart := by
    intro t' h' hx
    show (if t'.deleteIds.contains x then t'
      else { t' with deleteIds := t'.deleteIds ++ [x] }).Apart
    split
    · exact h'
    · intro y hy htracks
      rcases List.mem_append.mp hy with hy | hy
      · exact h' y hy htracks
      · exact hx (List.mem_singleton.mp hy ▸ htracks)
  unfold Tracker.deleteId
  rw [runFrom_bind_ok (ht.runFrom_pop x)]
  cases hslot : t.slot x with
  | none =>
    rw [without_of_slot hslot]
    refine hqueue t h fun htracks => ?_
    obtain ⟨p, i, -, hheld⟩ := ht.tracks_iff.mp htracks
    rw [hslot] at hheld
    cases hheld
  | some found =>
    obtain ⟨p, i⟩ := found
    have hsuits := ht.suits p x i (held_of_slot hslot)
    dsimp only
    split
    next hi =>
      rw [runFrom_putDeleted _ x hi]
      refine (apart_put_without ht h .deleted x _).mpr fun hand => ?_
      exact h x hand.2 (ht.tracks_iff.mpr ⟨p, i, hsuits.persistent.mp hi, hslot⟩)
    next hi =>
      -- an instance that has never been stored stays where it is
      have hp : p = .added := by
        by_contra hp
        exact hi (hsuits.persistent.mpr hp)
      have hmodify : runFrom (t.without x) (modify (·.put p x i) : Tracking α PUnit) =
          (.ok ⟨⟩, t) := Prod.ext rfl (put_without hslot)
      rw [runFrom_bind_ok hmodify]
      refine hqueue t h fun htracks => ?_
      obtain ⟨q, j, hq, hheld⟩ := ht.tracks_iff.mp htracks
      rw [hslot] at hheld
      exact hq ((Prod.mk.inj (Option.some.inj hheld)).1.symm.trans hp)

/-- Forgetting an instance keeps ids and instances apart. -/
theorem Apart.expunge (key : IdentityKey) : (runFrom t (expunge key)).2.Apart := by
  unfold Tracker.expunge
  rw [runFrom_bind_ok (ht.runFrom_pop key)]
  have hwithout := h.without ht key
  cases t.slot key <;> exact hwithout

end Edits

/-- Planning to delete what a tree matches queues no id. -/
theorem Apart.deleteMatching (h : t.Apart) (tree : Tree) :
    (runFrom t (deleteMatching tree)).2.Apart := by
  have hsame : (runFrom t (Tracker.deleteMatching tree)).2 = t ∨
      ∃ queries, (runFrom t (Tracker.deleteMatching tree)).2 =
        { t with deleteQueries := queries } := by
    unfold Tracker.deleteMatching
    rw [runFrom_bind_ok (runFrom_get t)]
    dsimp only
    split
    · exact .inl rfl
    · split
      · exact .inl rfl
      · exact .inr ⟨_, rfl⟩
  obtain heq | ⟨queries, heq⟩ := hsame
  · rwa [heq]
  · rw [heq]
    exact h

/-- Edits change nothing but the instances that are to be written. -/
theorem absorb_alike (edits : List EventInstance) : Alike t (runFrom t (absorb edits)).2 := by
  refine Meets.behind (keeps_absorb_of (P := Alike t) ?_) (.refl t)
  intro edited _ t' p i i' h hedits _
  have hp : p ≠ .deleted := by
    obtain rfl | rfl := hedits.written <;> simp
  exact h.trans (.put hedits.held hp i')

/-- A tracker holds instances that were read, under those keys of `K` where it held none. -/
structure Gains (t : Tracker α) (K : IdentityKey → Prop) (t' : Tracker α) : Prop where
  model : t'.model = t.model
  layout : t'.layout = t.layout
  added : t'.added = t.added
  deleteIds : t'.deleteIds = t.deleteIds
  tracks : ∀ key, t'.Tracks key ↔ t.Tracks key ∨ K key ∧ key ∉ t.added

namespace Gains

variable {K K' : IdentityKey → Prop}

theorem refl (t : Tracker α) : Gains t (fun _ => False) t := ⟨rfl, rfl, rfl, rfl, by simp⟩

theorem trans (h : Gains t K t₁) (h' : Gains t₁ K' t') :
    Gains t (fun key => K key ∨ K' key) t' := by
  refine ⟨h'.model.trans h.model, h'.layout.trans h.layout, h'.added.trans h.added,
    h'.deleteIds.trans h.deleteIds, fun key => ?_⟩
  rw [h'.tracks, h.tracks, h.added]
  tauto

/-- Ids and instances that were apart still are exactly if none of the keys was queued. -/
theorem apart_iff (h : Gains t K t') (hapart : t.Apart) :
    t'.Apart ↔ ¬∃ key, K key ∧ key ∈ t.deleteIds ∧ key ∉ t.added := by
  simp only [Apart, h.deleteIds, h.tracks]
  constructor
  · rintro h ⟨key, hkey, hqueued, hnew⟩
    exact h key hqueued (.inr ⟨hkey, hnew⟩)
  · rintro hnot key hqueued (htracks | ⟨hkey, hnew⟩)
    · exact hapart key hqueued htracks
    · exact hnot ⟨key, hkey, hqueued, hnew⟩

end Gains

/-- Holding an instance that was read, unless its key is held already. -/
theorem gains_markLoaded (t : Tracker α) (i : Instance α) :
    Gains t (· = i.identityKey t.model) (runFrom t (markLoaded i)).2 := by
  have hget : t.get? (i.identityKey t.model) = none ↔ t.Lacks (i.identityKey t.model) := by
    simp only [Tracker.get?, List.findSome?_eq_none_iff, Lacks]
    exact ⟨fun h p => h p (by cases p <;> simp [Partition.all]), fun h p _ => h p⟩
  unfold markLoaded
  rw [runFrom_bind_ok (runFrom_get t)]
  dsimp only
  split
  next held hheld =>
    -- the key is held, as added or as one of a stored instance
    refine ⟨rfl, rfl, rfl, rfl, fun key => ⟨.inl, ?_⟩⟩
    rintro (htracks | ⟨rfl, hnew⟩)
    · exact htracks
    · by_contra htracks
      have hlacks : t.Lacks (i.identityKey t.model) := by
        intro p
        rw [← Option.not_isSome_iff_eq_none]
        intro hsome
        by_cases hp : p = .added
        · subst hp
          exact hnew (Std.ExtTreeMap.mem_iff_isSome_getElem?.mpr hsome)
        · exact htracks (Tracker.tracks_iff.mpr ⟨p, hp, hsome⟩)
      rw [hget.mpr hlacks] at hheld
      cases hheld
  next hnone =>
    have hlacks := hget.mp hnone
    refine ⟨model_put .., layout_put .., rfl, deleteIds_put .., fun key => ?_⟩
    refine (tracks_put hlacks .loaded i key).trans ?_
    split
    next heq =>
      subst heq
      simp [hlacks.not_mem_added]
    next hne => simp [hne]

/-- The last of the lines that settle an id is a success about a write under it. -/
def WrittenLast (lines : List (InstanceOutcome Error)) (x : String) : Prop :=
  ∃ front o back, lines = front ++ o :: back ∧ o.action = .write ∧ o.error = none ∧
    o.id = some x ∧ ∀ o' ∈ back, ¬o'.Settles x

section Lines

variable {replies : List WriteReply} {o : InstanceOutcome Error}
  {lines more : List (InstanceOutcome Error)}

theorem writtenLast_nil : ¬WrittenLast [] x := by
  rintro ⟨front, o, back, hlines, -⟩
  simp at hlines

theorem writtenLast_cons :
    WrittenLast (o :: lines) x ↔ WrittenLast lines x ∨
      (o.action = .write ∧ o.error = none ∧ o.id = some x) ∧ ∀ o' ∈ lines, ¬o'.Settles x := by
  constructor
  · rintro ⟨front, o₁, back, hlines, haction, hsuccess, hid, hback⟩
    rcases List.cons_eq_append_iff.mp hlines with ⟨rfl, heq⟩ | ⟨front', rfl, heq⟩
    · obtain ⟨rfl, rfl⟩ := List.cons.inj heq
      exact .inr ⟨⟨haction, hsuccess, hid⟩, hback⟩
    · exact .inl ⟨front', o₁, back, heq, haction, hsuccess, hid, hback⟩
  · rintro (⟨front, o₁, back, rfl, hrest⟩ | ⟨⟨haction, hsuccess, hid⟩, hback⟩)
    · exact ⟨o :: front, o₁, back, rfl, hrest⟩
    · exact ⟨[], o, lines, rfl, haction, hsuccess, hid, hback⟩

/-- A line that settles an id leaves it tracked exactly if it is about a write under it. -/
theorem Takes.tracks_iff (h : Takes replies t o t') (ht : t.Sound) :
    t'.Tracks x ↔ (o.action = .write ∧ o.error = none ∧ o.id = some x) ∨
      t.Tracks x ∧ ¬o.Settles x := by
  by_cases hsettles : o.Settles x
  · rw [(h.sound ht).tracks_iff]
    simp only [hsettles, not_true_eq_false, and_false, or_false, hsettles.success, true_and]
    constructor
    · rintro ⟨p, i, -, hslot⟩
      by_contra hnot
      rw [h.slot_of_unwritten ht (fun haction _ hid => hnot ⟨haction, hid⟩), if_pos hsettles]
        at hslot
      cases hslot
    · rintro ⟨haction, hid⟩
      obtain ⟨ack, -, -, i, -, hack, -, -, hslot⟩ := h.exists_written ht haction hsettles.success
      obtain rfl := Option.some.inj (hid.symm.trans hack)
      exact ⟨.loaded, i, by simp, hslot⟩
  · have hnot : ¬(o.action = .write ∧ o.error = none ∧ o.id = some x) :=
      fun ⟨haction, hsuccess, hid⟩ => hsettles ⟨hsuccess, .inr ⟨haction, hid⟩⟩
    simp only [hnot, hsettles, not_false_eq_true, and_true, false_or,
      (h.sound ht).tracks_iff, ht.tracks_iff, h.slot_eq ht hsettles]

/-- An id is tracked behind lines if the last of them that settles it has written an instance under
it, or if it was tracked and none of them settles it. -/
theorem TakesAll.tracks_iff (h : TakesAll replies t lines t') (ht : t.Sound) :
    t'.Tracks x ↔ WrittenLast lines x ∨ t.Tracks x ∧ ∀ o ∈ lines, ¬o.Settles x := by
  induction h with
  | nil => simp [writtenLast_nil]
  | cons first _ ih =>
    rw [ih (first.sound ht), first.tracks_iff ht, writtenLast_cons, List.forall_mem_cons]
    tauto

end Lines

/-- Deletes of ids are held under the ids. -/
def Keyed (t : Tracker α) : Prop := ∀ d ∈ t.deleteEvents, ∀ x ∈ d.id, d.key = x

instance (t : Tracker α) : Decidable t.Keyed :=
  inferInstanceAs (Decidable (∀ d ∈ t.deleteEvents, ∀ x ∈ d.id, d.key = x))

/-- A delete of an id stays to be sent: the id has been refused or, where all deletes have failed,
it was queued by itself. -/
def Stays (t : Tracker α) (a : Session.Answer) (lines : List (InstanceOutcome Error))
    (x : String) : Prop :=
  if a.Evaluated then ∃ o ∈ lines, o.action = .delete ∧ o.error.isSome ∧ o.id = some x
  else x ∈ t.deleteIds

/-- A commit ends up with an id queued and tracked: its delete stays to be sent, and an instance was
written under it, or it was held without being asked to be deleted and nothing was done to it. -/
def Clashes (t : Tracker α) (a : Session.Answer) (lines : List (InstanceOutcome Error)) : Prop :=
  ∃ x, t.Stays a lines x ∧
    (WrittenLast lines x ∨ (t.Tracks x ∧ ¬t.Queued x) ∧ ∀ o ∈ lines, ¬o.Settles x)

namespace Settlement

variable {a : Session.Answer} {writes deletes : List (InstanceOutcome Error)}

/-- What is tracked behind a commit. -/
theorem tracks_iff (ht : t.Sound) (h : t.Settlement a writes deletes t₁ t') :
    t'.Tracks x ↔
      WrittenLast (writes ++ deletes) x ∨ t.Tracks x ∧ ∀ o ∈ writes ++ deletes, ¬o.Settles x := by
  obtain ⟨t₂, htakes, hheld⟩ := h.exists_takes_held
  rw [← htakes.tracks_iff ht]
  simp only [Tracker.tracks_iff, hheld]

/-- The lines about deletes are those that say so. -/
theorem mem_deletes_of_action (h : t.Settlement a writes deletes t₁ t')
    {o : InstanceOutcome Error} (ho : o ∈ writes ++ deletes) (haction : o.action = .delete) :
    o ∈ deletes := by
  refine (List.mem_append.mp ho).resolve_left fun ho => ?_
  rw [h.action_of_mem_writes ho] at haction
  cases haction

/-- The lines about writes are those that say so. -/
theorem mem_writes_of_action (h : t.Settlement a writes deletes t₁ t')
    {o : InstanceOutcome Error} (ho : o ∈ writes ++ deletes) (haction : o.action = .write) :
    o ∈ writes := by
  refine (List.mem_append.mp ho).resolve_right fun ho => ?_
  rw [h.action_of_mem_deletes ho] at haction
  cases haction

/-- A line about the delete of an id is about the id as a key. -/
theorem key_of_mem_deletes (hkeyed : t.Keyed) (h : t.Settlement a writes deletes t₁ t')
    (hasked : a.prepared.deletes = t.deleteEvents) {o : InstanceOutcome Error} (ho : o ∈ deletes)
    (hid : o.id = some x) : o.key = x := by
  obtain ⟨others, hlines, -⟩ := h.asked
  have hline := List.mem_map_of_mem (f := fun o => (o.subject, o.id)) ho
  rw [hlines, List.mem_append, List.mem_map, List.mem_map, hasked] at hline
  simp only [deleteLine, InstanceOutcome.subject, Prod.mk.injEq] at hline
  obtain ⟨d, hd, ⟨-, -, hkey⟩, hdid⟩ | ⟨y, -, ⟨-, -, hkey⟩, hyid⟩ := hline
  · rw [← hkey]
    exact hkeyed d hd x (hdid.trans hid)
  · rw [← hkey]
    exact Option.some.inj (hyid.trans hid)

/-- An instance that was to be deleted and that no success is about still is. -/
theorem slot_deleted (ht : t.Sound) (h : t.Settlement a writes deletes t₁ t')
    (hnone : ∀ o ∈ writes ++ deletes, ¬o.Settles key) (hi : t.slot key = some (.deleted, i)) :
    t'.slot key = some (.deleted, i) := by
  obtain ⟨t₂, htakes, hheld⟩ := h.exists_takes_held
  have hslot := (htakes.slot_eq ht hnone).trans hi
  have ht₂ := htakes.sound ht
  rw [ht₂.slot_eq_some_iff, ← hheld] at hslot
  exact (ht₂.congr hheld).slot_eq_some_iff.mpr hslot

variable (ht : t.Sound) (hapart : t.Apart) (hkeyed : t.Keyed)
  (h : t.Settlement a writes deletes t₁ t') (hasked : a.prepared.deletes = t.deleteEvents)
include ht hkeyed h hasked

/-- A refused id under which an instance was written is queued again. -/
theorem mem_deleteIds_of_writtenLast (hevaluated : a.Evaluated) {o : InstanceOutcome Error}
    (ho : o ∈ deletes) (herror : o.error.isSome) (hid : o.id = some x)
    (hwritten : WrittenLast (writes ++ deletes) x) : x ∈ t'.deleteIds := by
  obtain ⟨y, hy, hpending⟩ := (h.evaluated hevaluated).pending o ho herror
  obtain rfl := Option.some.inj (hy.symm.trans hid)
  refine hpending.resolve_right fun ⟨i, hi⟩ => ?_
  -- what was written under the id has taken the place of what was to be deleted
  obtain ⟨front, o₁, back, hlines, haction, hsuccess, hid₁, -⟩ := hwritten
  have ho₁ := h.mem_writes_of_action (o := o₁) (by simp [hlines]) haction
  have hclean := h.written.clean_of_settles ht ho₁ ⟨hsuccess, .inr ⟨haction, hid₁⟩⟩
  rw [h.key_of_mem_deletes hkeyed hasked ho hid] at hi
  cases hclean _ _ hi

include hapart

/-- An id that is queued behind a commit was not asked to be deleted, if it was tracked before and
nothing was done to it. -/
theorem not_queued_of_mem_deleteIds (hevaluated : a.Evaluated) (hx : x ∈ t'.deleteIds)
    (htracked : t.Tracks x) (hnone : ∀ o ∈ writes ++ deletes, ¬o.Settles x) : ¬t.Queued x := by
  intro hqueued
  obtain ⟨o, ho, -, hid, hpending⟩ := (h.evaluated hevaluated).failed x hx
  rcases queued_iff.mp hqueued with ⟨key, i, hi, hix⟩ | hqueued
  · have hslot : t.slot key = some (.deleted, i) := ht.slot_eq_some_iff.mpr hi
    have hevent := mem_deleteEvents_of_slot hslot
    obtain rfl := hkeyed _ hevent x hix
    refine hpending (hasked ▸ hix ▸ List.mem_map_of_mem hevent) i ?_
    rw [h.key_of_mem_deletes hkeyed hasked ho hid]
    exact h.slot_deleted ht hnone hslot
  · exact hapart x hqueued htracked

/-- An id is queued and tracked behind a commit exactly if it clashes. -/
theorem queued_and_tracked_iff (x : String) :
    (x ∈ t'.deleteIds ∧ t'.Tracks x) ↔ t.Stays a (writes ++ deletes) x ∧
      (WrittenLast (writes ++ deletes) x ∨
        (t.Tracks x ∧ ¬t.Queued x) ∧ ∀ o ∈ writes ++ deletes, ¬o.Settles x) := by
  rw [h.tracks_iff ht, Stays]
  split
  next hevaluated =>
    have hsettled := h.evaluated hevaluated
    constructor
    · rintro ⟨hx, hwritten⟩
      obtain ⟨o, ho, herror, hid, -⟩ := hsettled.failed x hx
      refine ⟨⟨o, List.mem_append_right _ ho, h.action_of_mem_deletes ho, herror, hid⟩,
        hwritten.imp_right fun ⟨htracked, hnone⟩ => ⟨⟨htracked, ?_⟩, hnone⟩⟩
      exact h.not_queued_of_mem_deleteIds ht hapart hkeyed hasked hevaluated hx htracked hnone
    · rintro ⟨⟨o, ho, haction, herror, hid⟩, hwritten⟩
      have ho := h.mem_deletes_of_action ho haction
      rcases hwritten with hwritten | ⟨⟨htracked, hqueued⟩, hnone⟩
      · exact ⟨h.mem_deleteIds_of_writtenLast ht hkeyed hasked hevaluated ho herror hid hwritten,
          .inl hwritten⟩
      · refine ⟨hsettled.unasked o ho herror x hid fun hmem => hqueued ?_, .inr ⟨htracked, hnone⟩⟩
        obtain ⟨d, hd, hdid⟩ := List.mem_map.mp hmem
        exact ⟨d, hasked ▸ hd, hdid⟩
  next hevaluated =>
    -- the queue is as it was, and nothing in it was tracked
    obtain ⟨rfl, -⟩ := h.unevaluated hevaluated
    rw [(terms_eq_iff.mp h.written.terms_eq).2.2.1]
    refine and_congr_right fun hx => or_congr_right (and_congr_left' ?_)
    exact ⟨fun htracked => absurd htracked (hapart x hx), fun hand => absurd hand.1 (hapart x hx)⟩

/-- Lines that were taken over keep ids and instances apart exactly if no id clashes. -/
theorem apart_iff : t'.Apart ↔ ¬t.Clashes a (writes ++ deletes) := by
  rw [Apart, Clashes, ← not_iff_not, not_not]
  push Not
  exact exists_congr (h.queued_and_tracked_iff ht hapart hkeyed hasked)

end Settlement

end Tracker

end KeyedRecords
