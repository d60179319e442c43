import KeyedRecords.Proofs.Session.Phases

/-!
# What stays pending

A commit that has come to its report leaves pending what failed, unless a success of the same commit
is about the same key (`Session.failed_pending`). One that succeeds leaves nothing pending, unless
the ids that queries were to delete could not be collected: no line tells of a query
(`Session.nothing_pending`).
-/

namespace KeyedRecords

namespace Tracker

variable {α : Type} {t t' t₁ : Tracker α} {a : Session.Answer} {p : Partition} {i : Instance α}
  {key : IdentityKey} {x : String} {o : InstanceOutcome Error}
  {writes deletes : List (InstanceOutcome Error)}

/-- An id is queued for deletion, as that of an instance or by itself. -/
def Queued (t : Tracker α) (x : String) : Prop := ∃ d ∈ t.deleteEvents, d.id = some x

/-- An id is queued exactly if an instance with it is to be deleted, or the id itself. -/
theorem queued_iff :
    t.Queued x ↔ (∃ (key : IdentityKey) (i : Instance α), t.deleted[key]? = some i ∧
      i.id? t.model = some x) ∨ x ∈ t.deleteIds := by
  simp only [Queued, deleteEvents, eventInstance, List.mem_append, List.mem_map, Prod.exists,
    Std.ExtTreeMap.mem_toList_iff_getElem?_eq_some, or_and_right, exists_or]
  constructor
  · rintro (⟨_, ⟨key, i, hi, rfl⟩, hid⟩ | ⟨_, ⟨y, hy, rfl⟩, hid⟩)
    · exact .inl ⟨key, i, hi, hid⟩
    · exact .inr (Option.some.inj hid ▸ hy)
  · rintro (⟨key, i, hi, hid⟩ | hx)
    · exact .inl ⟨_, ⟨key, i, hi, rfl⟩, hid⟩
    · exact .inr ⟨_, ⟨x, hx, rfl⟩, rfl⟩

/-- An instance that is to be deleted is one of the deletes. -/
theorem mem_deleteEvents_of_slot (h : t.slot key = some (.deleted, i)) :
    t.eventInstance key i ∈ t.deleteEvents := by
  refine List.mem_append_left _ (List.mem_map.mpr ⟨(key, i), ?_, rfl⟩)
  exact Std.ExtTreeMap.mem_toList_iff_getElem?_eq_some.mpr (held_of_slot h)

/-- The deletes of an id are those under the key that is the id. -/
def Owns (t : Tracker α) (x : String) : Prop := ∀ d ∈ t.deleteEvents, d.key = x ↔ d.id = some x

namespace Settlement

/-- Each instance that is to be written has one line. -/
theorem subjects_writes (h : t.Settlement a writes deletes t₁ t') {session : SessionId}
    {validate : Bool} {lifetime n : Nat}
    (hprepare : t.prepare session validate lifetime n = .ok a.prepared) :
    (writes.map (·.subject)).Perm
      (t.dirty.map fun entry => (t.layout.name, CommitAction.write, entry.1)) := by
  have hkeys := (keys_of_prepare hprepare).map fun key =>
    ((t.layout.name, CommitAction.write, key) : String × CommitAction × IdentityKey)
  rw [h.subjects]
  simpa [List.map_map, Function.comp_def] using hkeys

/-- Each delete that was asked for has a line, and each other id has one at most. -/
theorem asked (h : t.Settlement a writes deletes t₁ t') :
    ∃ others : List String,
      deletes.map (fun o => (o.subject, o.id)) =
        a.prepared.deletes.map (fun d => t.deleteLine d.key d.id) ++
          others.map (fun x => t.deleteLine x (some x)) ∧
      others.Nodup ∧ ∀ x ∈ others, some x ∉ a.prepared.deletes.map (·.id) := by
  by_cases hevaluated : a.Evaluated
  · obtain ⟨others, hlines, hothers⟩ := (h.evaluated hevaluated).asked
    refine ⟨others, ?_, hothers⟩
    rw [hlines]
    simp only [deleteLine, h.written.layout_eq]
  · obtain ⟨-, e, rfl⟩ := h.unevaluated hevaluated
    refine ⟨[], ?_, .nil, by simp⟩
    rw [failedDeletes, List.map_map, List.map_nil, List.append_nil]
    simp [deleteLine, deleteOutcome, InstanceOutcome.subject]

/-- The ids of the lines about deletes are those that were asked for, and others. -/
theorem asked_ids (h : t.Settlement a writes deletes t₁ t') :
    ∃ others : List String, deletes.map (·.id) = a.prepared.deletes.map (·.id) ++ others.map some ∧
      others.Nodup ∧ ∀ x ∈ others, some x ∉ a.prepared.deletes.map (·.id) := by
  obtain ⟨others, hlines, hothers⟩ := h.asked
  refine ⟨others, ?_, hothers⟩
  simpa [List.map_map, Function.comp_def, deleteLine] using congrArg (List.map Prod.snd) hlines

/-- All lines have been taken over, and but for what is to be deleted the tracker is as they leave
it. -/
theorem exists_takes (h : t.Settlement a writes deletes t₁ t') :
    ∃ t₂, TakesAll a.writes t (writes ++ deletes) t₂ ∧
      t' = { t₂ with deleteIds := t'.deleteIds, deleteQueries := t'.deleteQueries } := by
  by_cases hevaluated : a.Evaluated
  · obtain ⟨t₂, htakes, ht'⟩ := (h.evaluated hevaluated).takes
    refine ⟨t₂, h.written.append htakes, ?_⟩
    rw [ht']
  · obtain ⟨rfl, e, rfl⟩ := h.unevaluated hevaluated
    refine ⟨t', h.written.append (.of_failed fun o ho => ?_), rfl⟩
    obtain ⟨d, -, rfl⟩ := List.mem_map.mp ho
    rfl

theorem exists_takes_held (h : t.Settlement a writes deletes t₁ t') :
    ∃ t₂, TakesAll a.writes t (writes ++ deletes) t₂ ∧ ∀ p, t'.held p = t₂.held p := by
  obtain ⟨t₂, htakes, ht'⟩ := h.exists_takes
  refine ⟨t₂, htakes, fun p => ?_⟩
  rw [ht']
  cases p <;> rfl

/-- What is pending stays so exactly if no success is about its key. -/
theorem held_iff (ht : t.Sound) (h : t.Settlement a writes deletes t₁ t') (hp : p ≠ .loaded)
    (hi : (t.held p)[key]? = some i) :
    (t'.held p)[key]? = some i ↔ ∀ o ∈ writes ++ deletes, ¬o.Settles key := by
  obtain ⟨t₂, htakes, hheld⟩ := h.exists_takes_held
  rw [hheld, ← (htakes.sound ht).slot_eq_some_iff]
  exact htakes.slot_eq_some_iff ht hp (ht.slot_eq_some_iff.mpr hi)

/-- What is pending behind a commit was so before, and no success is about it. -/
theorem held_of_held (ht : t.Sound) (h : t.Settlement a writes deletes t₁ t') (hp : p ≠ .loaded)
    (hi : (t'.held p)[key]? = some i) :
    (t.held p)[key]? = some i ∧ ∀ o ∈ writes ++ deletes, ¬o.Settles key := by
  obtain ⟨t₂, htakes, hheld⟩ := h.exists_takes_held
  rw [hheld, ← (htakes.sound ht).slot_eq_some_iff] at hi
  obtain ⟨hslot, hnone⟩ := htakes.slot_of_pending ht hp hi
  exact ⟨held_of_slot hslot, hnone⟩

/-- Commits do not change the model. -/
theorem model_eq (h : t.Settlement a writes deletes t₁ t') : t'.model = t.model := by
  obtain ⟨t₂, htakes, ht'⟩ := h.exists_takes
  rw [ht', ← (terms_eq_iff.mp htakes.terms_eq).1]

/-- A line about a write says so. -/
theorem action_of_mem_writes (h : t.Settlement a writes deletes t₁ t') (ho : o ∈ writes) :
    o.action = .write := by
  have hmem := List.mem_map_of_mem (f := InstanceOutcome.subject) ho
  rw [h.subjects, List.mem_append, List.mem_map, List.mem_map] at hmem
  obtain ⟨_, -, heq⟩ | ⟨_, -, heq⟩ := hmem
  all_goals exact (Prod.mk.inj (Prod.mk.inj heq).2).1.symm

/-- A line about a delete says so. -/
theorem action_of_mem_deletes (h : t.Settlement a writes deletes t₁ t') (ho : o ∈ deletes) :
    o.action = .delete := by
  obtain ⟨others, hlines, -⟩ := h.asked
  have hmem := List.mem_map_of_mem (f := fun o => (o.subject, o.id)) ho
  rw [hlines, List.mem_append, List.mem_map, List.mem_map] at hmem
  obtain ⟨d, -, heq⟩ | ⟨x, -, heq⟩ := hmem
  all_goals exact (Prod.mk.inj (Prod.mk.inj (Prod.mk.inj heq).1).2).1.symm

/-- The lines about deletes of an id are those about the key that is the id. -/
theorem key_iff_of_mem_deletes (h : t.Settlement a writes deletes t₁ t')
    (hasked : a.prepared.deletes = t.deleteEvents) (hown : t.Owns x) (ho : o ∈ deletes) :
    o.key = x ↔ o.id = some x := by
  obtain ⟨others, hlines, -⟩ := h.asked
  have hmem := List.mem_map_of_mem (f := fun o => (o.subject, o.id)) ho
  rw [hlines, List.mem_append, List.mem_map, List.mem_map, hasked] at hmem
  have hline : ∀ {key id}, t.deleteLine key id = (o.subject, o.id) → o.key = key ∧ o.id = id :=
    fun heq => ⟨(Prod.mk.inj (Prod.mk.inj (Prod.mk.inj heq).1).2).2.symm, (Prod.mk.inj heq).2.symm⟩
  obtain ⟨d, hd, heq⟩ | ⟨y, -, heq⟩ := hmem
  · obtain ⟨hkey, hid⟩ := hline heq
    rw [hkey, hid]
    exact hown d hd
  · obtain ⟨hkey, hid⟩ := hline heq
    rw [hkey, hid, Option.some.injEq]

/-- An id that was asked for once at most has one line at most. -/
theorem count_id_le_one (h : t.Settlement a writes deletes t₁ t')
    (honce : (a.prepared.deletes.map (·.id)).count (some x) ≤ 1) :
    (deletes.map (·.id)).count (some x) ≤ 1 := by
  obtain ⟨others, hids, hothers, hnot⟩ := h.asked_ids
  rw [hids, List.count_append]
  by_cases hx : x ∈ others
  · have hzero := List.count_eq_zero.mpr (hnot x hx)
    have hnodup := List.nodup_iff_count_le_one.mp
      (hothers.map fun _ _ h => Option.some.inj h) (some x)
    omega
  · have hzero : (others.map some).count (some x) = 0 :=
      List.count_eq_zero.mpr fun hmem => by
        obtain ⟨y, hy, heq⟩ := List.mem_map.mp hmem
        exact hx (Option.some.inj heq ▸ hy)
    omega

/-- An id of which a delete has failed is queued and not also reported as deleted exactly if it was
asked for once, where each delete is settled by itself. -/
theorem delete_pending_of_evaluated (ht : t.Sound) (h : t.Settlement a writes deletes t₁ t')
    (hasked : a.prepared.deletes = t.deleteEvents) (hown : t.Owns x) (ho : o ∈ deletes)
    (herror : o.error.isSome) (hid : o.id = some x) (hevaluated : a.Evaluated) :
    (t'.Queued x ∧ ∀ o' ∈ deletes, o'.error = none → o'.id ≠ some x) ↔
      (t.deleteEvents.map (·.id)).count (some x) ≤ 1 := by
  have hsettled := h.evaluated hevaluated
  constructor
  · rintro ⟨-, hunreported⟩
    -- all lines about the id are failures, and no two failures are about one id
    obtain ⟨others, hids, -⟩ := h.asked_ids
    have hall : (deletes.map (·.id)).count (some x) =
        ((deletes.filter (·.error.isSome)).map (·.id)).count (some x) := by
      simp only [List.count, List.countP_map, List.countP_filter]
      refine List.countP_congr fun o' ho' => ?_
      simp only [Function.comp_apply, beq_iff_eq, Bool.and_eq_true]
      refine ⟨fun hx => ⟨hx, ?_⟩, fun hx => hx.1⟩
      cases herror' : o'.error with
      | none => exact absurd hx (hunreported o' ho' herror')
      | some e => rfl
    have honce := List.nodup_iff_count_le_one.mp hsettled.once (some x)
    rw [← hall, hids, List.count_append] at honce
    rw [← hasked]
    omega
  · intro honce
    rw [← hasked] at honce
    have hsole : ∀ o' ∈ deletes, o'.id = some x → o' = o := fun o' ho' hid' =>
      eq_of_count_map_le_one ho' ho hid' hid (h.count_id_le_one honce)
    have hunreported : ∀ o' ∈ deletes, o'.error = none → o'.id ≠ some x := by
      intro o' ho' hsuccess hid'
      rw [← hsole o' ho' hid', hsuccess] at herror
      cases herror
    refine ⟨queued_iff.mpr ?_, hunreported⟩
    obtain ⟨y, hy, hpending⟩ := hsettled.pending o ho herror
    obtain rfl := Option.some.inj (hy.symm.trans hid)
    rcases hpending with hretry | ⟨i, hi⟩
    · exact .inr hretry
    · obtain rfl := (h.key_iff_of_mem_deletes hasked hown ho).mpr hid
      -- no line about a delete settles the key, and those about writes have left the instance
      have hslot := (h.written.slot_of_pending ht (by simp) hi).1
      obtain ⟨t₂, htakes, ht'⟩ := hsettled.takes
      have hheld := (htakes.slot_eq_some_iff (h.written.sound ht) (by simp) hi).mpr
        fun o' ho' hsettles => by
          have hkey := hsettles.about.resolve_right fun hwrite => by
            rw [h.action_of_mem_deletes ho'] at hwrite
            cases hwrite.1
          exact hunreported o' ho' hsettles.success
            ((h.key_iff_of_mem_deletes hasked hown ho').mp hkey)
      refine .inl ⟨o.key, i, ?_, ?_⟩
      · rw [ht']
        exact held_of_slot hheld
      · rw [h.model_eq]
        exact (hown _ (mem_deleteEvents_of_slot hslot)).mp rfl

/-- Where all deletes have failed, an id stays queued exactly if it is queued by itself, or if no
success is about its key. -/
theorem delete_pending_of_unevaluated (ht : t.Sound) (h : t.Settlement a writes deletes t₁ t')
    (hasked : a.prepared.deletes = t.deleteEvents) (hown : t.Owns x) (ho : o ∈ deletes)
    (hid : o.id = some x) (hevaluated : ¬a.Evaluated) :
    (t'.Queued x ∧ ∀ o' ∈ deletes, o'.error = none → o'.id ≠ some x) ↔
      x ∈ t.deleteIds ∨ ∀ o' ∈ writes ++ deletes, ¬o'.Settles x := by
  obtain ⟨rfl, e, hdeletes⟩ := h.unevaluated hevaluated
  have hunreported : ∀ o' ∈ deletes, o'.error = none → o'.id ≠ some x := by
    intro o' ho' hsuccess
    rw [hdeletes] at ho'
    obtain ⟨d, -, rfl⟩ := List.mem_map.mp ho'
    cases hsuccess
  obtain ⟨-, -, hids, -⟩ := terms_eq_iff.mp h.written.terms_eq
  rw [and_iff_left hunreported, queued_iff, hids, h.model_eq]
  -- some delete is about the id: that of an instance, or of the id itself
  have hqueued : t.Queued x := by
    rw [hdeletes] at ho
    obtain ⟨d, hd, rfl⟩ := List.mem_map.mp ho
    exact ⟨d, hasked ▸ hd, hid⟩
  have hkey : ∀ {key : IdentityKey} {i : Instance α}, t.deleted[key]? = some i →
      i.id? t.model = some x → key = x := fun hi hix =>
    (hown _ (mem_deleteEvents_of_slot (ht.slot_eq_some_iff.mpr hi))).mpr hix
  constructor
  · rintro (⟨key, i, hi, hix⟩ | hx)
    · obtain ⟨hi, hnone⟩ := h.held_of_held ht (p := .deleted) (by simp) hi
      exact .inr (hkey hi hix ▸ hnone)
    · exact .inl hx
  · rintro (hx | hnone)
    · exact .inr hx
    · rcases queued_iff.mp hqueued with ⟨key, i, hi, hix⟩ | hx
      · obtain rfl := hkey hi hix
        exact .inl ⟨key, i, (h.held_iff ht (p := .deleted) (by simp) hi).mpr hnone, hix⟩
      · exact .inr hx

/-- If all lines are successes, no instance is to be written any more. -/
theorem dirty_eq_nil (ht : t.Sound) (h : t.Settlement a writes deletes t₁ t')
    {session : SessionId} {validate : Bool} {lifetime n : Nat}
    (hprepare : t.prepare session validate lifetime n = .ok a.prepared)
    (hsuccess : ∀ o ∈ writes ++ deletes, o.error = none) : t'.dirty = [] := by
  have hnone : ∀ {p : Partition} {key : IdentityKey} {i : Instance α}, p = .added ∨ p = .modified →
      (t'.held p)[key]? ≠ some i := by
    intro p key i hp hi
    obtain ⟨hi, hunsettled⟩ := h.held_of_held ht (by rcases hp with rfl | rfl <;> simp) hi
    have hdirty : (key, i) ∈ t.dirty := by
      rw [ht.mem_dirty_iff, ht.slot_eq_some_iff, ht.slot_eq_some_iff]
      rcases hp with rfl | rfl
      · exact .inl hi
      · exact .inr hi
    -- the instance has a line, which settles its key
    have hsubject := (h.subjects_writes hprepare).symm.subset (List.mem_map_of_mem hdirty)
    obtain ⟨o, ho, heq⟩ := List.mem_map.mp hsubject
    have ho := List.mem_append_left deletes ho
    exact hunsettled o ho ⟨hsuccess o ho, .inl (Prod.mk.inj (Prod.mk.inj heq).2).2⟩
  refine List.eq_nil_iff_forall_not_mem.mpr fun ⟨key, i⟩ hi => ?_
  rw [dirty, List.mem_append, Std.ExtTreeMap.mem_toList_iff_getElem?_eq_some,
    Std.ExtTreeMap.mem_toList_iff_getElem?_eq_some] at hi
  exact hi.elim (hnone (.inl rfl)) (hnone (.inr rfl))

/-- If all lines are successes, no known id is to be deleted any more. -/
theorem deleteEvents_eq_nil (ht : t.Sound) (h : t.Settlement a writes deletes t₁ t')
    (hasked : a.prepared.deletes = t.deleteEvents)
    (hsuccess : ∀ o ∈ writes ++ deletes, o.error = none) : t'.deleteEvents = [] := by
  have hdeleted : t'.deleted.toList = [] := by
    refine List.eq_nil_iff_forall_not_mem.mpr fun ⟨key, i⟩ hi => ?_
    rw [Std.ExtTreeMap.mem_toList_iff_getElem?_eq_some] at hi
    obtain ⟨hi, hunsettled⟩ := h.held_of_held ht (p := .deleted) (by simp) hi
    have hevent := mem_deleteEvents_of_slot (ht.slot_eq_some_iff.mpr hi)
    obtain ⟨others, hlines, -⟩ := h.asked
    have hline : t.deleteLine key (i.id? t.model) ∈ deletes.map fun o => (o.subject, o.id) := by
      rw [hlines, hasked]
      exact List.mem_append_left _ (List.mem_map_of_mem hevent)
    obtain ⟨o, ho, heq⟩ := List.mem_map.mp hline
    have ho := List.mem_append_right writes ho
    have hkey := (Prod.mk.inj (Prod.mk.inj (Prod.mk.inj heq).1).2).2
    exact hunsettled o ho ⟨hsuccess o ho, .inl hkey⟩
  have hids : t'.deleteIds = [] := by
    by_cases hevaluated : a.Evaluated
    · refine List.eq_nil_iff_forall_not_mem.mpr fun x hx => ?_
      obtain ⟨o, ho, herror, -⟩ := (h.evaluated hevaluated).failed x hx
      rw [hsuccess o (List.mem_append_right _ ho)] at herror
      cases herror
    · -- had there been a delete, it would have failed
      obtain ⟨rfl, e, rfl⟩ := h.unevaluated hevaluated
      have hevents : t.deleteEvents = [] := by
        refine List.eq_nil_iff_forall_not_mem.mpr fun d hd => ?_
        have hmem : t.deleteOutcome d.key d.id (some (.backend e)) ∈ t.failedDeletes a.prepared e :=
          List.mem_map_of_mem (hasked ▸ hd)
        exact nomatch hsuccess _ (List.mem_append_right _ hmem)
      obtain ⟨-, -, hids, -⟩ := terms_eq_iff.mp h.written.terms_eq
      rw [deleteEvents, List.append_eq_nil_iff, List.map_eq_nil_iff, List.map_eq_nil_iff] at hevents
      rw [hids, hevents.2]
  rw [deleteEvents, hdeleted, hids]
  rfl

/-- Queries are forgotten when their ids could be collected. -/
theorem deleteQueries_eq_nil_iff (h : t.Settlement a writes deletes t₁ t') :
    t'.deleteQueries = [] ↔ a.Evaluated ∨ t.deleteQueries = [] := by
  by_cases hevaluated : a.Evaluated
  · obtain ⟨t₂, -, ht'⟩ := (h.evaluated hevaluated).takes
    rw [ht']
    simp [hevaluated]
  · obtain ⟨rfl, -⟩ := h.unevaluated hevaluated
    obtain ⟨-, -, -, hqueries⟩ := terms_eq_iff.mp h.written.terms_eq
    rw [hqueries, or_iff_right hevaluated]

end Settlement

end Tracker

namespace Session

open Operation

variable {α σ : Type} {w w₁ w' : Work α σ} {shares : List (Share α)} {report : CommitReport Error}

namespace Share

/-- An id of which a delete has failed is to stay queued: it was queued once, or, where all deletes
have failed, it was queued by itself or no success is about its key. -/
def KeepsDelete (s : Share α) (x : String) : Prop :=
  if s.answer.Evaluated then (s.before.deleteEvents.map (·.id)).count (some x) ≤ 1
  else x ∈ s.before.deleteIds ∨ ∀ o ∈ s.applied.outcomes, ¬o.Settles x

/-- What has failed stays pending, as far as nothing else of the commit gets in its way. -/
structure FailuresPending (s : Share α) : Prop where
  /-- An instance whose write has failed was to be written, and still is, exactly if no success is
  about its key. -/
  write : ∀ o ∈ s.applied.outcomes, o.action = .write → o.error.isSome →
    ∃ p i, (p = .added ∨ p = .modified) ∧ (s.before.held p)[o.key]? = some i ∧
      ((s.after.held p)[o.key]? = some i ↔ ∀ o' ∈ s.applied.outcomes, ¬o'.Settles o.key)
  /-- An id of which a delete has failed is queued and not also reported as deleted, exactly if it
  was queued once and nothing was written in the place of what is to be deleted. -/
  delete : ∀ o ∈ s.applied.outcomes, o.action = .delete → o.error.isSome →
    ∀ x, o.id = some x → s.before.Owns x →
      ((s.after.Queued x ∧ ∀ o' ∈ s.applied.outcomes, o'.action = .delete → o'.error = none →
        o'.id ≠ some x) ↔ s.KeepsDelete x)

end Share

/-- Behind a commit that has come to its report, what has failed is pending. -/
theorem failed_pending (hw : Reachable w) (hlink : w.client.fault = .none)
    (h : Commits w w₁ shares report w') :
    runFrom w commit = (verdict report, w') ∧
      report.outcomes = shares.flatMap (·.applied.outcomes) ∧
      w'.session.trackers = shares.map (·.after) ∧ ∀ s ∈ shares, s.FailuresPending := by
  refine ⟨h.runFrom_commit, h.outcomes_eq, h.trackers_eq, fun s hs => ?_⟩
  obtain ⟨ht, ⟨session, validate, lifetime, n, hprepare⟩, writes, deletes, t₁, houtcomes,
    hsettlement⟩ := h.settlement hlink hw s hs
  have hasked := Tracker.deletes_of_prepare hprepare
  have hsubjects := hsettlement.subjects_writes hprepare
  have hwrites : ∀ o ∈ writes, ∃ i, (o.key, i) ∈ s.before.dirty := by
    intro o ho
    obtain ⟨⟨key, i⟩, hi, heq⟩ := List.mem_map.mp (hsubjects.subset (List.mem_map_of_mem ho))
    obtain ⟨-, -, hkey⟩ := by simpa [InstanceOutcome.subject] using heq
    exact ⟨i, hkey ▸ hi⟩
  -- a line is among those of writes or those of deletes as its action says
  have hdeletes : ∀ o ∈ s.applied.outcomes, o.action = .delete → o ∈ deletes := by
    intro o ho haction
    rw [houtcomes] at ho
    refine (List.mem_append.mp ho).resolve_left fun ho => ?_
    rw [hsettlement.action_of_mem_writes ho] at haction
    cases haction
  constructor
  case write =>
    intro o ho haction _
    have ho : o ∈ writes := by
      rw [houtcomes] at ho
      refine (List.mem_append.mp ho).resolve_right fun ho => ?_
      rw [hsettlement.action_of_mem_deletes ho] at haction
      cases haction
    obtain ⟨i, hi⟩ := hwrites o ho
    rw [houtcomes]
    rcases ht.mem_dirty_iff.mp hi with hslot | hslot
    · have hi := Tracker.held_of_slot hslot
      exact ⟨.added, i, .inl rfl, hi, hsettlement.held_iff ht (by simp) hi⟩
    · have hi := Tracker.held_of_slot hslot
      exact ⟨.modified, i, .inr rfl, hi, hsettlement.held_iff ht (by simp) hi⟩
  case delete =>
    intro o ho haction herror x hid hown
    have hreported : (∀ o' ∈ s.applied.outcomes, o'.action = .delete → o'.error = none →
        o'.id ≠ some x) ↔ ∀ o' ∈ deletes, o'.error = none → o'.id ≠ some x :=
      ⟨fun h o' ho' => h o' (houtcomes ▸ List.mem_append_right _ ho')
          (hsettlement.action_of_mem_deletes ho'),
        fun h o' ho' haction' => h o' (hdeletes o' ho' haction')⟩
    rw [hreported, Share.KeepsDelete, houtcomes]
    have ho := hdeletes o ho haction
    split
    next hevaluated =>
      exact hsettlement.delete_pending_of_evaluated ht hasked hown ho herror hid hevaluated
    next hevaluated =>
      exact hsettlement.delete_pending_of_unevaluated ht hasked hown ho hid hevaluated

/-- A session over an empty store in which heroes are registered. -/
def amongHeroes : Work Record Unit :=
  ⟨.start ⟨1⟩ ⟨.standard, [CommitScript.heroes]⟩ .standard, .ofServer (.empty (.manual 0)), ⟨⟩⟩

/-- A hero of the red team that was never stored. -/
def newHero (placeholder : IdentityKey) (id : Value) (name : String) : Instance Record :=
  ⟨⟨[("id", id), ("name", .text name), ("team", .text "red"), ("handle", .null),
    ("version", .int 0)]⟩, .fresh placeholder⟩

/-- A session where others have run commands meanwhile. -/
def meanwhile (commands : List Command) (w : Work Record Unit) : Work Record Unit :=
  { w with client := { w.client with server := (w.client.server.pipeline commands).2 } }

/-- The second of two heroes has too long a name, and the first cannot be deleted, for there is a
text where the ids of its team belong. -/
theorem failed_pending_heroes :
    ∃ (w w₁ w' : Work Record Unit) (shares : List (Share Record)) (report : CommitReport Error),
      Reachable w ∧ w.client.fault = .none ∧ Commits w w₁ shares report w' ∧
      (report.outcomes.map fun o => (o.action, o.id, o.error.isSome)) =
        [(.write, none, true), (.delete, some "1", true)] ∧
      runFrom w commit = (verdict report, w') ∧
      report.outcomes = shares.flatMap (·.applied.outcomes) ∧
      w'.session.trackers = shares.map (·.after) ∧ ∀ s ∈ shares, s.FailuresPending := by
  let m : Model Record := Sample.hero.model
  let stored := (runFrom (runFrom amongHeroes (add m (newHero "new:1" .null "Ada"))).2 commit).2
  let spoilt := meanwhile [.set (CommitScript.heroes.keys.index "team" "red") "x"] stored
  let w := (runFrom (runFrom spoilt (deleteKey m (.int 1))).2
    (add m (newHero "new:2" .null "A name far too long"))).2
  have hw : Reachable w :=
    ((((Reachable.start _ _ _ _ _).add m _).commit.meanwhile _ _).deleteKey m _).add m _
  obtain ⟨w₁, shares, report, w', h⟩ :=
    exists_commits_of_isOk hw (by decide +kernel) (by decide +kernel) (by decide +kernel)
  refine ⟨w, w₁, w', shares, report, hw, by decide +kernel, h, ?_,
    failed_pending hw (by decide +kernel) h⟩
  rw [← h.reported_eq]
  decide +kernel

/-- The id of a hero is queued for deletion before the hero is read, and again with the hero. The
store refuses to delete it: the report has a failure and a success about the one id, and nothing is
pending any more. -/
theorem delete_failed_and_reported :
    ∃ (w w₁ w' : Work Record Unit) (shares : List (Share Record)) (report : CommitReport Error),
      Reachable w ∧ w.client.fault = .none ∧ Commits w w₁ shares report w' ∧
      (report.outcomes.map fun o => (o.action, o.id, o.error.isSome)) =
        [(.delete, some "1", true), (.delete, some "1", false)] ∧
      w'.session.hasPending = false := by
  let m : Model Record := Sample.hero.model
  let stored := (runFrom (runFrom amongHeroes (add m (newHero "new:1" .null "Ada"))).2 commit).2
  let spoilt := meanwhile [.set (CommitScript.heroes.keys.index "team" "red") "x"]
    { stored with session := stored.session.expungeAll }
  let w := (runFrom (runFrom (runFrom spoilt (deleteKey m (.int 1))).2 (get? m (.int 1))).2
    (deleteKey m (.int 1))).2
  have hw : Reachable w :=
    (((((Reachable.start _ _ _ _ _).add m _).commit.expungeAll.meanwhile _ _).deleteKey
      m _).get? m _).deleteKey m _
  obtain ⟨w₁, shares, report, w', h⟩ :=
    exists_commits_of_isOk hw (by decide +kernel) (by decide +kernel) (by decide +kernel)
  refine ⟨w, w₁, w', shares, report, hw, by decide +kernel, h, ?_, ?_⟩
  · rw [← h.reported_eq]
    decide +kernel
  · have hw' : (runFrom w commit).2 = w' := congrArg Prod.snd h.runFrom_commit
    rw [← hw']
    decide +kernel

/-- Nothing is pending in a session exactly if nothing is in any of its trackers. -/
theorem hasPending_eq_false_iff {s : Session α σ} :
    s.hasPending = false ↔
      ∀ t ∈ s.trackers, t.dirty = [] ∧ t.deleteEvents = [] ∧ t.deleteQueries = [] := by
  have hsum : ∀ {f : Tracker α → Nat}, (s.trackers.map f).foldr (· + ·) 0 = 0 ↔
      ∀ t ∈ s.trackers, f t = 0 := by
    intro f
    induction s.trackers with
    | nil => simp
    | cons t rest ih => simp only [List.map_cons, List.foldr_cons, Nat.add_eq_zero_iff, ih,
        List.forall_mem_cons]
  have hdirty : ∀ t : Tracker α, t.dirtyCount = 0 ↔ t.dirty = [] := fun t => by
    simp [Tracker.dirtyCount, Tracker.dirty, ← List.length_eq_zero_iff]
  have hdeletes : ∀ t : Tracker α, t.pendingDeletes = 0 ↔
      t.deleteEvents = [] ∧ t.deleteQueries = [] := fun t => by
    simp [Tracker.pendingDeletes, Tracker.deleteEvents, ← List.length_eq_zero_iff, and_assoc]
  rw [hasPending, decide_eq_false_iff_not, Nat.not_lt, Nat.le_zero, Nat.add_eq_zero_iff,
    dirtyCount, pendingDeletes, hsum, hsum]
  simp only [hdirty, hdeletes]
  exact ⟨fun h t ht => ⟨h.1 t ht, h.2 t ht⟩,
    fun h => ⟨fun t ht => (h t ht).1, fun t ht => (h t ht).2⟩⟩

/-- Behind a commit that succeeds no instance is to be written and no known id to be deleted, and
nothing at all is pending exactly if the ids that queries were to delete could be collected. -/
theorem nothing_pending (hw : Reachable w) (hlink : w.client.fault = .none)
    (h : runFrom w commit = (.ok report, w')) :
    ∃ w₁ shares, Commits w w₁ shares report w' ∧
      (∀ t ∈ w'.session.trackers, t.dirty = [] ∧ t.deleteEvents = []) ∧
      (w'.session.hasPending = false ↔
        ∀ s ∈ shares, s.answer.Evaluated ∨ s.before.deleteQueries = []) := by
  obtain ⟨w₁, shares, hcommits, hsuccess⟩ := exists_commits_of_ok hw hlink h
  have hall : ∀ o ∈ report.outcomes, o.error = none := by
    simpa [CommitReport.isSuccess, CommitReport.failed] using hsuccess
  have hshares : ∀ s ∈ shares, (s.after.dirty = [] ∧ s.after.deleteEvents = []) ∧
      (s.after.deleteQueries = [] ↔ s.answer.Evaluated ∨ s.before.deleteQueries = []) := by
    intro s hs
    obtain ⟨ht, ⟨session, validate, lifetime, n, hprepare⟩, writes, deletes, t₁, houtcomes,
      hsettlement⟩ := hcommits.settlement hlink hw s hs
    have hlines : ∀ o ∈ writes ++ deletes, o.error = none := by
      intro o ho
      refine hall o ?_
      rw [hcommits.outcomes_eq]
      exact List.mem_flatMap_of_mem hs (houtcomes ▸ ho)
    exact ⟨⟨hsettlement.dirty_eq_nil ht hprepare hlines,
      hsettlement.deleteEvents_eq_nil ht (Tracker.deletes_of_prepare hprepare) hlines⟩,
      hsettlement.deleteQueries_eq_nil_iff⟩
  refine ⟨w₁, shares, hcommits, ?_, ?_⟩
  · rw [hcommits.trackers_eq, List.forall_mem_map]
    exact fun s hs => (hshares s hs).1
  · rw [hasPending_eq_false_iff, hcommits.trackers_eq, List.forall_mem_map]
    refine forall₂_congr fun s hs => ?_
    obtain ⟨⟨hdirty, hdeletes⟩, hqueries⟩ := hshares s hs
    rw [← hqueries]
    exact ⟨fun h => h.2.2, fun h => ⟨hdirty, hdeletes, h⟩⟩

/-- The heroes of some teams, as a query that has yet to be asked. -/
def heroesOf (teams : List String) : LiveQuery Empty :=
  .ofQuery ((Query.ofLayout CommitScript.heroes 30).filterIn "team" (teams.map .text))

/-- A hero is stored and another one is to be written; those of two teams are to be deleted. All of
it is done. -/
theorem nothing_pending_heroes :
    ∃ (w w' : Work Record Unit) (report : CommitReport Error),
      Reachable w ∧ w.client.fault = .none ∧ runFrom w commit = (.ok report, w') ∧
      w.session.dirtyCount = 1 ∧ w.session.pendingDeletes = 1 ∧
      ∃ w₁ shares, Commits w w₁ shares report w' ∧
        (∀ t ∈ w'.session.trackers, t.dirty = [] ∧ t.deleteEvents = []) ∧
        (w'.session.hasPending = false ↔
          ∀ s ∈ shares, s.answer.Evaluated ∨ s.before.deleteQueries = []) := by
  let m : Model Record := Sample.hero.model
  let stored := (runFrom (runFrom amongHeroes (add m (newHero "new:1" .null "Ada"))).2 commit).2
  let w := (runFrom (runFrom (stored, heroesOf ["red", "blue"]) (deleteQuery consultNone m)).2.1
    (add m (newHero "new:2" .null "Brin"))).2
  have hw : Reachable w :=
    (((Reachable.start _ _ _ _ _).add m _).commit.deleteQuery consultNone m _).add m _
  have hsuccess : (runFrom w commit).1.isOk = true := by decide +kernel
  obtain ⟨report, w', h⟩ := exists_ok_of_isOk hsuccess
  exact ⟨w, w', report, hw, by decide +kernel, h, by decide +kernel, by decide +kernel,
    nothing_pending hw (by decide +kernel) h⟩

/-- The heroes of two teams are to be deleted, but there is a text where the ids of one of the teams
belong. The commit succeeds with an empty report, and the query is still pending. -/
theorem query_pending_despite_success :
    ∃ (w w' : Work Record Unit) (report : CommitReport Error),
      Reachable w ∧ w.client.fault = .none ∧ runFrom w commit = (.ok report, w') ∧
      w'.session.hasPending = true ∧ w'.session.pendingDeletes = 1 := by
  let m : Model Record := Sample.hero.model
  let spoilt := meanwhile [.set (CommitScript.heroes.keys.index "team" "green") "x"] amongHeroes
  let w := (runFrom (spoilt, heroesOf ["gold", "green"]) (deleteQuery consultNone m)).2.1
  have hw : Reachable w :=
    ((Reachable.start _ _ _ _ _).meanwhile _ _).deleteQuery consultNone m _
  have hsuccess : (runFrom w commit).1.isOk = true := by decide +kernel
  obtain ⟨report, w', h⟩ := exists_ok_of_isOk hsuccess
  have hw' : (runFrom w commit).2 = w' := congrArg Prod.snd h
  refine ⟨w, w', report, hw, by decide +kernel, h, ?_, ?_⟩
  · rw [← hw']
    decide +kernel
  · rw [← hw']
    decide +kernel

end Session

end KeyedRecords
