import KeyedRecords.Proofs.Model.Catalog
import KeyedRecords.Proofs.Session.Reachable
import KeyedRecords.Proofs.Session.Slots

/-!
# Trackers of registered models

Whatever a session has been through, its trackers are those of different registered models, and the
queries that they are to delete the results of are over the keys of these models
(`Session.registered_of_reachable`): no operation changes what a tracker is one of
(`Tracker.Of`).
-/

namespace KeyedRecords

namespace Tracker

open Operation

variable {α : Type} {t t' : Tracker α} {m : Model α} {l : Layout}

/-- A tracker is one of a model, and is to delete the results of queries over it only. -/
structure Of (m : Model α) (l : Layout) (t : Tracker α) : Prop where
  model : t.model = m
  layout : t.layout = l
  queries : ∀ q ∈ t.deleteQueries, q.origin.layout.keys = l.keys

namespace Of

/-- What a tracker is one of does not depend on its instances. -/
theorem put (h : t.Of m l) (p : Partition) (key : IdentityKey) (i : Instance α) :
    (t.put p key i).Of m l :=
  ⟨by simpa using h.model, by simpa using h.layout, by simpa using h.queries⟩

theorem drop (h : t.Of m l) (p : Partition) (key : IdentityKey) : (t.drop p key).Of m l := by
  cases p <;> exact ⟨h.model, h.layout, h.queries⟩

end Of

/-- Taking out a key does not change what a tracker is one of. -/
theorem keeps_popFrom (key : IdentityKey) (found : Option (Partition × Instance α))
    (ps : List Partition) : Keeps (Of m l) (popFrom key found ps) := by
  induction ps generalizing found with
  | nil => exact meets_pure fun _ h => h
  | cons p rest ih =>
    unfold popFrom
    refine meets_get.bind fun t => ?_
    split
    next => exact (ih found).pre fun _ h => h.2
    next i _ =>
      refine Meets.bind (Q := fun _ => Of m l) ?_ fun _ => ?_
      · rintro _ ⟨rfl, h⟩
        exact h.drop p key
      · split
        · exact meets_throw fun _ h => h
        · exact ih _

theorem keeps_pop (key : IdentityKey) : Keeps (Of (α := α) m l) (pop key) :=
  keeps_popFrom key none Partition.all

theorem keeps_add (i : Instance α) : Keeps (Of m l) (add i) := by
  unfold add
  refine meets_get.bind fun t => ?_
  refine ((keeps_pop _).discard.pre fun _ h => h.2).bind fun _ => ?_
  exact (meets_modify fun t h => h.put _ _ _).bind fun _ => meets_pure fun _ h => h

theorem keeps_putDeleted (key : IdentityKey) (i : Instance α) :
    Keeps (Of m l) (putDeleted key i) :=
  (meets_ofExcept (Q := fun _ => Of m l) (fun _ _ _ h => h) fun _ _ _ h => h).bind fun _ =>
    meets_modify fun _ h => h.put _ _ _

theorem keeps_delete (i : Instance α) : Keeps (Of m l) (delete i) := by
  -- what is found under the key counts, or else the instance itself
  have hrest : ∀ key (i : Instance α), Keeps (Of m l)
      (if i.state.persistent = true then do
        putDeleted key i
        return true
      else return false) := by
    intro key i
    split
    · exact (keeps_putDeleted key i).bind fun _ => meets_pure fun _ h => h
    · exact meets_pure fun _ h => h
  unfold delete
  refine meets_get.bind fun t => ((keeps_pop _).pre fun _ h => h.2).bind fun found => ?_
  cases found with
  | none => exact hrest _ i
  | some found => exact hrest _ found.2

theorem keeps_addDeleteId (id : String) : Keeps (Of (α := α) m l) (addDeleteId id) := by
  refine meets_modify fun t h => ?_
  split
  · exact h
  · exact ⟨h.model, h.layout, h.queries⟩

theorem keeps_deleteId (id : String) : Keeps (Of (α := α) m l) (deleteId id) := by
  unfold deleteId
  refine (keeps_pop id).bind fun found => ?_
  split
  next => exact keeps_addDeleteId id
  next p i =>
    split
    · exact keeps_putDeleted id i
    · exact (meets_modify fun t h => h.put _ _ _).bind fun _ => keeps_addDeleteId id

/-- A query is queued only if it is over the keys of the model. -/
theorem keeps_deleteMatching (tree : Tree) : Keeps (Of (α := α) m l) (deleteMatching tree) := by
  unfold deleteMatching
  refine meets_get.bind fun t => ?_
  dsimp only
  split
  next => exact meets_throw_bind fun _ h => h.2
  next hkeys =>
    split
    next => exact meets_pure fun _ h => h.2
    next =>
      rintro _ ⟨rfl, h⟩
      refine ⟨h.model, h.layout, fun q hq => ?_⟩
      rcases List.mem_append.mp hq with hq | hq
      · exact h.queries q hq
      · rw [List.mem_singleton.mp hq, ← h.layout]
        exact Decidable.not_not.mp hkeys

theorem keeps_expunge (key : IdentityKey) : Keeps (Of (α := α) m l) (expunge key) := by
  unfold expunge
  refine (keeps_pop key).bind fun found => ?_
  split <;> exact meets_pure fun _ h => h

theorem keeps_markLoaded (i : Instance α) : Keeps (Of m l) (markLoaded i) := by
  unfold markLoaded
  refine meets_get.bind fun t => ?_
  dsimp only
  split
  next => exact meets_pure fun _ h => h.2
  next =>
    refine Meets.bind (Q := fun _ => Of m l) ?_ fun _ => meets_pure fun _ h => h
    rintro _ ⟨rfl, h⟩
    exact h.put _ _ _

theorem keeps_absorb (edits : List EventInstance) : Keeps (Of (α := α) m l) (absorb edits) :=
  keeps_absorb_of fun _ _ _ _ _ _ h _ _ => h.put _ _ _

theorem keeps_applyWrite (applied : Applied) (w : WriteReply) :
    Keeps (Of (α := α) m l) (applyWrite applied w) := by
  unfold applyWrite
  refine (keeps_pop w.identity).bind fun found => ?_
  split
  next => exact meets_get.bind fun t => meets_throw fun _ h => h.2
  next p i =>
    refine meets_get.bind fun t => ?_
    -- an instance that was not written goes back where it was
    have hkeep : ∀ applied' : Applied, Meets (fun s => t = s ∧ s.Of m l)
        (do
          set (t.put p w.identity i)
          return applied') (fun _ => Of m l) fun _ => Of m l := by
      rintro applied' _ ⟨rfl, h⟩
      exact h.put _ _ _
    dsimp only
    split
    next => exact hkeep _
    next ack _ =>
      split
      next => exact hkeep _
      next i' _ =>
        refine ((keeps_pop ack.id).discard.pre fun _ h => h.2).bind fun _ => ?_
        exact (meets_modify fun t h => h.put _ _ _).bind fun _ => meets_pure fun _ h => h

theorem keeps_applyDelete (tally : DeleteTally) (d : EventInstance) :
    Keeps (Of (α := α) m l) (applyDelete tally d) := by
  unfold applyDelete
  split
  next => exact meets_get.bind fun t => meets_get.bind fun _ => meets_pure fun _ h => h.2.2
  next =>
    exact (keeps_pop d.key).discard.bind fun _ => meets_get.bind fun _ => meets_pure fun _ h => h.2

theorem keeps_applyMatched (tally : DeleteTally) (id : String) :
    Keeps (Of (α := α) m l) (applyMatched tally id) := by
  unfold applyMatched
  refine meets_get.bind fun t => ((keeps_pop id).pre fun _ h => h.2).bind fun found => ?_
  exact meets_get.bind fun _ => meets_pure fun _ h => h.2

theorem keeps_applyRefused (tally : DeleteTally) (d : EventInstance) (e : BackendError) :
    Keeps (Of (α := α) m l) (applyRefused tally d e) :=
  meets_get.bind fun _ => meets_pure fun _ h => h.2

theorem keeps_settleDeletes (p : Prepared) (applied : Applied) (r : BatchReply) :
    Keeps (Of (α := α) m l) (settleDeletes p applied r) := by
  have hdeletes : ∀ ds tally, Keeps (Of (α := α) m l) (applyDeletes tally ds) := by
    intro ds
    induction ds with
    | nil => exact fun tally => meets_pure fun _ h => h
    | cons d rest ih => exact fun tally => (keeps_applyDelete tally d).bind ih
  have hmatched : ∀ ids tally, Keeps (Of (α := α) m l) (applyAllMatched tally ids) := by
    intro ids
    induction ids with
    | nil => exact fun tally => meets_pure fun _ h => h
    | cons id rest ih => exact fun tally => (keeps_applyMatched tally id).bind ih
  have hrefused : ∀ failed tally, Keeps (Of (α := α) m l) (applyAllRefused tally failed) := by
    intro failed
    induction failed with
    | nil => exact fun tally => meets_pure fun _ h => h
    | cons f rest ih => exact fun tally => (keeps_applyRefused _ _ _).bind ih
  unfold settleDeletes
  refine (hdeletes _ _).bind fun tally => (hmatched _ _).bind fun tally =>
    (hrefused _ _).bind fun tally => ?_
  exact (meets_modify fun t h => ⟨h.model, h.layout, nofun⟩).bind fun _ => meets_pure fun _ h => h

theorem keeps_applyReply (p : Prepared) (reply : Except BackendError BatchReply)
    (deleteFailure : Option BackendError) :
    Keeps (Of (α := α) m l) (applyReply p reply deleteFailure) := by
  have hwrites : ∀ ws applied, Keeps (Of (α := α) m l) (applyWrites applied ws) := by
    intro ws
    induction ws with
    | nil => exact fun applied => meets_pure fun _ h => h
    | cons w rest ih => exact fun applied => (keeps_applyWrite applied w).bind ih
  unfold applyReply
  refine meets_get.bind fun t => ?_
  dsimp only
  split
  next => exact meets_pure fun _ h => h.2
  next r =>
    split
    next => exact meets_throw_bind fun _ h => h.2
    next =>
      refine ((hwrites _ _).pre fun _ h => h.2).bind fun applied => ?_
      split
      next => exact meets_pure fun _ h => h
      next => exact keeps_settleDeletes p applied r

/-- Whatever is done with a tracker, it stays one of its model. -/
theorem of_of_changes (h : t.Of m l) (ht : t.Changes t') : t'.Of m l := by
  cases ht with
  | add i => exact (keeps_add i).behind h
  | delete i => exact (keeps_delete i).behind h
  | deleteId id => exact (keeps_deleteId id).behind h
  | deleteMatching tree => exact (keeps_deleteMatching tree).behind h
  | expunge key => exact (keeps_expunge key).behind h
  | markLoaded hi => exact (keeps_markLoaded _).behind h
  | absorb edits => exact (keeps_absorb edits).behind h
  | applyReply p reply deleteFailure => exact (keeps_applyReply p reply deleteFailure).behind h

end Tracker

namespace Session

variable {α σ : Type} {w : Work α σ}

/-- Trackers are those of different registered models. -/
structure Registers (c : Catalog) (ts : List (Tracker α)) : Prop where
  of : ∀ t ∈ ts, t.layout ∈ c.layouts ∧ t.layout.tag = t.model.tag ∧ t.Of t.model t.layout
  /-- No two are of one model. -/
  distinct : (ts.map (·.layout.tag)).Nodup

/-- What a session holds of a model is in the tracker with its tag. -/
theorem Registers.tracker?_of_mem {c : Catalog} {s : Session α σ} (h : Registers c s.trackers)
    {m : Model α} {t : Tracker α} (ht : t ∈ s.trackers) (htag : t.layout.tag = m.tag) :
    s.tracker? m = some t :=
  (find?_eq_some_iff_of_nodup h.distinct).mpr ⟨ht, htag⟩

/-- Operations keep trackers those of different registered models. -/
theorem invariant_registers : Invariant (Registers (α := α)) := by
  constructor
  case nil => exact fun c => ⟨fun t ht => (nomatch ht), .nil⟩
  case touch =>
    -- a tracker is made only where there is none of its model
    intro c ts m l h hnew hl
    obtain ⟨hmem, htag⟩ := tag_of_layout hl
    constructor
    case of =>
      rw [List.forall_mem_append, List.forall_mem_singleton]
      exact ⟨h.of, hmem, htag, rfl, rfl, fun q hq => nomatch hq⟩
    case distinct =>
      rw [List.map_append, List.nodup_append']
      refine ⟨h.distinct, List.nodup_singleton _, fun tag htag' htag'' => ?_⟩
      obtain ⟨t, ht, rfl⟩ := List.mem_map.mp htag'
      exact hnew t ht ((List.mem_singleton.mp htag'').trans htag)
  case change =>
    -- in the place of a tracker comes one of the same model
    intro c ts us t t' h ht
    have hof := h.of
    rw [List.forall_mem_append, List.forall_mem_cons] at hof
    obtain ⟨hts, ⟨hmem, htag, ht₀⟩, hus⟩ := hof
    have ht' := Tracker.of_of_changes ht₀ ht
    constructor
    case of =>
      rw [List.forall_mem_append, List.forall_mem_cons, ht'.model, ht'.layout]
      exact ⟨hts, ⟨hmem, htag, ht'⟩, hus⟩
    case distinct =>
      have hdistinct := h.distinct
      rwa [List.map_append, List.map_cons, ← ht'.layout, ← List.map_cons (f := fun t : Tracker α =>
        t.layout.tag), ← List.map_append] at hdistinct

/-- Whatever a session comes to, its trackers are those of different registered models. -/
theorem registered_of_reachable (h : Reachable w) :
    Registers w.session.catalog w.session.trackers :=
  invariant_of_reachable invariant_registers h

end Session

end KeyedRecords
