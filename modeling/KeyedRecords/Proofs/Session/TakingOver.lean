import KeyedRecords.Proofs.Session.Settlement
import KeyedRecords.Session.Commit

/-!
# Taking over a reply

A reply that answers a batch (`BatchReply.Answers`) is taken over without fail, and leaves one line
for each instance that was to be written and for each delete that was asked for
(`Tracker.applyReply_ok`). `Tracker.Settlement` says what these lines did, by the two ways in which
it can end: the deletes were settled, each by itself (`SettledDeletes`), or all of them failed and
stay where they are.
-/

namespace KeyedRecords

/-- A reply is one to a batch: it answers the writes in their order, and no id twice. -/
structure BatchReply.Answers (r : BatchReply) (b : Batch) : Prop where
  writes : r.writes.map (·.identity) = b.writes.map (·.identity)
  nodup : (r.deleted ++ r.failedDeletes.map Prod.fst).Nodup

namespace Session.Answer

/-- What the store says of the writes. -/
def writes (a : Answer) : List WriteReply :=
  match a.reply with
  | .ok r => r.writes
  | .error _ => []

/-- The ids to delete were collected, and the batch did not fail as a whole. -/
def Evaluated (a : Answer) : Prop := a.reply.isOk ∧ a.deleteFailure = none

instance (a : Answer) : Decidable a.Evaluated :=
  inferInstanceAs (Decidable (_ ∧ _))

/-- An answer says something sensible of a contribution. -/
def Fits (a : Answer) : Prop := ∀ r, a.reply = .ok r → r.Answers a.prepared.batch

end Session.Answer

namespace Tracker

open Operation

variable {α : Type} {t t' t₁ : Tracker α} {replies : List WriteReply} {p : Prepared}
  {lines more : List (InstanceOutcome Error)}

section Writes

/-- The result of the write of an instance that is held is taken over without fail. -/
theorem applyWrite_ok (ht : t.Sound) (applied : Applied) {w : WriteReply} (hw : w ∈ replies)
    (hheld : (t.slot w.identity).isSome) :
    ∃ o applied' t', runFrom t (applyWrite applied w) = (.ok applied', t') ∧
      applied'.outcomes = applied.outcomes ++ [o] ∧
      o.subject = (t.layout.name, .write, w.identity) ∧ Takes replies t o t' := by
  obtain ⟨⟨p, i⟩, hslot⟩ := Option.isSome_iff_exists.mp hheld
  have hlayout : (t.without w.identity).layout.name = t.layout.name := by simp
  -- an instance that was not written goes back where it was
  have hkeep : ∀ (applied' : Applied),
      runFrom (t.without w.identity) (do
        set ((t.without w.identity).put p w.identity i)
        return applied' : Tracking α Applied) = (.ok applied', t) := by
    intro applied'
    rw [put_without hslot]
    rfl
  unfold applyWrite
  rw [runFrom_bind_ok (ht.runFrom_pop w.identity), hslot]
  simp only
  rw [runFrom_bind_ok (runFrom_get _)]
  cases hresult : w.result with
  | error e =>
    exact ⟨_, _, t, hkeep _, rfl, by rw [← hlayout]; rfl, .failed rfl⟩
  | ok ack =>
    simp only
    split
    next e _ => exact ⟨_, _, t, hkeep _, rfl, by rw [← hlayout]; rfl, .failed rfl⟩
    next i' hack =>
      rw [model_without] at hack
      have hpop := (ht.without w.identity).runFrom_pop ack.id
      rw [runFrom_bind_ok (runFrom_discard_ok hpop)]
      have hwritten : w = ⟨w.identity, .ok ack⟩ := by rw [← hresult]
      refine ⟨_, _, _, rfl, rfl, by rw [← hlayout]; rfl, ?_⟩
      have htakes := Takes.written (hwritten ▸ hw) hslot hack
      simpa [writeOutcome] using htakes

/-- Whatever else is held stays so when a write is taken over. -/
theorem Takes.isSome_slot {o : InstanceOutcome Error} {key : IdentityKey}
    (h : Takes replies t o t') (ht : t.Sound) (haction : o.action = .write) (hne : key ≠ o.key)
    (hheld : (t.slot key).isSome) : (t'.slot key).isSome := by
  cases h with
  | failed => exact hheld
  | @written k ack p i i' _ _ hack =>
    rw [slot_written ht]
    split
    · rfl
    · rwa [if_neg (show key ≠ k from hne)]
  | deleted => cases haction

/-- The results of writes of different instances that are held are taken over without fail. -/
theorem applyWrites_ok (ht : t.Sound) (applied : Applied) {ws : List WriteReply}
    (hws : ∀ w ∈ ws, w ∈ replies) (hnodup : (ws.map (·.identity)).Nodup)
    (hheld : ∀ w ∈ ws, (t.slot w.identity).isSome) :
    ∃ lines applied' t', runFrom t (applyWrites applied ws) = (.ok applied', t') ∧
      applied'.outcomes = applied.outcomes ++ lines ∧
      lines.map (·.subject) = ws.map (fun w => (t.layout.name, .write, w.identity)) ∧
      TakesAll replies t lines t' := by
  induction ws generalizing t applied with
  | nil => exact ⟨[], applied, t, rfl, by simp, rfl, .nil⟩
  | cons w rest ih =>
    obtain ⟨hw, hrest⟩ := List.forall_mem_cons.mp hws
    obtain ⟨hnew, hnodup⟩ := List.nodup_cons.mp hnodup
    obtain ⟨hfirst, hothers⟩ := List.forall_mem_cons.mp hheld
    obtain ⟨o, applied₁, t₁, hrun, houtcomes, hsubject, htakes⟩ :=
      applyWrite_ok ht applied hw hfirst
    obtain ⟨hmodel, haction, hkey⟩ : o.model = _ ∧ o.action = _ ∧ o.key = _ := by
      simpa [InstanceOutcome.subject] using hsubject
    have hheld₁ : ∀ v ∈ rest, (t₁.slot v.identity).isSome := by
      intro v hv
      refine htakes.isSome_slot ht haction (fun heq => hnew ?_) (hothers v hv)
      show w.identity ∈ _
      rw [← hkey, ← heq]
      exact List.mem_map_of_mem hv
    obtain ⟨lines, applied', t', hrun', houtcomes', hsubjects, hall⟩ :=
      ih (htakes.sound ht) applied₁ hrest hnodup hheld₁
    refine ⟨o :: lines, applied', t', ?_, ?_, ?_, .cons htakes hall⟩
    · rw [applyWrites, runFrom_bind_ok hrun, hrun']
    · rw [houtcomes', houtcomes, List.append_assoc, List.singleton_append]
    · rw [List.map_cons, List.map_cons, hsubject, hsubjects, htakes.layout_eq]

end Writes

section Deletes

variable {tally tally₁ tally' : DeleteTally}

/-- The delete of an id has failed, and is none of an instance that is still to be deleted. -/
def Retried (t : Tracker α) (lines : List (InstanceOutcome Error)) (x : String) : Prop :=
  ∃ o ∈ lines, o.error.isSome ∧ o.id = some x ∧ ∀ i, t.slot o.key ≠ some (.deleted, i)

/-- What lines leave to be tried again, more lines do. -/
theorem Retried.append {x : String} (ht : t.Sound) (h : t.Retried lines x)
    (hmore : TakesAll replies t more t') : t'.Retried (lines ++ more) x := by
  obtain ⟨o, ho, herror, hid, hnot⟩ := h
  exact ⟨o, List.mem_append_left _ ho, herror, hid,
    fun i hi => hnot i (hmore.slot_of_pending ht (by simp) hi).1⟩

/-- What a line of a delete is about, and the id of what was to be deleted. -/
def deleteLine (t : Tracker α) (key : IdentityKey) (id : Option String) :
    (String × CommitAction × IdentityKey) × Option String :=
  ((t.layout.name, .delete, key), id)

/-- Lines of deletes are taken over, and the tally is kept. -/
structure TakesDeletes (replies : List WriteReply) (t : Tracker α) (tally : DeleteTally)
    (lines : List (InstanceOutcome Error)) (tally' : DeleteTally) (t' : Tracker α) : Prop where
  outcomes : tally'.applied.outcomes = tally.applied.outcomes ++ lines
  takes : TakesAll replies t lines t'
  /-- What is to be tried again stays so. -/
  more : ∀ x ∈ tally.retry, x ∈ tally'.retry
  /-- What is to be tried again has failed. -/
  failed : ∀ x ∈ tally'.retry, x ∈ tally.retry ∨ ∃ o ∈ lines, o.error.isSome ∧ o.id = some x
  /-- What has failed is to be tried again, or was to be deleted as an instance. -/
  pending : ∀ o ∈ lines, o.error.isSome → ∃ x, o.id = some x ∧
    (x ∈ tally'.retry ∨ ∃ i, t.slot o.key = some (.deleted, i))

namespace TakesDeletes

theorem refl (t : Tracker α) (tally : DeleteTally) : TakesDeletes replies t tally [] tally t :=
  ⟨by simp, .nil, fun _ h => h, fun _ h => .inl h, fun _ h => nomatch h⟩

/-- One list of lines behind another. -/
theorem trans (ht : t.Sound) (h : TakesDeletes replies t tally lines tally₁ t₁)
    (hmore : TakesDeletes replies t₁ tally₁ more tally' t') :
    TakesDeletes replies t tally (lines ++ more) tally' t' := by
  constructor
  case outcomes => rw [hmore.outcomes, h.outcomes, List.append_assoc]
  case takes => exact h.takes.append hmore.takes
  case more => exact fun x hx => hmore.more x (h.more x hx)
  case failed =>
    intro x hx
    rcases hmore.failed x hx with hx | ⟨o, ho, hfailed⟩
    · rcases h.failed x hx with hx | ⟨o, ho, hfailed⟩
      · exact .inl hx
      · exact .inr ⟨o, List.mem_append_left _ ho, hfailed⟩
    · exact .inr ⟨o, List.mem_append_right _ ho, hfailed⟩
  case pending =>
    intro o ho herror
    rcases List.mem_append.mp ho with ho | ho
    · obtain ⟨x, hid, hx⟩ := h.pending o ho herror
      exact ⟨x, hid, hx.imp_left (hmore.more x)⟩
    · obtain ⟨x, hid, hx⟩ := hmore.pending o ho herror
      refine ⟨x, hid, hx.imp_right fun ⟨i, hi⟩ => ⟨i, ?_⟩⟩
      exact (h.takes.slot_of_pending ht (by simp) hi).1

/-- A line of a success. -/
theorem of_success {o : InstanceOutcome Error} (ho : o.error = none) (htakes : Takes replies t o t')
    (houtcomes : tally'.applied.outcomes = tally.applied.outcomes ++ [o])
    (hretry : tally'.retry = tally.retry) : TakesDeletes replies t tally [o] tally' t' := by
  refine ⟨houtcomes, .cons htakes .nil, fun _ hx => hretry ▸ hx, fun _ hx => .inl (hretry ▸ hx), ?_⟩
  intro o' ho' herror
  rw [List.mem_singleton.mp ho', ho] at herror
  cases herror

end TakesDeletes

/-- The failures among lines are about ids that were refused, and no two about one id. -/
structure Refusals (refused : Table BackendError) (lines : List (InstanceOutcome Error)) :
    Prop where
  refused : ∀ o ∈ lines, o.error.isSome → ∃ x, o.id = some x ∧ refused[x]? ≠ none
  once : ((lines.filter (·.error.isSome)).map (·.id)).Nodup

/-- The result of one delete that was asked for is taken over without fail. -/
theorem applyDelete_ok (replies : List WriteReply) (ht : t.Sound) (tally : DeleteTally)
    (d : EventInstance) :
    ∃ o tally' t', runFrom t (applyDelete tally d) = (.ok tally', t') ∧
      TakesDeletes replies t tally [o] tally' t' ∧ (o.subject, o.id) = t.deleteLine d.key d.id ∧
      (o.error.isSome → ∃ x, o.id = some x ∧ tally.refused[x]? ≠ none) ∧
      (∀ x, tally'.refused[x]? = if d.id = some x then none else tally.refused[x]?) ∧
      ((∀ x ∈ tally.removed, tally.refused[x]? = none) →
        ∀ x, x ∈ tally'.removed ↔ x ∈ tally.removed ∧ d.id ≠ some x) ∧
      ∀ x ∈ tally'.retry, x ∈ tally.retry ∨ t'.Retried [o] x := by
  unfold applyDelete
  split
  next x e hrefused =>
    -- the delete was refused, and the tracker stays as it is
    obtain ⟨x', hid, hx⟩ := Option.bind_eq_some_iff.mp hrefused
    obtain ⟨e', he, hpair⟩ := Option.map_eq_some_iff.mp hx
    obtain ⟨rfl, rfl⟩ := Prod.mk.inj hpair
    rw [runFrom_bind_ok (runFrom_get t)]
    have hretry : ∀ x ∈ (if t.deleted.contains d.key then tally.retry else tally.retry ++ [x']),
        x ∈ tally.retry ∨ x = x' ∧ t.deleted.contains d.key = false := by
      intro x hx
      cases hkept : t.deleted.contains d.key with
      | true => exact .inl (by simpa [hkept] using hx)
      | false => simpa [hkept] using hx
    refine ⟨t.deleteOutcome d.key d.id (some (.backend e')), _, t, rfl, ?_, rfl,
      fun _ => ⟨x', hid, by rw [he]; nofun⟩, ?_, ?_, ?_⟩
    · refine ⟨rfl, .cons (.failed rfl) .nil, fun x hx => ?_, fun x hx => ?_, ?_⟩
      · dsimp only
        split
        · exact hx
        · exact List.mem_append_left _ hx
      · exact (hretry x hx).imp_right fun hx =>
          ⟨_, List.mem_singleton_self _, rfl, hid.trans (congrArg some hx.1.symm)⟩
      · intro o ho _
        obtain rfl := List.mem_singleton.mp ho
        refine ⟨x', hid, ?_⟩
        by_cases hkept : t.deleted.contains d.key = true
        · obtain ⟨i, hi⟩ := Option.isSome_iff_exists.mp
            (Std.ExtTreeMap.mem_iff_isSome_getElem?.mp (Std.ExtTreeMap.contains_iff_mem.mp hkept))
          exact .inr ⟨i, ht.slot_eq_some_iff.mpr hi⟩
        · exact .inl (by simp [hkept])
    · intro x
      simp only [Table.getElem?_erase, hid, Option.some.injEq, eq_comm]
    · intro hdisjoint x
      refine ⟨fun hx => ⟨hx, fun heq => ?_⟩, fun hx => hx.1⟩
      obtain rfl := Option.some.inj (hid.symm.trans heq)
      rw [hdisjoint x' hx] at he
      cases he
    · refine fun x hx => (hretry x hx).imp_right fun ⟨heq, hgone⟩ =>
        ⟨_, List.mem_singleton_self _, rfl, hid.trans (congrArg some heq.symm), fun i hi => ?_⟩
      have hthere : t.deleted.contains d.key = true :=
        Std.ExtTreeMap.contains_iff_mem.mpr
          (Std.ExtTreeMap.mem_iff_isSome_getElem?.mpr (Option.isSome_of_mem (held_of_slot hi)))
      rw [hgone] at hthere
      cases hthere
  next hnone =>
    rw [runFrom_bind_ok (runFrom_discard_ok (ht.runFrom_pop d.key))]
    have hlayout : (t.without d.key).layout.name = t.layout.name := by simp
    refine ⟨t.deleteOutcome d.key d.id none, _, t.without d.key, rfl,
      .of_success rfl (.deleted _ _) (by rw [deleteOutcome, deleteOutcome, hlayout]) rfl, rfl,
      nofun, ?_, ?_, fun x hx => .inl hx⟩
    · intro x
      show tally.refused[x]? = _
      by_cases hid : d.id = some x
      · rw [if_pos hid]
        rw [hid, Option.bind_some, Option.map_eq_none_iff] at hnone
        exact hnone
      · rw [if_neg hid]
    · intro _ x
      cases hid : d.id with
      | none => simp
      | some y =>
        show x ∈ tally.removed.erase y ↔ _
        simp only [Std.ExtTreeSet.mem_erase, ne_eq, Std.compare_eq_iff_eq, Option.some.injEq,
          and_comm]

/-- The results of deletes that were asked for are taken over without fail, and what remains is
about other ids. -/
theorem applyDeletes_ok (replies : List WriteReply) (ht : t.Sound) (tally : DeleteTally)
    (ds : List EventInstance) :
    ∃ lines tally' t', runFrom t (applyDeletes tally ds) = (.ok tally', t') ∧
      TakesDeletes replies t tally lines tally' t' ∧
      lines.map (fun o => (o.subject, o.id)) = ds.map (fun d => t.deleteLine d.key d.id) ∧
      Refusals tally.refused lines ∧
      (∀ x, tally'.refused[x]? = if some x ∈ ds.map (·.id) then none else tally.refused[x]?) ∧
      ((∀ x ∈ tally.removed, tally.refused[x]? = none) →
        ∀ x, x ∈ tally'.removed ↔ x ∈ tally.removed ∧ some x ∉ ds.map (·.id)) ∧
      ∀ x ∈ tally'.retry, x ∈ tally.retry ∨ t'.Retried lines x := by
  induction ds generalizing t tally with
  | nil =>
    exact ⟨[], tally, t, rfl, .refl t tally, rfl, ⟨fun _ h => (nomatch h), .nil⟩, by simp, by simp,
      fun _ h => .inl h⟩
  | cons d rest ih =>
    obtain ⟨o, tally₁, t₁, hrun, hfirst, hline, hrefusal, hrefused, hremoved, hretry⟩ :=
      applyDelete_ok replies ht tally d
    obtain ⟨lines, tally', t', hrun', hall, hlines, hrefusals, hrefused', hremoved', hretry'⟩ :=
      ih (hfirst.takes.sound ht) tally₁
    have hid : o.id = d.id := (Prod.mk.inj hline).2
    refine ⟨o :: lines, tally', t', ?_, hfirst.trans ht hall, ?_, ⟨?_, ?_⟩, fun x => ?_,
      fun hdisjoint x => ?_, fun x hx => ?_⟩
    · rw [applyDeletes, runFrom_bind_ok hrun, hrun']
    · rw [List.map_cons, List.map_cons, hline, hlines]
      simp only [deleteLine, hfirst.takes.layout_eq]
    · refine List.forall_mem_cons.mpr ⟨hrefusal, fun o' ho' herror => ?_⟩
      obtain ⟨x, hx, hne⟩ := hrefusals.refused o' ho' herror
      refine ⟨x, hx, fun hnone => hne ?_⟩
      rw [hrefused, hnone, ite_self]
    · -- a refusal is taken out with the first line about its id
      by_cases herror : o.error.isSome = true
      · rw [List.filter_cons_of_pos (by simpa using herror), List.map_cons, List.nodup_cons]
        refine ⟨fun hmem => ?_, hrefusals.once⟩
        obtain ⟨o', ho', hsame⟩ := List.mem_map.mp hmem
        obtain ⟨ho', herror'⟩ := List.mem_filter.mp ho'
        obtain ⟨x, hx, hne⟩ := hrefusals.refused o' ho' herror'
        rw [hrefused, if_pos (hid.symm.trans (hsame.symm.trans hx))] at hne
        exact hne rfl
      · rw [List.filter_cons_of_neg (by simpa using herror)]
        exact hrefusals.once
    · rw [hrefused', hrefused]
      by_cases hd : d.id = some x <;> simp [hd, eq_comm (a := some x)]
    · have hdisjoint₁ : ∀ y ∈ tally₁.removed, tally₁.refused[y]? = none := by
        intro y hy
        rw [hrefused, hdisjoint y ((hremoved hdisjoint y).mp hy).1]
        split <;> rfl
      rw [hremoved' hdisjoint₁, hremoved hdisjoint, List.map_cons, List.mem_cons, not_or,
        and_assoc, ne_eq, eq_comm (a := some x)]
    · rcases hretry' x hx with hx | ⟨o', ho', hretried⟩
      · exact (hretry x hx).imp_right fun hretried =>
          hretried.append (hfirst.takes.sound ht) hall.takes
      · exact .inr ⟨o', List.mem_cons_of_mem _ ho', hretried⟩

/-- Deletes of what only queries matched are taken over without fail. -/
theorem applyAllMatched_ok (replies : List WriteReply) (ht : t.Sound) (tally : DeleteTally)
    (ids : List String) :
    ∃ lines tally' t', runFrom t (applyAllMatched tally ids) = (.ok tally', t') ∧
      TakesDeletes replies t tally lines tally' t' ∧
      lines.map (fun o => (o.subject, o.id)) = ids.map (fun x => t.deleteLine x (some x)) ∧
      tally'.refused = tally.refused ∧ ∀ o ∈ lines, o.error = none := by
  induction ids generalizing t tally with
  | nil => exact ⟨[], tally, t, rfl, .refl t tally, rfl, rfl, by simp⟩
  | cons x rest ih =>
    obtain ⟨tally₁, hrun, houtcomes, hrest⟩ : ∃ tally₁,
        runFrom t (applyMatched tally x) = (.ok tally₁, t.without x) ∧
          tally₁.applied.outcomes = tally.applied.outcomes ++ [t.deleteOutcome x (some x) none] ∧
          tally₁.retry = tally.retry ∧ tally₁.refused = tally.refused := by
      unfold applyMatched
      rw [runFrom_bind_ok (runFrom_get t), runFrom_bind_ok (ht.runFrom_pop x)]
      refine ⟨_, rfl, ?_, rfl, rfl⟩
      have hlayout : (t.without x).layout.name = t.layout.name := by simp
      simp only [deleteOutcome, hlayout]
    have hfirst : TakesDeletes replies t tally [t.deleteOutcome x (some x) none] tally₁
        (t.without x) := .of_success rfl (.deleted _ _) houtcomes hrest.1
    obtain ⟨lines, tally', t', hrun', hall, hlines, hrefused, hsuccess⟩ :=
      ih (ht.without x) tally₁
    refine ⟨_, tally', t', ?_, hfirst.trans ht hall, ?_, hrefused.trans hrest.2,
      List.forall_mem_cons.mpr ⟨rfl, hsuccess⟩⟩
    · rw [applyAllMatched, runFrom_bind_ok hrun, hrun']
    · rw [List.singleton_append, List.map_cons, List.map_cons, hlines]
      simp only [deleteLine, layout_without]
      rfl

/-- Refusals of deletes of what only queries matched are taken over without fail. -/
theorem applyAllRefused_ok (replies : List WriteReply) (ht : t.Sound) (tally : DeleteTally)
    (failed : List (String × BackendError)) :
    ∃ lines tally', runFrom t (applyAllRefused tally failed) = (.ok tally', t) ∧
      TakesDeletes replies t tally lines tally' t ∧
      lines.map (fun o => (o.subject, o.id)) =
        (failed.map Prod.fst).map (fun x => t.deleteLine x (some x)) ∧
      ∀ o ∈ lines, ∀ x, o.id = some x → x ∈ tally'.retry := by
  induction failed generalizing tally with
  | nil => exact ⟨[], tally, rfl, .refl t tally, rfl, by simp⟩
  | cons f rest ih =>
    obtain ⟨x, e⟩ := f
    obtain ⟨tally₁, hrun, houtcomes, hretry⟩ : ∃ tally₁,
        runFrom t (applyRefused { tally with retry := tally.retry ++ [x] } ⟨x, some x, .empty⟩ e) =
            (.ok tally₁, t) ∧
          tally₁.applied.outcomes = tally.applied.outcomes ++
            [t.deleteOutcome x (some x) (some (.backend e))] ∧
          tally₁.retry = tally.retry ++ [x] := ⟨_, rfl, rfl, rfl⟩
    have hfirst : TakesDeletes replies t tally [t.deleteOutcome x (some x) (some (.backend e))]
        tally₁ t := by
      refine ⟨houtcomes, .cons (.failed rfl) .nil, fun y hy => ?_, fun y hy => ?_,
        fun o ho _ => ⟨x, ?_, .inl ?_⟩⟩
      · exact hretry ▸ List.mem_append_left _ hy
      · rw [hretry, List.mem_append, List.mem_singleton] at hy
        exact hy.imp_right fun heq =>
          ⟨_, List.mem_singleton_self _, rfl, congrArg some heq.symm⟩
      · rw [List.mem_singleton.mp ho]
        rfl
      · simp [hretry]
    obtain ⟨lines, tally', hrun', hall, hlines, hall'⟩ := ih tally₁
    refine ⟨_, tally', ?_, hfirst.trans ht hall, ?_, List.forall_mem_cons.mpr ⟨?_, hall'⟩⟩
    · rw [applyAllRefused, runFrom_bind_ok hrun, hrun']
    · rw [List.singleton_append, List.map_cons, List.map_cons, List.map_cons, hlines]
      rfl
    · rintro y ⟨⟩
      exact hall.more x (by simp [hretry])

/-- The deletes of a commit are settled, each by itself. -/
structure SettledDeletes (replies : List WriteReply) (t : Tracker α) (ds : List EventInstance)
    (lines : List (InstanceOutcome Error)) (t' : Tracker α) : Prop where
  /-- Nothing but partitions and what is to be deleted changes. -/
  takes : ∃ t₁, TakesAll replies t lines t₁ ∧
    t' = { t₁ with deleteIds := t'.deleteIds, deleteQueries := [] }
  /-- Each delete that was asked for has a line, and each other id has one at most. -/
  asked : ∃ others : List String,
    lines.map (fun o => (o.subject, o.id)) =
      ds.map (fun d => t.deleteLine d.key d.id) ++
        others.map (fun x => t.deleteLine x (some x)) ∧
    others.Nodup ∧ ∀ x ∈ others, some x ∉ ds.map (·.id)
  /-- No id has failed twice. -/
  once : ((lines.filter (·.error.isSome)).map (·.id)).Nodup
  /-- Ids are to be deleted next time only because they failed, and as instances if they were asked
  for as instances. -/
  failed : ∀ x ∈ t'.deleteIds, ∃ o ∈ lines, o.error.isSome ∧ o.id = some x ∧
    (some x ∈ ds.map (·.id) → ∀ i, t'.slot o.key ≠ some (.deleted, i))
  /-- What failed that was not asked for is to be deleted next time. -/
  unasked : ∀ o ∈ lines, o.error.isSome → ∀ x, o.id = some x → some x ∉ ds.map (·.id) →
    x ∈ t'.deleteIds
  /-- What failed is to be deleted next time, or was to be deleted as an instance. -/
  pending : ∀ o ∈ lines, o.error.isSome → ∃ x, o.id = some x ∧
    (x ∈ t'.deleteIds ∨ ∃ i, t.slot o.key = some (.deleted, i))

/-- A reply that answers a batch tells what became of each delete. -/
theorem settleDeletes_ok (replies : List WriteReply) (ht : t.Sound) (p : Prepared)
    (applied : Applied) {r : BatchReply}
    (hnodup : (r.deleted ++ r.failedDeletes.map Prod.fst).Nodup) :
    ∃ lines applied' t', runFrom t (settleDeletes p applied r) = (.ok applied', t') ∧
      applied'.outcomes = applied.outcomes ++ lines ∧
      SettledDeletes replies t p.deletes lines t' := by
  let tally : DeleteTally :=
    { removed := Members.insertAll ∅ r.deleted, refused := Table.insertAll ∅ r.failedDeletes
      retry := [], applied }
  -- no id was both deleted and refused
  have hdisjoint : ∀ x ∈ tally.removed, tally.refused[x]? = none := by
    intro x hx
    have hdeleted : x ∈ r.deleted := by
      simpa [tally, Members.mem_insertAll] using hx
    have hnot : x ∉ r.failedDeletes.map Prod.fst := fun hfailed =>
      (List.nodup_append'.mp hnodup).2.2 hdeleted hfailed
    show (Table.insertAll ∅ r.failedDeletes)[x]? = none
    rw [Table.getElem?_insertAll, Option.or_eq_none_iff]
    refine ⟨?_, by simp⟩
    refine List.lookup_eq_none_iff.mpr fun f hf => ?_
    rw [bne_iff_ne]
    rintro rfl
    exact hnot (List.mem_map_of_mem (List.mem_reverse.mp hf))
  obtain ⟨lines₁, tally₁, t₁, hrun₁, htakes₁, hlines₁, hrefusals₁, hrefused₁, hremoved₁, hretry₁⟩ :=
    applyDeletes_ok replies ht tally p.deletes
  have ht₁ := htakes₁.takes.sound ht
  obtain ⟨lines₂, tally₂, t₂, hrun₂, htakes₂, hlines₂, hrefused₂, hsuccess₂⟩ :=
    applyAllMatched_ok replies ht₁ tally₁ tally₁.removed.toList
  have ht₂ := htakes₂.takes.sound ht₁
  obtain ⟨lines₃, tally₃, hrun₃, htakes₃, hlines₃, hretry₃⟩ :=
    applyAllRefused_ok replies ht₂ tally₂ tally₂.refused.toList
  have hall := htakes₁.trans ht (htakes₂.trans ht₁ htakes₃)
  -- what is refused in the end was refused by the store, and was not asked for
  have hrefused : ∀ x ∈ tally₂.refused.toList.map Prod.fst,
      some x ∉ p.deletes.map (·.id) ∧ tally.refused[x]? ≠ none := by
    intro x hx
    rw [Std.ExtTreeMap.map_fst_toList_eq_keys, Std.ExtTreeMap.mem_keys, hrefused₂,
      Std.ExtTreeMap.mem_iff_isSome_getElem?, hrefused₁] at hx
    split at hx
    · cases hx
    next hnot => exact ⟨hnot, Option.isSome_iff_ne_none.mp hx⟩
  -- the other lines are about ids that were not asked for
  let others := tally₁.removed.toList ++ tally₂.refused.toList.map Prod.fst
  have hlines : (lines₂ ++ lines₃).map (fun o => (o.subject, o.id)) =
      others.map (fun x => t.deleteLine x (some x)) := by
    rw [List.map_append, hlines₂, hlines₃, List.map_append]
    simp only [deleteLine, htakes₂.takes.layout_eq, htakes₁.takes.layout_eq]
  have hothers : others.Nodup := by
    refine List.nodup_append'.mpr ⟨Members.nodup_toList _, tally₂.refused.nodup_keys, ?_⟩
    intro x hx hx'
    have hx := (hremoved₁ hdisjoint x).mp (Std.ExtTreeSet.mem_toList.mp hx)
    exact (hrefused x hx').2 (hdisjoint x hx.1)
  have hnot : ∀ x ∈ others, some x ∉ p.deletes.map (·.id) := by
    intro x hx
    rcases List.mem_append.mp hx with hx | hx
    · exact ((hremoved₁ hdisjoint x).mp (Std.ExtTreeSet.mem_toList.mp hx)).2
    · exact (hrefused x hx).1
  have hids₁ : lines₁.map (·.id) = p.deletes.map (·.id) := by
    simpa [List.map_map, Function.comp_def, deleteLine] using congrArg (List.map Prod.snd) hlines₁
  have hids₂ : (lines₂ ++ lines₃).map (·.id) = others.map some := by
    simpa [List.map_map, Function.comp_def, deleteLine] using congrArg (List.map Prod.snd) hlines
  refine ⟨lines₁ ++ (lines₂ ++ lines₃), tally₃.applied,
    { t₂ with deleteIds := tally₃.retry, deleteQueries := [] }, ?_, hall.outcomes, ?_⟩
  · unfold settleDeletes
    rw [runFrom_bind_ok hrun₁, runFrom_bind_ok hrun₂, runFrom_bind_ok hrun₃]
    rfl
  constructor
  case takes => exact ⟨t₂, hall.takes, rfl⟩
  case asked => exact ⟨others, by rw [List.map_append, hlines₁, hlines], hothers, hnot⟩
  case once =>
    -- deletes that were asked for are refused once each, and all others are about other ids
    rw [List.filter_append, List.map_append]
    refine List.nodup_append'.mpr ⟨hrefusals₁.once, ?_, ?_⟩
    · refine List.Nodup.sublist (List.filter_sublist.map _) ?_
      rw [hids₂]
      exact hothers.map fun _ _ h => Option.some.inj h
    · intro id hid hid'
      have hid := (List.filter_sublist.map _).subset hid
      have hid' := (List.filter_sublist.map _).subset hid'
      rw [hids₁] at hid
      rw [hids₂] at hid'
      obtain ⟨x, hx, rfl⟩ := List.mem_map.mp hid'
      exact hnot x hx hid
  case failed =>
    intro x hx
    have hfront : x ∈ tally₁.retry ∨ ∃ o ∈ lines₂ ++ lines₃, o.error.isSome ∧ o.id = some x :=
      (htakes₂.trans ht₁ htakes₃).failed x hx
    rcases hfront with hx | ⟨o, ho, herror, hid⟩
    · have hretried := ((hretry₁ x hx).resolve_left (by simp [tally])).append
        (htakes₁.takes.sound ht) (htakes₂.trans ht₁ htakes₃).takes
      obtain ⟨o, ho, herror, hid, hnone⟩ := hretried
      exact ⟨o, ho, herror, hid, fun _ => hnone⟩
    · -- what is tried again for a query was not asked for
      have hmem : o.id ∈ (lines₂ ++ lines₃).map (·.id) := List.mem_map_of_mem ho
      rw [hids₂] at hmem
      obtain ⟨y, hy, heq⟩ := List.mem_map.mp hmem
      obtain rfl := Option.some.inj (heq.trans hid)
      exact ⟨o, List.mem_append_right _ ho, herror, hid, fun hasked => absurd hasked (hnot y hy)⟩
  case unasked =>
    intro o ho herror x hid hnone
    rcases List.mem_append.mp ho with ho | ho
    · exact absurd (hids₁ ▸ hid ▸ List.mem_map_of_mem ho) hnone
    · rcases List.mem_append.mp ho with ho | ho
      · rw [hsuccess₂ o ho] at herror
        cases herror
      · exact hretry₃ o ho x hid
  case pending => exact hall.pending

end Deletes

/-- The answer to a contribution is taken over: first what became of the writes, then what became of
the deletes. -/
structure Settlement (t : Tracker α) (a : Session.Answer)
    (writes deletes : List (InstanceOutcome Error)) (t₁ t' : Tracker α) : Prop where
  written : TakesAll a.writes t writes t₁
  /-- Each instance that is to be written has a line: first those that did not pass their checks. -/
  subjects : writes.map (·.subject) =
    a.prepared.invalid.map (fun v => (t.layout.name, .write, v.1)) ++
      a.prepared.batch.writes.map (fun w => (t.layout.name, .write, w.identity))
  /-- Either all deletes that were asked for fail, and stay what they are. -/
  unevaluated : ¬a.Evaluated → t' = t₁ ∧ ∃ e, deletes = t.failedDeletes a.prepared e
  /-- Or each of them is settled. -/
  evaluated : a.Evaluated → SettledDeletes a.writes t₁ a.prepared.deletes deletes t'

/-- An answer to a contribution is taken over without fail. -/
theorem applyReply_ok (ht : t.Sound) {a : Session.Answer} (hfits : a.Fits)
    (hnodup : (a.prepared.batch.writes.map (·.identity)).Nodup)
    (hheld : ∀ w ∈ a.prepared.batch.writes, (t.slot w.identity).isSome) :
    ∃ applied writes deletes t₁ t',
      runFrom t (applyReply a.prepared a.reply a.deleteFailure) = (.ok applied, t') ∧
        applied.outcomes = writes ++ deletes ∧ Settlement t a writes deletes t₁ t' := by
  obtain ⟨p, reply, failure⟩ := a
  have hinvalid : ∀ o ∈ t.invalidOutcomes p, o.error.isSome := by
    intro o ho
    obtain ⟨v, -, rfl⟩ := List.mem_map.mp ho
    rfl
  have hsubjects : (t.invalidOutcomes p).map (·.subject) =
      p.invalid.map (fun v => (t.layout.name, .write, v.1)) := by
    rw [invalidOutcomes, List.map_map]
    rfl
  unfold applyReply
  rw [runFrom_bind_ok (runFrom_get t)]
  cases reply with
  | error e =>
    -- the script was not run, or has failed as a whole: each write and each delete has failed
    let failed := p.batch.writes.map fun w => t.writeOutcome w.identity w.id (some (.backend e))
    refine ⟨_, t.invalidOutcomes p ++ failed, t.failedDeletes p e, t, t, rfl, ?_, ?_⟩
    · exact (List.append_assoc ..).symm
    constructor
    case written =>
      refine .of_failed fun o ho => ?_
      rcases List.mem_append.mp ho with ho | ho
      · exact hinvalid o ho
      · obtain ⟨w, -, rfl⟩ := List.mem_map.mp ho
        rfl
    case subjects =>
      rw [List.map_append, hsubjects, List.map_map]
      rfl
    case unevaluated => exact fun _ => ⟨rfl, e, rfl⟩
    case evaluated => exact fun h => absurd h.1 (by simp [Except.isOk, Except.toBool])
  | ok r =>
    obtain ⟨hwrites, hids⟩ := hfits r rfl
    -- there is a result for each write, and each instance is still held
    have hlength : r.writes.length = p.batch.writes.length := by
      simpa using congrArg List.length hwrites
    have hheld' : ∀ w ∈ r.writes, (t.slot w.identity).isSome := by
      intro w hw
      have hmem : w.identity ∈ r.writes.map (·.identity) := List.mem_map_of_mem hw
      rw [hwrites] at hmem
      obtain ⟨v, hv, heq⟩ := List.mem_map.mp hmem
      rw [← heq]
      exact hheld v hv
    obtain ⟨lines, applied₁, t₁, hrun, houtcomes, hlines, htakes⟩ :=
      applyWrites_ok ht { Applied.empty with outcomes := t.invalidOutcomes p }
        (fun w (hw : w ∈ r.writes) => hw)
        (hwrites ▸ hnodup) hheld'
    have hwritten : TakesAll r.writes t (t.invalidOutcomes p ++ lines) t₁ :=
      (TakesAll.of_failed hinvalid).append htakes
    have hlines' : (t.invalidOutcomes p ++ lines).map (·.subject) =
        p.invalid.map (fun v => (t.layout.name, .write, v.1)) ++
          p.batch.writes.map (fun w => (t.layout.name, .write, w.identity)) := by
      have hpairs := congrArg (List.map fun key => (t.layout.name, CommitAction.write, key)) hwrites
      rw [List.map_map, List.map_map] at hpairs
      rw [List.map_append, hsubjects, hlines]
      exact congrArg _ hpairs
    simp only [hlength, ne_eq, not_true_eq_false, if_false]
    rw [runFrom_bind_ok hrun]
    cases failure with
    | some e =>
      -- the ids to delete could not be collected, so the deletes stay as they are
      refine ⟨_, _, t.failedDeletes p e, t₁, t₁, rfl, congrArg (· ++ _) houtcomes, ?_⟩
      exact ⟨hwritten, hlines', fun _ => ⟨rfl, e, rfl⟩, fun h => nomatch h.2⟩
    | none =>
      obtain ⟨deletes, applied', t', hrun', houtcomes', hsettled⟩ :=
        settleDeletes_ok r.writes (hwritten.sound ht) p applied₁ hids
      refine ⟨applied', _, deletes, t₁, t', hrun', ?_, hwritten, hlines', ?_, fun _ => hsettled⟩
      · rw [houtcomes', houtcomes]
      · exact fun h => absurd ⟨rfl, rfl⟩ h

end Tracker

end KeyedRecords
