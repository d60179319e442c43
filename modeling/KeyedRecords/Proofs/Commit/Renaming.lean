import KeyedRecords.Proofs.Commit.Footprint
import KeyedRecords.Proofs.Store.Renaming

/-!
# Commits under other names

The script of a commit reads and changes keys of its model that are no results of queries, besides
the keys that name the ids to delete. So it does not matter under which names the latter are
(`CommitScript.simulates_run`).
-/

namespace KeyedRecords

namespace CommitScript

open Keyspace

variable {ρ : Renaming} {ks ks' : Keyspace} {b : Batch}

section Checks

theorem expectKind_of_corresponds (h : Corresponds ρ ks ks') {key : String}
    (hkey : ρ.Pairs key key) (kind : DataKind) :
    expectKind ks' key kind = expectKind ks key kind := by
  unfold expectKind
  rw [h.kind? hkey]

variable (hρ : ρ.Fixes b.keys)
include hρ

theorem pairs_entryKey (spec : IndexSpec) (value : String) :
    ρ.Pairs (entryKey b spec value).1 (entryKey b spec value).1 := by
  unfold entryKey
  split
  · exact hρ.unique _
  · exact hρ.index _ _

variable (h : Corresponds ρ ks ks')
include h

theorem stored_of_corresponds (id : String) : stored ks' b id = stored ks b id := by
  simp only [stored, expectKind_of_corresponds h (hρ.object id), h.hash? (hρ.object id)]

/-- The entry of an indexed value has its kind in one key space as in the other. -/
theorem expectEntry_of_corresponds (spec : IndexSpec) (value : String) (kind : DataKind) :
    expectKind ks' (entryKey b spec value).1 kind = expectKind ks (entryKey b spec value).1 kind :=
  expectKind_of_corresponds h (pairs_entryKey hρ spec value) kind

theorem checkDelete_of_corresponds (id : String) : checkDelete ks' b id = checkDelete ks b id := by
  simp only [checkDelete, expectKind_of_corresponds h hρ.ids, stored_of_corresponds hρ h,
    expectEntry_of_corresponds hρ h]

theorem checkWrite_of_corresponds (w : InstanceWrite) : checkWrite ks' b w = checkWrite ks b w := by
  have hindex : ∀ record, checkIndex ks' b w record = checkIndex ks b w record := by
    intro record
    funext spec
    simp only [checkIndex, expectEntry_of_corresponds hρ h]
  have hunique : checkUnique ks' b w = checkUnique ks b w := by
    funext spec
    simp only [checkUnique, h.hash? (hρ.unique spec.field)]
  simp only [checkWrite, expectKind_of_corresponds h hρ.ids, stored_of_corresponds hρ h,
    expectKind_of_corresponds h hρ.counter, hindex, hunique]

end Checks

section Steps

theorem simulates_each {α : Type} {f g : α → Step Unit} (h : ∀ a, Simulates ρ (f a) (g a))
    (items : List α) : Simulates ρ (each f items) (each g items) := by
  induction items with
  | nil => exact simulates_pure _
  | cons a rest ih => exact (h a).bind fun _ => ih

/-- Steps that may refuse their instance simulate each other if they do by themselves. -/
theorem simulates_attempt {α : Type} {s s' : Step α} (h : Simulates ρ s s') :
    Simulates ρ s.attempt s'.attempt := by
  intro ks ks' hks
  obtain ⟨hresult, hks⟩ := h ks ks' hks
  exact ⟨congrArg (Except.mapError CommandFault.refusal) hresult, hks⟩

section Collections

variable {key : String} (hkey : ρ.Pairs key key)
include hkey

theorem simulates_addMember (score : Double) (id : String) :
    Simulates ρ (addMember b key score id) (addMember b key score id) := by
  unfold addMember
  split
  · exact (simulates_addScored hkey _).discard
  · exact (simulates_addMembers hkey _).discard

theorem simulates_removeMember (id : String) :
    Simulates ρ (removeMember b key id) (removeMember b key id) := by
  unfold removeMember
  split
  · exact (simulates_removeScored hkey _).discard
  · exact (simulates_removeMembers hkey _).discard

end Collections

variable (hρ : ρ.Fixes b.keys)
include hρ

theorem simulates_unlink (spec : IndexSpec) (value id : String) :
    Simulates ρ (unlink b spec value id) (unlink b spec value id) := by
  unfold unlink
  split
  · refine (simulates_read fun _ _ h => h.hash? (hρ.unique _)).bind fun owners => ?_
    dsimp only
    split
    · exact (simulates_removeFields (hρ.unique _) _).discard
    · exact simulates_pure _
  · exact simulates_removeMember (hρ.index _ _) id

theorem simulates_unlinkOld (w : InstanceWrite) (record : Option (Table String)) (id : String) :
    Simulates ρ (unlinkOld b w record id) (unlinkOld b w record id) := by
  refine simulates_each (fun spec => ?_) b.indices
  split
  · split
    · exact simulates_pure _
    · exact simulates_unlink hρ _ _ _
  · exact simulates_pure _

theorem simulates_linkNew (w : InstanceWrite) (score : Double) (id : String) :
    Simulates ρ (linkNew b w score id) (linkNew b w score id) := by
  refine simulates_each (fun spec => ?_) b.indices
  split
  · exact simulates_pure _
  · split
    · exact (simulates_setFields (hρ.unique _) _).discard
    · exact simulates_addMember (hρ.index _ _) _ _

theorem simulates_place (id : String) (pairs : List (String × String)) (score : Double) :
    Simulates ρ (place b id pairs score) (place b id pairs score) :=
  (simulates_delete (.cons (hρ.object id) .nil)).bind fun _ =>
    (simulates_setFields (hρ.object id) _).discard.bind fun _ =>
      simulates_addMember hρ.ids _ _

theorem simulates_tryWrite (w : InstanceWrite) : Simulates ρ (tryWrite b w) (tryWrite b w) := by
  unfold tryWrite
  refine simulates_get_bind fun ks ks' h => ?_
  rw [checkWrite_of_corresponds hρ h]
  split
  next => exact simulates_throw _
  next c _ =>
    rw [writeOne_eq]
    refine Simulates.bind ?_ fun id => Simulates.bind ?_ fun _ => simulates_pure _
    · unfold assign
      split
      · exact simulates_pure _
      · exact (simulates_attempt (simulates_increment hρ.counter)).map
    · refine simulates_attempt ?_
      unfold writeAs
      exact (simulates_unlinkOld hρ _ _ _).bind fun _ => (simulates_place hρ _ _ _).bind fun _ =>
        simulates_linkNew hρ _ _ _

theorem simulates_tryDelete (id : String) : Simulates ρ (tryDelete b id) (tryDelete b id) := by
  unfold tryDelete
  refine simulates_get_bind fun ks ks' h => ?_
  rw [checkDelete_of_corresponds hρ h]
  split
  next => exact simulates_throw _
  next record _ =>
    refine simulates_attempt ?_
    unfold deleteOne
    refine (simulates_removeMember hρ.ids id).bind fun _ => ?_
    cases record with
    | none => exact simulates_pure _
    | some fields =>
      refine Simulates.bind ?_ fun _ => Simulates.bind ?_ fun _ => simulates_pure _
      · refine simulates_each (fun spec => ?_) b.indices
        split
        · exact simulates_unlink hρ _ _ _
        · exact simulates_pure _
      · refine simulates_delete (.cons (hρ.object id) ?_)
        rw [List.forall₂_map_left_iff, List.forall₂_map_right_iff, List.forall₂_same]
        exact fun name _ => hρ.container id name

end Steps

section Runs

/-- What a commit reads the ids to delete from has paired names. -/
inductive SourcePairs (ρ : Renaming) : DeleteSource → DeleteSource → Prop
  | ids (ids : List String) : SourcePairs ρ (.ids ids) (.ids ids)
  | key {key key' : String} (h : ρ.Pairs key key') : SourcePairs ρ (.key key) (.key key')

theorem simulates_idsOf {sources sources' : List DeleteSource}
    (h : List.Forall₂ (SourcePairs ρ) sources sources') :
    Simulates ρ (idsOf sources) (idsOf sources') := by
  induction h with
  | nil => exact simulates_pure _
  | cons hhead _ ih =>
    cases hhead with
    | ids => exact ih.bind fun _ => simulates_pure _
    | key hkey =>
      exact (simulates_read fun _ _ h => h.members hkey).bind fun _ => ih.bind fun _ =>
        simulates_pure _

variable (hρ : ρ.Fixes b.keys)
include hρ

/-- An instance that is reached has the same result, and leads to corresponding key spaces. -/
theorem visit_of_corresponds (h : Corresponds ρ ks ks') (t : Turn) :
    (visit b ks' t).result = (visit b ks t).result ∧
      Corresponds ρ (visit b ks t).after (visit b ks' t).after := by
  cases t with
  | delete id => exact (simulates_tryDelete hρ id).map ks ks' h
  | write w => exact (simulates_tryWrite hρ w).map ks ks' h

/-- So have instances that are reached one after another, and the reply is about their results. -/
theorem visits_of_corresponds (h : Corresponds ρ ks ks') (ts : List Turn) :
    replyOf (visits b ks' ts) = replyOf (visits b ks ts) ∧
      Corresponds ρ (behind ks (visits b ks ts)) (behind ks' (visits b ks' ts)) := by
  induction ts generalizing ks ks' with
  | nil => exact ⟨rfl, h⟩
  | cons t rest ih =>
    obtain ⟨hresult, hafter⟩ := visit_of_corresponds hρ h t
    obtain ⟨hreply, hbehind⟩ := ih hafter
    refine ⟨?_, hbehind⟩
    -- what a visit adds to the reply depends on its turn and its result only
    have hturn : (visit b ks' t).turn = (visit b ks t).turn := rfl
    have hwrite : (visit b ks' t).writeReply? = (visit b ks t).writeReply? := by
      simp only [Visit.writeReply?, hturn, hresult]
    have hdeleted : (visit b ks' t).deleted? = (visit b ks t).deleted? := by
      simp only [Visit.deleted?, hturn, hresult]
    have hfailed : (visit b ks' t).failedDelete? = (visit b ks t).failedDelete? := by
      simp only [Visit.failedDelete?, hturn, hresult]
    simp only [replyOf, BatchReply.mk.injEq] at hreply
    simp only [replyOf, visits, List.filterMap_cons, hwrite, hdeleted, hfailed, hreply]

/-- A commit simulates one of the same instances that reads the ids to delete under other names. -/
theorem simulates_run {sources : List DeleteSource}
    (h : List.Forall₂ (SourcePairs ρ) b.deletes sources) :
    Simulates ρ (run b) (run { b with deletes := sources }) := by
  intro ks ks' hks
  obtain ⟨hids, -⟩ := simulates_idsOf h ks ks' hks
  obtain ⟨e, hrun⟩ | ⟨ids, hrun⟩ := run_idsOf ks b.deletes
  all_goals
    obtain ⟨e', hrun'⟩ | ⟨ids', hrun'⟩ := run_idsOf ks' sources
    all_goals rw [hrun, hrun'] at hids
  · obtain rfl := Except.error.inj hids
    rw [run_eq_of_error hrun, run_eq_of_error (b := { b with deletes := sources }) hrun']
    exact ⟨rfl, hks⟩
  · cases hids
  · cases hids
  · obtain rfl := Except.ok.inj hids
    obtain ⟨hreply, hbehind⟩ := visits_of_corresponds hρ hks (turnsOf ids'.eraseDups b.writes)
    rw [run_eq hrun, run_eq (b := { b with deletes := sources }) hrun',
      visits_with b b.writes sources]
    exact ⟨congrArg Except.ok hreply, hbehind⟩

end Runs

end CommitScript

end KeyedRecords
