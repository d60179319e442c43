import KeyedRecords.Proofs.Commit.Visits
import KeyedRecords.Proofs.Store.Footprint

/-!
# The footprint of a commit

Whatever becomes of a batch, its script touches keys of its own model only, and none of the results
of queries among them (`CommitScript.edits_lasting`); and all keys of the model keep their kinds
(`CommitScript.keepsKinds_run`).
-/

namespace KeyedRecords

namespace CommitScript

open Keyspace

variable {b : Batch} {K : String → Prop}

section Parts

variable {key : String} (hkey : K key)
include hkey

theorem edits_addMember (score : Double) (id : String) :
    Edits K (addMember b key score id) := by
  unfold addMember
  split
  · exact ((revises_addScored key _).edits hkey).discard
  · exact ((revises_addMembers key _).edits hkey).discard

theorem edits_removeMember (id : String) : Edits K (removeMember b key id) := by
  unfold removeMember
  split
  · exact ((revises_removeScored key _).edits hkey).discard
  · exact ((revises_removeMembers key _).edits hkey).discard

end Parts

theorem edits_each {α : Type} {f : α → Step Unit} (h : ∀ a, Edits K (f a)) (items : List α) :
    Edits K (each f items) := by
  induction items with
  | nil => exact edits_pure _
  | cons a rest ih => exact (h a).bind fun _ => ih

/-- A step that may refuse its instance edits what it would edit by itself. -/
theorem edits_attempt {α : Type} {s : Step α} (h : Edits K s) : Edits K s.attempt := h

section Script

variable (hK : ∀ {key s}, b.keys.InSection key s → s ≠ .temporary → K key)
include hK

theorem edits_unlink (spec : IndexSpec) (value id : String) :
    Edits K (unlink b spec value id) := by
  unfold unlink
  split
  · refine (edits_read _).bind fun owners => ?_
    dsimp only
    split
    · exact ((revises_removeFields _ _).edits (hK (.unique _ rfl) (by simp))).discard
    · exact edits_pure _
  · exact edits_removeMember (hK (.index _ _ rfl) (by simp)) id

theorem edits_unlinkOld (w : InstanceWrite) (record : Option (Table String)) (id : String) :
    Edits K (unlinkOld b w record id) := by
  refine edits_each (fun spec => ?_) b.indices
  split
  · split
    · exact edits_pure _
    · exact edits_unlink hK _ _ _
  · exact edits_pure _

theorem edits_linkNew (w : InstanceWrite) (score : Double) (id : String) :
    Edits K (linkNew b w score id) := by
  refine edits_each (fun spec => ?_) b.indices
  split
  · exact edits_pure _
  · split
    · exact ((revises_setFields _ _).edits (hK (.unique _ rfl) (by simp))).discard
    · exact edits_addMember (hK (.index _ _ rfl) (by simp)) _ _

theorem edits_place (id : String) (pairs : List (String × String)) (score : Double) :
    Edits K (place b id pairs score) := by
  unfold place
  refine Edits.bind ?_ fun _ => Edits.bind ?_ fun _ =>
    edits_addMember (hK (.ids rfl) (by simp)) _ _
  · exact (edits_delete (by simpa using hK (.object id rfl) (by simp))).discard
  · exact ((revises_setFields _ _).edits (hK (.object id rfl) (by simp))).discard

theorem edits_tryWrite (w : InstanceWrite) : Edits K (tryWrite b w) := by
  unfold tryWrite
  refine edits_get_bind fun ks => ?_
  split
  next => exact edits_throw _
  next c _ =>
    rw [writeOne_eq]
    refine Edits.bind ?_ fun id => Edits.bind ?_ fun _ => edits_pure _
    · unfold assign
      split
      · exact edits_pure _
      · exact (edits_attempt ((revises_increment _).edits (hK (.counter rfl) (by simp)))).map
    · refine edits_attempt ?_
      unfold writeAs
      exact (edits_unlinkOld hK _ _ _).bind fun _ => (edits_place hK _ _ _).bind fun _ =>
        edits_linkNew hK _ _ _

theorem edits_tryDelete (id : String) : Edits K (tryDelete b id) := by
  unfold tryDelete
  refine edits_get_bind fun ks => ?_
  split
  next => exact edits_throw _
  next record _ =>
    refine edits_attempt ?_
    unfold deleteOne
    refine (edits_removeMember (hK (.ids rfl) (by simp)) id).bind fun _ => ?_
    cases record with
    | none => exact edits_pure _
    | some fields =>
      refine Edits.bind ?_ fun _ => Edits.bind ?_ fun _ => edits_pure _
      · refine edits_each (fun spec => ?_) b.indices
        split
        · exact edits_unlink hK _ _ _
        · exact edits_pure _
      · refine (edits_delete ?_).discard
        rw [List.forall_mem_cons, List.forall_mem_map]
        refine ⟨hK (.object id rfl) (by simp), fun name _ => ?_⟩
        exact hK (.object _ (b.keys.container_eq_object id name)) (by simp)

/-- An instance that is reached edits keys of its model only. -/
theorem edited_visit (ks : Keyspace) (t : Turn) : Edited K ks (visit b ks t).after := by
  cases t with
  | delete id => exact (edits_tryDelete hK id).map ks
  | write w => exact (edits_tryWrite hK w).map ks

/-- Instances that are reached one after another edit keys of their model only. -/
theorem edited_visits (ks : Keyspace) (ts : List Turn) :
    Edited K ks (behind ks (visits b ks ts)) := by
  induction ts generalizing ks with
  | nil => exact .refl
  | cons t rest ih => exact (edited_visit hK ks t).trans (ih _)

end Script

/-- Whatever becomes of a batch, its script edits keys of its model only, and no results of
queries. -/
theorem edits_lasting (b : Batch) :
    Edits (fun key => ∃ s, b.keys.InSection key s ∧ s ≠ .temporary) (run b) := by
  intro ks
  obtain ⟨e, hids⟩ | ⟨ids, hids⟩ := run_idsOf ks b.deletes
  · rw [run_eq_of_error hids]
    exact .refl
  · rw [run_eq hids]
    exact edited_visits (fun hkey hs => ⟨_, hkey, hs⟩) ks _

theorem edits_run (b : Batch) : Edits b.keys.Owns (run b) :=
  (edits_lasting b).mono fun _ ⟨s, hkey, _⟩ => ⟨s, hkey⟩

/-- An instance that is reached leaves the kinds of all keys as they are. -/
theorem keepsKinds_visit (b : Batch) (ks : Keyspace) (t : Turn) :
    KeepsKinds b ks (visit b ks t).after := by
  unfold visit
  cases t with
  | delete id =>
    obtain ⟨e, -, hrun⟩ | ⟨record, ks', -, -, hdeleted, -, hrun⟩ := run_tryDelete ks b id
    · rw [Turn.attempt, run_map_error hrun]
      exact fun _ _ _ hfits => hfits
    · rw [Turn.attempt, run_map_ok hrun]
      exact hdeleted.kinds
  | write w =>
    obtain ⟨e, hrun⟩ | ⟨c, id, ks₁, ks', -, hid, hwritten, hrun⟩ := run_tryWrite ks b w
    · rw [Turn.attempt, run_map_error hrun]
      exact fun _ _ _ hfits => hfits
    · rw [Turn.attempt, run_map_ok hrun]
      exact fun key kind he hfits => hwritten.kinds key kind he (hid.kinds key kind he hfits)

/-- Whatever becomes of a batch, its script leaves the kinds of all keys as they are. -/
theorem keepsKinds_run (b : Batch) (ks : Keyspace) : KeepsKinds b ks (ks.run (run b)).2 := by
  have hvisits : ∀ (ts : List Turn) (ks : Keyspace),
      KeepsKinds b ks (behind ks (visits b ks ts)) := by
    intro ts
    induction ts with
    | nil => exact fun _ _ _ _ hfits => hfits
    | cons t rest ih =>
      exact fun ks key kind he hfits => ih _ key kind he (keepsKinds_visit b ks t key kind he hfits)
  obtain ⟨e, hids⟩ | ⟨ids, hids⟩ := run_idsOf ks b.deletes
  · rw [run_eq_of_error hids]
    exact fun _ _ _ hfits => hfits
  · rw [run_eq hids]
    exact hvisits _ ks

end CommitScript

end KeyedRecords
