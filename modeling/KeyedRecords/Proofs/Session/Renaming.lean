import KeyedRecords.Proofs.Commit.Renaming
import KeyedRecords.Proofs.Query.Renaming
import KeyedRecords.Proofs.Session.Contributions

/-!
# Contributions under other names

What a tracker contributes to a commit does the same whatever numbers its temporary keys have
(`Tracker.prepare_renamed`): other numbers are other names for these keys (`Renaming.shift`), the
commands do the same under them (`Session.commandsFor_renamed`), and so does what the tracker makes
of the replies (`Tracker.applyReply_renamed`).
-/

namespace KeyedRecords

open Keyspace

/-- The temporary keys of a model from the `n`-th to before the `m`-th. -/
def ModelKeys.temporaries (k : ModelKeys) (n m : Nat) : List String :=
  (List.range' n (m - n)).map k.temporary

section Shift

variable {k : ModelKeys} {n m n' m' i j count : Nat}

/-- A temporary key is one of several if its number is. -/
theorem ModelKeys.mem_temporaries (hn : n ≤ i) (hm : i < m) : k.temporary i ∈ k.temporaries n m :=
  List.mem_map_of_mem (List.mem_range'_1.mpr ⟨hn, by omega⟩)

/-- Different temporary keys have different numbers. -/
theorem ModelKeys.temporary_inj (h : (k.temporaries n m).Nodup) (hi : n ≤ i ∧ i < m)
    (hj : n ≤ j ∧ j < m) : k.temporary i = k.temporary j ↔ i = j := by
  have hmem : ∀ {i}, n ≤ i ∧ i < m → i ∈ List.range' n (m - n) := fun h =>
    List.mem_range'_1.mpr ⟨h.1, by omega⟩
  exact ⟨List.inj_on_of_nodup_map h (hmem hi) (hmem hj), congrArg _⟩

variable (h : (k.temporaries n m).Nodup) (h' : (k.temporaries n' m').Nodup)
  (hi : n ≤ i ∧ i + count ≤ m) (hj : n' ≤ j ∧ j + count ≤ m')

/-- Keys of a model keep their names, except that temporary keys from the `i`-th on become those
from the `j`-th on. -/
def Renaming.shift : Renaming where
  Pairs key key' :=
    (k.Owns key ∧ key' = key ∧ key ∉ k.temporaries n m ∧ key ∉ k.temporaries n' m') ∨
      ∃ x < count, key = k.temporary (i + x) ∧ key' = k.temporary (j + x)
  eq_iff := by
    have hmem : ∀ {x}, x < count → k.temporary (i + x) ∈ k.temporaries n m := fun hx =>
      k.mem_temporaries (by omega) (by omega)
    have hmem' : ∀ {x}, x < count → k.temporary (j + x) ∈ k.temporaries n' m' := fun hx =>
      k.mem_temporaries (by omega) (by omega)
    rintro key key' other other' (⟨-, rfl, hkey, hkey'⟩ | ⟨x, hx, rfl, rfl⟩)
      (⟨-, rfl, hother, hother'⟩ | ⟨y, hy, rfl, rfl⟩)
    · rfl
    · exact iff_of_false (fun heq => hkey (heq ▸ hmem hy)) fun heq => hkey' (heq ▸ hmem' hy)
    · exact iff_of_false (fun heq => hother (heq ▸ hmem hx)) fun heq => hother' (heq ▸ hmem' hx)
    · rw [ModelKeys.temporary_inj h (by omega) (by omega),
        ModelKeys.temporary_inj h' (by omega) (by omega)]
      omega

/-- All keys of a model but its temporary keys keep their names. -/
theorem Renaming.fixes_shift : (shift h h' hi hj).Fixes k := by
  intro key s hkey hs
  have hnot : ∀ {n m}, key ∉ k.temporaries n m := by
    intro n m hmem
    obtain ⟨x, -, rfl⟩ := List.mem_map.mp hmem
    exact hs (hkey.eq (.temporary x rfl))
  exact .inl ⟨⟨s, hkey⟩, rfl, hnot, hnot⟩

end Shift

/-- A contribution does under some names what another one does under others. -/
structure Prepared.Renamed (ρ : Renaming) (p p' : Prepared) : Prop where
  batch : ∃ sources, List.Forall₂ (CommitScript.SourcePairs ρ) p.batch.deletes sources ∧
    p'.batch = { p.batch with deletes := sources }
  preamble : List.Forall₂ (Command.Renamed ρ) p.preamble p'.preamble
  /-- Both create as many keys. -/
  names : p'.names = p.names
  invalid : p'.invalid = p.invalid
  deletes : p'.deletes = p.deletes

namespace Tracker

variable {α : Type} {t : Tracker α} {session : SessionId} {validate : Bool}
  {lifetime n n' : Nat} {ρ : Renaming} {p p' : Prepared}

/-- The ids to delete are collected with other numbers too. -/
theorem deletePlan_renamed (hρ : ρ.Fixes t.layout.keys)
    (hqueries : ∀ q ∈ t.deleteQueries, q.origin.layout.keys = t.layout.keys) {plan : Option Plan}
    (h : t.deletePlan session lifetime n = .ok plan)
    (hshift : ∀ i < (plan.map (·.temporaries.length)).getD 0,
      ρ.Pairs (t.layout.keys.temporary (n + i)) (t.layout.keys.temporary (n' + i))) :
    ∃ plan', t.deletePlan session lifetime n' = .ok plan' ∧
      List.Forall₂ ρ.Pairs (plan.bind (·.source)).toList (plan'.bind (·.source)).toList ∧
      List.Forall₂ (Command.Renamed ρ) ((plan.map (·.commands)).getD [])
        ((plan'.map (·.commands)).getD []) ∧
      (plan'.map (·.temporaries.length)).getD 0 = (plan.map (·.temporaries.length)).getD 0 := by
  have hkeys : (t.deleteTree session).origin.layout.keys = t.layout.keys :=
    layout_deleteTree (P := fun l => l.keys = t.layout.keys) rfl hqueries
  unfold deletePlan at h ⊢
  simp only at h ⊢
  split at h
  next hempty =>
    cases h
    exact ⟨none, if_pos hempty, .nil, .nil, rfl⟩
  next hempty =>
    obtain ⟨found, hlower, rfl⟩ := map_ok_iff.mp h
    rw [← hkeys] at hρ hshift
    obtain ⟨found', hlower', hsource, hcommands, hcount⟩ := Tree.lower_renamed hρ hlower hshift
    rw [if_neg hempty, hlower']
    exact ⟨some found', rfl, hsource, hcommands, hcount⟩

/-- A tracker contributes with other numbers too, and its contribution does the same under the other
names. -/
theorem prepare_renamed (hρ : ρ.Fixes t.layout.keys)
    (hqueries : ∀ q ∈ t.deleteQueries, q.origin.layout.keys = t.layout.keys)
    (h : t.prepare session validate lifetime n = .ok p)
    (hshift : ∀ i < p.names,
      ρ.Pairs (t.layout.keys.temporary (n + i)) (t.layout.keys.temporary (n' + i))) :
    ∃ p', t.prepare session validate lifetime n' = .ok p' ∧ p.Renamed ρ p' := by
  obtain ⟨plan, hplan, h⟩ := bind_ok_iff.mp h
  cases h
  obtain ⟨plan', hplan', hsource, hcommands, hcount⟩ :=
    deletePlan_renamed hρ hqueries hplan hshift
  refine exists_bind_ok_and hplan' ⟨_, rfl, ⟨_, ?_, rfl⟩, hcommands, hcount, rfl, rfl⟩
  rw [List.forall₂_map_left_iff, List.forall₂_map_right_iff]
  exact hsource.imp fun _ _ hkey => .key hkey

end Tracker

namespace Session

variable {ρ : Renaming} {p p' : Prepared} {ks ks' : Keyspace}

theorem hasBatch_renamed (h : p.Renamed ρ p') : p'.hasBatch = p.hasBatch := by
  obtain ⟨sources, hsources, hbatch⟩ := h.batch
  simp only [Prepared.hasBatch, Batch.isEmpty, hbatch]
  generalize p.batch.deletes = deletes at hsources
  cases hsources <;> rfl

theorem commandsFor_renamed (hρ : ρ.Fixes p.batch.keys) (h : p.Renamed ρ p') :
    List.Forall₂ (Command.Renamed ρ) (commandsFor p) (commandsFor p') := by
  obtain ⟨sources, hsources, hbatch⟩ := h.batch
  unfold commandsFor
  rw [hasBatch_renamed h]
  split
  · refine List.rel_append h.preamble (.cons ?_ .nil)
    rw [hbatch]
    exact (CommitScript.simulates_run hρ hsources).map
  · exact .nil

/-- The store answers a contribution as it does under other names. -/
theorem answerOf_renamed (h : p.Renamed ρ p') (replies : List Reply) :
    (answerOf p' replies).reply = (answerOf p replies).reply ∧
      (answerOf p' replies).deleteFailure = (answerOf p replies).deleteFailure := by
  unfold answerOf
  rw [hasBatch_renamed h, ← h.preamble.length_eq]
  split <;> exact ⟨rfl, rfl⟩

end Session

namespace Tracker

variable {α : Type} {ρ : Renaming} {p p' : Prepared}

/-- The names of temporary keys are forgotten when a reply is taken over. -/
theorem applyReply_renamed (h : p.Renamed ρ p') (reply : Except BackendError BatchReply)
    (deleteFailure : Option BackendError) :
    applyReply (α := α) p' reply deleteFailure = applyReply p reply deleteFailure := by
  obtain ⟨sources, -, hbatch⟩ := h.batch
  obtain ⟨batch', preamble', names', invalid', deletes'⟩ := p'
  obtain rfl : invalid' = p.invalid := h.invalid
  obtain rfl : deletes' = p.deletes := h.deletes
  obtain rfl : batch' = _ := hbatch
  rfl

end Tracker

end KeyedRecords
