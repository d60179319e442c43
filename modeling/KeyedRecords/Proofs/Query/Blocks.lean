import KeyedRecords.Proofs.Query.Composition
import KeyedRecords.Proofs.Query.Lowering
import KeyedRecords.Proofs.Store.Footprint

/-!
# Plans that fail

The commands of a plan come in blocks, and each block fills one temporary key of its own
(`lowerNode_blocks`). Behind all of them, the keys that are starved are empty
(`Blocks.data?_of_mem_starve`), whatever the other keys of the model hold, as long as the collection
of all ids has its kind.
-/

namespace KeyedRecords

namespace Lowering

/-- The commands that fill the `n`-th temporary key: one that collects ids from other keys, or one
that puts given ids there and one that restricts them to the ids of the model. -/
inductive Block (t : Target) (n : Nat) : List Command → Prop
  | collect {c : Command} (hc : c.destination? = some (t.temporary n)) :
      Block t n [c, .expire (t.temporary n) t.lifetime]
  | given {ids : List String} (hids : ids ≠ []) :
      Block t n [.sadd (t.temporary n) ids, t.restrictCommand (t.temporary n),
        .expire (t.temporary n) t.lifetime]

/-- Commands in blocks that fill the temporary keys from the `n`-th on. -/
inductive Blocks (t : Target) : Nat → List Command → List String → Prop
  | nil (n : Nat) : Blocks t n [] []
  | cons {n : Nat} {cs more : List Command} {keys : List String} (hblock : Block t n cs)
      (hmore : Blocks t (n + 1) more keys) : Blocks t n (cs ++ more) (t.temporary n :: keys)

namespace Blocks

variable {t : Target} {n : Nat} {cs more : List Command} {keys later : List String}

/-- A single block. -/
theorem single (h : Block t n cs) : Blocks t n cs [t.temporary n] := by
  have hblocks := cons h (nil (n + 1))
  rwa [List.append_nil] at hblocks

/-- Blocks one behind the other. -/
theorem append (h : Blocks t n cs keys) (hmore : Blocks t (n + keys.length) more later) :
    Blocks t n (cs ++ more) (keys ++ later) := by
  induction h with
  | nil => exact hmore
  | @cons n cs rest keys hblock _ ih =>
    rw [List.length_cons, Nat.add_comm keys.length, ← Nat.add_assoc] at hmore
    rw [List.append_assoc, List.cons_append]
    exact cons hblock (ih hmore)

/-- The keys that blocks fill are numbered in turn. -/
theorem keys_eq (h : Blocks t n cs keys) :
    keys = (List.range' n keys.length).map t.temporary := by
  induction h with
  | nil => rfl
  | cons _ _ ih => rw [List.length_cons, List.range'_succ, List.map_cons, ← ih]

end Blocks

variable {t : Target}

/-- Commands that combine results store them under the key that is named. -/
theorem Target.destination?_combine {command : String → List String → Command}
    (h : command ∈ [t.unionCommand, t.intersectCommand, t.differenceCommand]) (dest : String)
    (keys : List String) : (command dest keys).destination? = some dest := by
  simp only [List.mem_cons, List.not_mem_nil, or_false] at h
  rcases h with rfl | rfl | rfl
  · unfold unionCommand
    split <;> rfl
  · unfold intersectCommand
    split <;> rfl
  · unfold differenceCommand
    split <;> rfl

/-- The fragments of nodes come in blocks. -/
theorem composable_blocks (t : Target) :
    Composable t fun n parts => Blocks t n parts.commands parts.temporaries where
  keys _ := .nil _
  append h hmore := h.append hmore
  nothing h := h
  -- the results of blocks are combined behind them, in one more block
  combine h hcommand := h.append (.single (.collect (Target.destination?_combine hcommand ..)))
  given hids := .single (.given hids)
  owners := .single (.collect rfl)

/-- The commands of a node come in blocks. -/
theorem lowerNode_blocks {n : Nat} {node : Tree} {found : Fragment}
    (h : lowerNode t n node = .ok found) : Blocks t n found.commands found.temporaries :=
  (composable_blocks t).lowerNode h

section Runs

open Keyspace

variable {ks : Keyspace} {n : Nat} {cs : List Command} {keys : List String}

/-- The restriction of given ids is stored where they are. -/
theorem Target.destination?_restrictCommand (t : Target) (dest : String) :
    (t.restrictCommand dest).destination? = some dest := by
  unfold restrictCommand
  split <;> rfl

/-- The collection of all ids is no result of a query. -/
theorem Target.ids_ne_temporary (t : Target) (n : Nat) : t.layout.keys.ids ≠ t.temporary n :=
  ModelKeys.InSection.ne (.ids rfl) (.temporary n rfl) (by simp)

/-- Given ids are put under a free key. -/
theorem execute_sadd {dest : String} {ids : List String} (hfree : ks.data? dest = none)
    (hids : ids ≠ []) :
    ∃ n ks', ks.execute (.sadd dest ids) = (.count n, ks') ∧
      ∀ key, key ≠ dest → ks'.data? key = ks.data? key := by
  obtain ⟨n, ks', hrun, hchanged, -⟩ := run_addMembers (Fits.of_none hfree) ids hids
  exact ⟨n, ks', execute_ok (run_map_ok hrun _), fun _ hkey => hchanged.data? hkey⟩

/-- A block changes nothing but the key that it fills. -/
theorem Block.beside (h : Block t n cs) (ks : Keyspace) :
    Beside (· = t.temporary n) ks (ks.executeAll cs).2 := by
  have hexpire : ∀ ks time,
      Beside (· = t.temporary n) ks (ks.expire (t.temporary n) time) := fun ks =>
    .expire ks rfl
  cases h with
  | collect hc =>
    simp only [executeAll, execute_expire]
    exact (beside_collect hc ks).trans (hexpire _ _)
  | @given ids hids =>
    have hedits : Edits (· = t.temporary n) (Step.ofCommand (.sadd (t.temporary n) ids)) :=
      (revises_addMembers _ ids).edits_self.map
    -- the restriction replaces the given ids, or fails and leaves them there
    simp only [executeAll, execute_expire]
    exact ((beside_execute hedits.touches ks).trans
      (beside_collect (t.destination?_restrictCommand _) _)).trans (hexpire _ _)

/-- The key of a block is empty behind it if it is starved there. -/
theorem Block.data?_of_mem_starve (h : Block t n cs) (hfree : ks.data? (t.temporary n) = none)
    (hfits : ks.Fits t.layout.keys.ids t.layout.memberKind) {empty : List String}
    (hempty : ∀ key ∈ empty, key ≠ t.temporary n ∧ ks.data? key = none) :
    ∀ key ∈ (cs.zip (ks.executeAll cs).1).foldl starve empty,
      (key ∈ empty ∨ key = t.temporary n) ∧ (ks.executeAll cs).2.data? key = none := by
  cases h with
  | @collect c hc =>
    simp only [executeAll, execute_expire, data?_expire]
    exact Keyspace.data?_of_mem_starve hc (.inl hfree) hempty
  | @given ids hids =>
    obtain ⟨m, ks', hsadd, hsame⟩ := execute_sadd hfree hids
    obtain ⟨_, hsucceeds, -, -⟩ := Target.stores_ids hfits hfree (t.ids_ne_temporary n) hids
    -- the given ids are under the key by now, but restricting them does not fail
    have hrestrict : (ks'.execute (t.restrictCommand (t.temporary n))).1.isError = false := by
      refine hsucceeds.replies _ ?_
      simp [executeAll, hsadd]
    simp only [executeAll, hsadd, execute_expire, data?_expire]
    refine Keyspace.data?_of_mem_starve (t.destination?_restrictCommand _) (.inr hrestrict) ?_
    intro key hkey
    obtain ⟨hne, hnone⟩ := hempty key hkey
    exact ⟨hne, (hsame key hne).trans hnone⟩

/-- Behind a block, the keys of the next ones are still free. -/
theorem Block.fresh (h : Block t n cs) (hfresh : ks.Fresh (t.temporary n :: keys)) :
    (ks.executeAll cs).2.Fresh keys := by
  have hfront : ks.Fresh ([t.temporary n] ++ keys) := hfresh
  refine hfront.right fun key hkey => ?_
  exact (h.beside ks).data? (List.ne_of_not_mem_cons hkey)

/-- Blocks change nothing but the keys that they fill. -/
theorem Blocks.beside (h : Blocks t n cs keys) (ks : Keyspace) :
    Beside (· ∈ keys) ks (ks.executeAll cs).2 := by
  induction h generalizing ks with
  | nil => exact .refl ks
  | cons hblock _ ih =>
    rw [executeAll_append]
    refine Beside.trans ((hblock.beside ks).mono ?_) ((ih _).mono fun _ => List.mem_cons_of_mem _)
    exact fun key hkey => hkey ▸ List.mem_cons_self

/-- The keys that blocks starve are empty behind them. -/
theorem Blocks.data?_of_mem_starve (h : Blocks t n cs keys) (hfresh : ks.Fresh keys)
    (hfits : ks.Fits t.layout.keys.ids t.layout.memberKind) {empty : List String}
    (hempty : ∀ key ∈ empty, key ∉ keys ∧ ks.data? key = none) :
    ∀ key ∈ (cs.zip (ks.executeAll cs).1).foldl starve empty,
      (ks.executeAll cs).2.data? key = none := by
  -- block by block: the keys that are starved so far are empty, and no block to come fills them
  induction h generalizing ks empty with
  | nil => exact fun key hkey => (hempty key hkey).2
  | @cons n cs more keys hblock _ ih =>
    have hfree := hfresh.absent _ List.mem_cons_self
    have hfirst : ∀ key ∈ empty, key ≠ t.temporary n ∧ ks.data? key = none := fun key hkey =>
      ⟨List.ne_of_not_mem_cons (hempty key hkey).1, (hempty key hkey).2⟩
    have hstarved := hblock.data?_of_mem_starve hfree hfits hfirst
    rw [zip_executeAll_append, List.foldl_append, executeAll_append]
    refine ih (hblock.fresh hfresh) ?_ fun key hkey => ?_
    · exact hfits.of_data?_eq ((hblock.beside ks).data? (t.ids_ne_temporary n))
    · obtain ⟨hkey | rfl, hnone⟩ := hstarved key hkey
      · exact ⟨List.not_mem_of_not_mem_cons (hempty key hkey).1, hnone⟩
      · exact ⟨(List.nodup_cons.mp hfresh.distinct).1, hnone⟩

end Runs

end Lowering

end KeyedRecords
