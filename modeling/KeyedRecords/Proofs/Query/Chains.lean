import KeyedRecords.Proofs.Query.Blocks
import KeyedRecords.Proofs.Store.Sources

/-!
# What plans read

The commands of a plan come in blocks, and what a block reads is there already: keys of the model,
and temporary keys that blocks before it have filled (`lowerNode_chain`).
-/

namespace KeyedRecords

namespace Lowering

/-- A key that can be read when some temporary keys have been filled. -/
def Target.Ready (t : Target) (filled : List String) (key : String) : Prop :=
  key ∈ filled ∨ ¬t.layout.keys.InSection key .temporary

/-- A block that reads no temporary keys but those that are filled when it is reached. -/
inductive Link (t : Target) (filled : List String) (n : Nat) : List Command → Prop
  | collect {c : Command} (hc : c.destination? = some (t.temporary n))
      (hsources : ∀ key ∈ c.sources, t.Ready filled key) :
      Link t filled n [c, .expire (t.temporary n) t.lifetime]
  | given {ids : List String} (hids : ids ≠ []) :
      Link t filled n [.sadd (t.temporary n) ids, t.restrictCommand (t.temporary n),
        .expire (t.temporary n) t.lifetime]

/-- Commands in blocks that fill the temporary keys from the `n`-th on, each of which reads what is
there when it is reached. -/
inductive Chain (t : Target) : List String → Nat → List Command → List String → Prop
  | nil (filled : List String) (n : Nat) : Chain t filled n [] []
  | cons {filled : List String} {n : Nat} {cs more : List Command} {keys : List String}
      (hlink : Link t filled n cs)
      (hmore : Chain t (filled ++ [t.temporary n]) (n + 1) more keys) :
      Chain t filled n (cs ++ more) (t.temporary n :: keys)

variable {t : Target} {filled filled' : List String} {n : Nat} {cs more : List Command}
  {keys later : List String}

/-- More keys may have been filled. -/
theorem Target.Ready.mono {key : String} (h : t.Ready filled key)
    (hsub : ∀ key ∈ filled, key ∈ filled') : t.Ready filled' key :=
  h.imp_left (hsub key)

namespace Link

theorem mono (h : Link t filled n cs) (hsub : ∀ key ∈ filled, key ∈ filled') :
    Link t filled' n cs := by
  cases h with
  | collect hc hsources => exact .collect hc fun key hkey => (hsources key hkey).mono hsub
  | given hids => exact .given hids

theorem block (h : Link t filled n cs) : Block t n cs := by
  cases h with
  | collect hc => exact .collect hc
  | given hids => exact .given hids

end Link

namespace Chain

/-- A single block. -/
theorem single (h : Link t filled n cs) : Chain t filled n cs [t.temporary n] := by
  have hchain := cons h (nil _ (n + 1))
  rwa [List.append_nil] at hchain

theorem mono (h : Chain t filled n cs keys) (hsub : ∀ key ∈ filled, key ∈ filled') :
    Chain t filled' n cs keys := by
  induction h generalizing filled' with
  | nil => exact .nil ..
  | cons hlink _ ih =>
    refine .cons (hlink.mono hsub) (ih fun key hkey => ?_)
    exact (List.mem_append.mp hkey).elim (fun hmem => List.mem_append_left _ (hsub key hmem))
      (List.mem_append_right _)

/-- Chains one behind the other. -/
theorem append (h : Chain t filled n cs keys)
    (hmore : Chain t (filled ++ keys) (n + keys.length) more later) :
    Chain t filled n (cs ++ more) (keys ++ later) := by
  induction h with
  | nil => simpa using hmore
  | cons hlink _ ih =>
    rw [List.append_assoc, List.cons_append]
    refine .cons hlink (ih ?_)
    rwa [List.append_assoc, List.singleton_append, Nat.add_assoc, Nat.add_comm 1]

/-- The commands of a chain come in blocks. -/
theorem blocks (h : Chain t filled n cs keys) : Blocks t n cs keys := by
  induction h with
  | nil => exact .nil _
  | cons hlink _ ih => exact .cons hlink.block ih

end Chain

/-- Commands that combine results read the keys of these. -/
theorem Target.sources_combine {command : String → List String → Command}
    (h : command ∈ [t.unionCommand, t.intersectCommand, t.differenceCommand]) (dest : String)
    (keys : List String) : (command dest keys).sources = keys := by
  simp only [List.mem_cons, List.not_mem_nil, or_false] at h
  rcases h with rfl | rfl | rfl
  · unfold unionCommand
    split <;> rfl
  · unfold intersectCommand
    split <;> rfl
  · unfold differenceCommand
    split <;> rfl

/-- Fragments that make a chain by themselves, the last keys of which can be read behind it. -/
structure Chained (t : Target) (n : Nat) (parts : Fragments) : Prop where
  chain : Chain t [] n parts.commands parts.temporaries
  keys : ∀ key ∈ parts.keys, t.Ready parts.temporaries key

/-- The fragments of nodes make chains. -/
theorem composable_chained (t : Target) : Composable t (Chained t) where
  keys hkeys := ⟨.nil _ _, fun key hkey => .inr (hkeys key hkey)⟩
  append := by
    intro n a b ha hb
    refine ⟨ha.chain.append (hb.chain.mono (by simp)), fun key hkey => ?_⟩
    rcases List.mem_append.mp hkey with hkey | hkey
    · exact (ha.keys key hkey).mono fun _ => List.mem_append_left _
    · exact (hb.keys key hkey).mono fun _ => List.mem_append_right _
  nothing h := ⟨h.chain, by simp [Fragment.alone, Fragments.nothing]⟩
  combine := by
    intro n parts command h hcommand
    refine ⟨h.chain.append ?_, fun key hkey => .inl ?_⟩
    · refine .single (.collect (Target.destination?_combine hcommand ..) ?_)
      rw [Target.sources_combine hcommand]
      exact h.keys
    · obtain rfl : key = t.temporary (n + parts.temporaries.length) := by
        simpa [Fragment.alone, Target.create] using hkey
      exact List.mem_append_right _ (List.mem_singleton_self _)
  given := by
    intro n ids hids
    exact ⟨.single (.given hids), fun key hkey => .inl hkey⟩
  owners := by
    intro n field values
    refine ⟨.single (.collect rfl ?_), fun key hkey => .inl hkey⟩
    have hall : ∀ key ∈ (if t.layout.isOrdered then some t.layout.keys.ids else none).toList,
        key = t.layout.keys.ids := by
      intro key hkey
      split at hkey
      · simpa using hkey
      · cases hkey
    intro key hkey
    rcases List.mem_cons.mp hkey with rfl | hkey
    · exact .inr (ModelKeys.InSection.not_of_ne (.unique field rfl) (by simp))
    · obtain rfl := hall key hkey
      exact .inr (ModelKeys.InSection.not_of_ne (.ids rfl) (by simp))

/-- The commands of a node make a chain, and its key can be read behind it. -/
theorem lowerNode_chain {node : Tree} {found : Fragment} (h : lowerNode t n node = .ok found) :
    Chain t [] n found.commands found.temporaries ∧
      ∀ key, found.source = some key → t.Ready found.temporaries key := by
  obtain ⟨hchain, hkeys⟩ := (composable_chained t).lowerNode h
  exact ⟨hchain, fun key hkey => hkeys key (by simp [Fragment.alone, hkey])⟩

end Lowering

end KeyedRecords
