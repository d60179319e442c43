import KeyedRecords.Proofs.Query.Fragments
import KeyedRecords.Proofs.Result

/-!
# How fragments are put together

The fragment of a node is made of few pieces: keys of the model, selections, and commands that
combine the results of fragments. What holds of these and is passed on by them
(`Lowering.Composable`) holds of the fragment of every node (`Lowering.Composable.lowerNode`).
-/

namespace KeyedRecords

namespace Lowering

/-- A property of fragments, lowered with names from some number on, that holds of the smallest ones
and is kept when they are put together. -/
structure Composable (t : Target) (Q : Nat → Fragments → Prop) : Prop where
  /-- Keys of the model. -/
  keys : ∀ {n keys}, (∀ key ∈ keys, ¬t.layout.keys.InSection key .temporary) → Q n ⟨keys, [], []⟩
  /-- Fragments one behind the other. -/
  append : ∀ {n a b}, Q n a → Q (n + a.temporaries.length) b → Q n (a.append b)
  /-- Fragments whose results are not used. -/
  nothing : ∀ {n parts}, Q n parts → Q n parts.nothing.alone
  /-- Fragments whose results are combined. -/
  combine : ∀ {n parts command}, Q n parts →
    command ∈ [t.unionCommand, t.intersectCommand, t.differenceCommand] →
    Q n (t.create parts (t.temporary (n + parts.temporaries.length))
      (command (t.temporary (n + parts.temporaries.length)) parts.keys)).alone
  /-- Given ids that are restricted to those of the model. -/
  given : ∀ {n ids}, ids ≠ [] → Q n (t.idSelection n ids).alone
  /-- The owners of values. -/
  owners : ∀ {n field values}, Q n (t.uniqueSelection n field values).alone

namespace Composable

variable {t : Target} {Q : Nat → Fragments → Prop} (hQ : Composable t Q) {n : Nat}
  {parts : Fragments}
include hQ

theorem empty : Q n .empty := hQ.keys fun _ hkey => absurd hkey List.not_mem_nil

theorem unionOf (h : Q n parts) : Q n (t.unionOf n parts).alone := by
  unfold Target.unionOf
  split
  next => exact hQ.nothing h
  next key hkeys => rwa [Fragment.alone_atKey hkeys]
  next => exact hQ.combine h (by simp)

theorem intersectionOf (h : Q n parts) : Q n (t.intersectionOf n parts).alone := by
  unfold Target.intersectionOf
  split
  next key hkeys => rwa [Fragment.alone_atKey hkeys]
  next => exact hQ.combine h (by simp)

theorem differenceOf (h : Q n parts) : Q n (t.differenceOf n parts).alone := by
  unfold Target.differenceOf
  split
  next key hkeys => rwa [Fragment.alone_atKey hkeys]
  next => exact hQ.combine h (by simp)

/-- The fragment of a selection has the property. -/
theorem selection {field : String} {values : List Value} {found : Fragment}
    (h : selection t n field values = .ok found) : Q n found.alone := by
  obtain ⟨f, -, h⟩ := bind_ok_iff.mp h
  cases hraw : distinct (values.filterMap f.kind.encode) with
  | nil =>
    rw [hraw] at h
    cases h
    exact hQ.empty
  | cons raw rest =>
    rw [hraw] at h
    simp only at h
    split at h
    -- of the identity, the values are ids already
    next =>
      cases h
      exact hQ.given (by simp)
    next =>
      split at h
      next =>
        cases h
        exact hQ.owners
      next =>
        cases h
        refine hQ.unionOf (hQ.keys fun key hkey => ?_)
        obtain ⟨value, -, rfl⟩ := List.mem_map.mp hkey
        exact ModelKeys.InSection.not_of_ne (.index f.name value rfl) (by simp)

mutual

/-- The fragment of a node has the property. -/
theorem lowerNode {found : Fragment} : ∀ {n : Nat} {node : Tree},
    lowerNode t n node = .ok found → Q n found.alone
  | n, .empty _, h => by
    obtain ⟨-, -, h⟩ := bind_ok_iff.mp h
    cases h
    exact hQ.empty
  | _, .select _ _ _, h => by
    obtain ⟨-, -, h⟩ := bind_ok_iff.mp h
    exact hQ.selection h
  | _, .union _ operands, h => by
    obtain ⟨-, -, h⟩ := bind_ok_iff.mp h
    obtain ⟨parts, hparts, h⟩ := bind_ok_iff.mp h
    cases h
    exact hQ.unionOf (lowerEach hparts)
  | n, .intersect _ [], h => by
    obtain ⟨-, -, h⟩ := bind_ok_iff.mp h
    cases h
    refine hQ.keys fun key hkey => ?_
    obtain rfl := List.mem_singleton.mp hkey
    exact ModelKeys.InSection.not_of_ne (.ids rfl) (by simp)
  | _, .intersect _ (first :: rest), h => by
    obtain ⟨-, -, h⟩ := bind_ok_iff.mp h
    obtain ⟨⟨parts, complete⟩, hparts, h⟩ := bind_ok_iff.mp h
    cases h
    have hQparts := lowerWhile hparts
    cases complete with
    | true => exact hQ.intersectionOf hQparts
    -- the commands lowered so far stay, though nothing is made of them
    | false => exact hQ.nothing hQparts
  | n, .difference _ (head :: second :: rest), h => by
    obtain ⟨-, -, h⟩ := bind_ok_iff.mp h
    obtain ⟨first, hfirst, h⟩ := bind_ok_iff.mp h
    have hQfirst := lowerNode hfirst
    cases hsource : first.source with
    | none =>
      simp only [hsource] at h
      cases h
      exact hQfirst
    -- the others take their names behind those of the head
    | some key =>
      simp only [hsource] at h
      obtain ⟨others, hothers, h⟩ := bind_ok_iff.mp h
      cases h
      exact hQ.differenceOf (hQ.append hQfirst (lowerEach hothers))
  -- a difference of fewer than two trees is refused
  | _, .difference _ [], h => by
    obtain ⟨-, -, h⟩ := bind_ok_iff.mp h
    cases h
  | _, .difference _ [_], h => by
    obtain ⟨-, -, h⟩ := bind_ok_iff.mp h
    cases h

/-- The fragments of nodes have the property. -/
theorem lowerEach {parts : Fragments} : ∀ {n : Nat} {nodes : List Tree},
    lowerEach t n nodes = .ok parts → Q n parts
  | n, [], h => by
    cases h
    exact hQ.empty
  | _, node :: rest, h => by
    obtain ⟨first, hfirst, h⟩ := bind_ok_iff.mp h
    obtain ⟨others, hothers, h⟩ := bind_ok_iff.mp h
    cases h
    exact hQ.append (lowerNode hfirst) (lowerEach hothers)

/-- So have those of nodes up to the first that matches nothing. -/
theorem lowerWhile {parts : Fragments} {complete : Bool} : ∀ {n : Nat} {nodes : List Tree},
    lowerWhile t n nodes = .ok (parts, complete) → Q n parts
  | n, [], h => by
    cases h
    exact hQ.empty
  | _, node :: rest, h => by
    obtain ⟨first, hfirst, h⟩ := bind_ok_iff.mp h
    have hQfirst := lowerNode hfirst
    cases hsource : first.source with
    | none =>
      simp only [hsource] at h
      cases h
      exact hQ.append hQfirst hQ.empty
    | some key =>
      simp only [hsource] at h
      obtain ⟨⟨others, complete'⟩, hothers, h⟩ := bind_ok_iff.mp h
      cases h
      exact hQ.append hQfirst (lowerWhile hothers)

end

end Composable

end Lowering

end KeyedRecords
