import KeyedRecords.Proofs.Query.Blocks

/-!
# Plans of fragments

The plan of a tree is made of its fragment in one of three ways: the fragment is read in storage
order, or from the end that is asked for, or a command that sorts it comes behind its commands
(`Lowering.Planned`).
-/

namespace KeyedRecords

namespace Lowering

/-- How a plan is made of a fragment, when temporary names are taken from the `n`-th on. -/
inductive Planned (t : Target) (n : Nat) (found : Fragment) : Option SortOrder → Plan → Prop
  /-- Nothing has to be sorted. -/
  | stored {sort : Option SortOrder} (h : found.source = none ∨ sort = none) :
      Planned t n found sort (storagePlan t.layout found)
  /-- The order asked for is that of the collections, up to its direction. -/
  | elided {key : String} {order : SortOrder} (hsource : found.source = some key)
      (horder : t.layout.defaultOrdering.any (·.field == order.field) = true) :
      Planned t n found (some order)
        { storagePlan t.layout found with
          reader := .sorted key order.descending, sortElided := true }
  /-- The order asked for is another one. -/
  | sorted {key : String} {order : SortOrder} {f : Field} (hsource : found.source = some key)
      (horder : t.layout.defaultOrdering.any (·.field == order.field) = false)
      (hf : t.layout.field? order.field = some f) :
      Planned t n found (some order)
        { storagePlan t.layout found with
          commands := found.commands ++
            [sortCommand t.layout f order.descending key
              (t.temporary (n + found.temporaries.length)),
            .expire (t.temporary (n + found.temporaries.length)) t.lifetime]
          temporaries := found.temporaries ++ [t.temporary (n + found.temporaries.length)]
          reader := .list (t.temporary (n + found.temporaries.length)) }

section Temporaries

variable {t : Target} {n : Nat} {found : Fragment} {sort : Option SortOrder} {plan : Plan}

/-- The keys that a plan creates are numbered in turn. -/
theorem Planned.temporaries_eq (h : Planned t n found sort plan)
    (hfound : Blocks t n found.commands found.temporaries) :
    plan.temporaries = (List.range' n plan.temporaries.length).map t.temporary := by
  cases h with
  | stored => exact hfound.keys_eq
  | elided => exact hfound.keys_eq
  | sorted =>
    dsimp only
    rw [List.length_append, List.length_singleton, List.range'_1_concat, List.map_append,
      ← hfound.keys_eq]
    rfl

/-- They are keys of temporary results. -/
theorem Planned.temporaries (h : Planned t n found sort plan)
    (hfound : Blocks t n found.commands found.temporaries) :
    ∀ key ∈ plan.temporaries, t.layout.keys.InSection key .temporary := by
  intro key hkey
  rw [h.temporaries_eq hfound] at hkey
  obtain ⟨i, -, rfl⟩ := List.mem_map.mp hkey
  exact .temporary i rfl

end Temporaries

end Lowering

/-- A tree that is lowered has a fragment, and its plan is made of that. -/
theorem Tree.lower_ok {tree : Tree} {sort : Option SortOrder} {lifetime n : Nat} {plan : Plan}
    (h : tree.lower sort lifetime n = .ok plan) :
    ∃ found, Lowering.lowerNode ⟨tree.origin.layout, lifetime⟩ n tree = .ok found ∧
      Lowering.Planned ⟨tree.origin.layout, lifetime⟩ n found sort plan := by
  obtain ⟨found, hfound, h⟩ := bind_ok_iff.mp h
  refine ⟨found, hfound, ?_⟩
  cases hsource : found.source with
  | none =>
    simp only [hsource] at h
    cases h
    exact .stored (.inl hsource)
  | some key =>
    cases sort with
    | none =>
      simp only [hsource] at h
      cases h
      exact .stored (.inr rfl)
    | some order =>
      simp only [hsource] at h
      obtain ⟨-, -, h⟩ := bind_ok_iff.mp h
      split at h
      next horder =>
        cases h
        exact .elided hsource horder
      next horder =>
        split at h
        next => cases h
        next f hf =>
          cases h
          exact .sorted hsource (Bool.eq_false_iff.mpr horder) hf

end KeyedRecords
