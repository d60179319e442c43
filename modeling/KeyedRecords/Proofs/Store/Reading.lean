import KeyedRecords.Store.Algebra
import KeyedRecords.Store.Sorting
import Mathlib.Data.List.Forall2

/-!
# What reading depends on

Whatever is read from a key depends on what the key holds, and on nothing else: keys of two key
spaces that hold the same are read alike.
-/

namespace KeyedRecords

/-- Computations that agree item by item agree for two lists. -/
theorem mapM_eq_of_forall₂ {ε α α' β : Type} {f : α → Except ε β} {g : α' → Except ε β}
    {as : List α} {bs : List α'} (h : List.Forall₂ (fun a b => g b = f a) as bs) :
    bs.mapM g = as.mapM f := by
  induction h with
  | nil => rfl
  | cons hhead _ ih => rw [List.mapM_cons, List.mapM_cons, hhead, ih]

namespace Keyspace

variable {ks ks' : Keyspace} {key key' : String}

section Key

variable (h : ks'.data? key' = ks.data? key)
include h

theorem set?_congr : ks'.set? key' = ks.set? key := by
  unfold set?
  rw [h]

theorem sortedSet?_congr : ks'.sortedSet? key' = ks.sortedSet? key := by
  unfold sortedSet?
  rw [h]

theorem hash?_congr : ks'.hash? key' = ks.hash? key := by
  unfold hash?
  rw [h]

theorem list?_congr : ks'.list? key' = ks.list? key := by
  unfold list?
  rw [h]

theorem members_congr : ks'.members key' = ks.members key := by
  unfold members
  rw [h]

theorem scored_congr : ks'.scored key' = ks.scored key := by
  unfold scored
  rw [h]

theorem owners_congr (values : List String) : ks'.owners key' values = ks.owners key values := by
  unfold owners
  rw [hash?_congr h]

end Key

theorem sets_congr {keys keys' : List String}
    (h : List.Forall₂ (fun key key' => ks'.data? key' = ks.data? key) keys keys') :
    ks'.sets keys' = ks.sets keys :=
  mapM_eq_of_forall₂ (h.imp fun _ _ hkey => by rw [set?_congr hkey])

theorem weighted_congr {pairs pairs' : List (String × Double)}
    (h : List.Forall₂ (fun p p' => ks'.data? p'.1 = ks.data? p.1 ∧ p.2 = p'.2) pairs pairs') :
    ks'.weighted pairs' = ks.weighted pairs := by
  refine mapM_eq_of_forall₂ (h.imp ?_)
  rintro ⟨key, weight⟩ ⟨key', _⟩ ⟨hkey, rfl⟩
  simp only [scored_congr hkey]

/-- The key that a pattern leads to for one member. -/
def patternKey (pattern member : String) : String :=
  Text.replaceFirst '*' member (((Text.cut? "->" pattern).map Prod.fst).getD pattern)

theorem lookUp_congr {pattern member : String}
    (h : ks'.data? (patternKey pattern member) = ks.data? (patternKey pattern member)) :
    ks'.lookUp pattern member = ks.lookUp pattern member := by
  unfold patternKey at h
  unfold lookUp
  cases hcut : Text.cut? "->" pattern with
  | none =>
    simp only [hcut, Option.map_none, Option.getD_none] at h
    simp only [h]
  | some parts =>
    simp only [hcut, Option.map_some, Option.getD_some] at h
    simp only [h]

/-- Members are sorted alike if the pattern leads to keys that hold the same. -/
theorem sorted_congr (hkey : ks'.data? key' = ks.data? key) {pattern? : Option String}
    (hpattern : ∀ pattern ∈ pattern?, ∀ member,
      ks'.data? (patternKey pattern member) = ks.data? (patternKey pattern member))
    (descending alpha : Bool) :
    ks'.sorted key' pattern? descending alpha = ks.sorted key pattern? descending alpha := by
  have hweight : ks'.weight pattern? = ks.weight pattern? := by
    funext member
    unfold weight
    cases pattern? with
    | none => rfl
    | some pattern => exact lookUp_congr (hpattern pattern rfl member)
  simp only [sorted, sortMembers, members_congr hkey, hweight]

end Keyspace

end KeyedRecords
