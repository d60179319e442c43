import KeyedRecords.Proofs.Query.Lowering
import KeyedRecords.Proofs.Store.Scores

/-!
# Scores of results

On an ordered model every key that the commands of a tree fill holds ids with the scores that they
have in the collection of all ids (`Lowering.lowerNode_ranks`), as long as these scores are steady:
set algebra multiplies them by one, takes the greater of two equal ones, and adds zero where ids are
given.
-/

namespace KeyedRecords

open Keyspace

/-- The scores of a collection come through set algebra as they are. -/
structure Keyspace.Steady (ks : Keyspace) (key : String) : Prop where
  /-- The weight one changes nothing. -/
  one : ∀ id x, ks.score? key id = some x → x.mul .one = x
  /-- The greater of two equal scores is the same. -/
  max : ∀ id x, ks.score? key id = some x → x.max x = x
  /-- Nothing is added for a given id, which has the score one and the weight zero. -/
  sum : ∀ id x, ks.score? key id = some x → (x.mul .one).add (Double.one.mul .zero) = x

namespace Layout

variable {l : Layout} {base ks ks' : Keyspace} {key : String}

/-- The ids under a key have the scores that they have in the collection of all ids. -/
def Ranks (l : Layout) (base ks : Keyspace) (key : String) : Prop :=
  ∀ id x, ks.score? key id = some x → base.score? l.keys.ids id = some x

/-- On an ordered model, all collections can be read, with the same steady scores. -/
structure Scored (l : Layout) (base : Keyspace) : Prop extends Readable l base where
  ordered : l.isOrdered = true
  /-- The scores of all ids. -/
  steady : base.Steady l.keys.ids
  /-- The ids under a value of an index have the scores that they have there. -/
  index_ranks : ∀ f ∈ l.indexedFields, f.unique = false → ∀ v,
    l.Ranks base base (l.keys.index f.name v)

/-- The collections of an ordered model are sorted sets. -/
theorem Scored.memberKind_eq (h : l.Scored base) : l.memberKind = .sortedSet := by
  simp [memberKind, h.ordered]

theorem Ranks.of_data?_eq (h : l.Ranks base ks key) (hsame : ks'.data? key = ks.data? key) :
    l.Ranks base ks' key := by
  intro id x hx
  rw [score?, hsame] at hx
  exact h id x hx

end Layout

namespace Fragments

variable {l : Layout} {base : Keyspace} {parts : Fragments} {sets : List (String → Prop)}

/-- Fragments leave ids with their scores under all of their keys. -/
def Ranks (l : Layout) (base : Keyspace) (parts : Fragments) : Prop :=
  ∀ ks, l.Mirrors base ks → ks.Fresh parts.temporaries →
    ∀ key ∈ parts.keys, l.Ranks base (ks.executeAll parts.commands).2 key

theorem Ranks.empty : Fragments.empty.Ranks l base := fun _ _ _ _ hkey => nomatch hkey

/-- Keys of the model whose ids have their scores. -/
theorem Ranks.ofKeys {keys : List String} (h : ∀ key ∈ keys, l.Ranks base base key)
    (hsection : ∀ key ∈ keys, ¬l.keys.InSection key .temporary) :
    Fragments.Ranks l base ⟨keys, [], []⟩ :=
  fun _ hks _ key hkey => (h key hkey).of_data?_eq (hks key (hsection key hkey))

/-- Fragments one behind the other. -/
theorem Ranks.append {a b : Fragments} {more : List (String → Prop)} (ha : a.Ranks l base)
    (hb : b.Ranks l base) (hcomputes : a.Computes l base sets) (hmore : b.Computes l base more) :
    (a.append b).Ranks l base := by
  intro ks hks hfresh key hkey
  obtain ⟨ks₁, hrun₁, hsame₁, -, -⟩ := hcomputes.runs ks hks hfresh.left
  have hks₁ := hks.of_same hcomputes.temporaries hsame₁
  have hfresh₁ := hfresh.right hsame₁
  obtain ⟨ks₂, hrun₂, hsame₂, -, -⟩ := hmore.runs ks₁ hks₁ hfresh₁
  rw [Fragments.append, executeAll_append, hrun₁.leads]
  rcases List.mem_append.mp hkey with hkey | hkey
  -- what the first fragments have left is still there
  · have hleft := ha ks hks hfresh.left key hkey
    rw [hrun₁.leads] at hleft
    have hnot := hcomputes.not_mem_of_mem_keys hmore.temporaries hfresh.distinct hkey
    exact hleft.of_data?_eq (hrun₂.leads ▸ hsame₂ key hnot)
  · exact hb ks₁ hks₁ hfresh₁ key hkey

end Fragments

namespace Fragment

variable {l : Layout} {base : Keyspace} {found : Fragment} {parts : Fragments}
  {sets : List (String → Prop)} {key dest : String}

/-- A fragment with a key, in front of others. -/
theorem ranks_cons {P : String → Prop} (h : found.alone.Ranks l base)
    (hcomputes : found.Computes l base P) (hrest : parts.Ranks l base)
    (hmore : parts.Computes l base sets) : (Fragments.cons found parts).Ranks l base :=
  h.append hrest hcomputes.alone hmore

/-- The ids are under a key already. -/
theorem ranks_atKey (h : parts.Ranks l base) (hkeys : parts.keys = [key]) :
    (parts.atKey key).alone.Ranks l base := by
  have halone : (parts.atKey key).alone = parts := by
    simp [Fragment.alone, Fragments.atKey, ← hkeys]
  rwa [halone]

/-- Commands that have run for nothing leave nothing. -/
theorem ranks_nothing (parts : Fragments) : (parts.nothing).alone.Ranks l base :=
  fun _ _ _ _ hkey => nomatch hkey

/-- Commands that store ids with their scores, behind fragments that they read. -/
theorem ranks_create {cs : List Command} (h : parts.Ranks l base)
    (hcomputes : parts.Computes l base sets)
    (hranks : ∀ ks, l.Mirrors base ks → (∀ key ∈ parts.keys, ks.Fits key l.memberKind) →
      (∀ key ∈ parts.keys, l.Ranks base ks key) → ks.data? dest = none →
      l.Ranks base (ks.executeAll cs).2 dest) :
    Fragments.Ranks l base
      (alone ⟨some dest, parts.commands ++ cs, parts.temporaries ++ [dest]⟩) := by
  intro ks hks hfresh key hkey
  obtain rfl : key = dest := by simpa [alone] using hkey
  obtain ⟨ks₁, hrun₁, hsame₁, hfits₁, -⟩ := hcomputes.runs ks hks hfresh.left
  have hread := h ks hks hfresh.left
  have hfree := (hfresh.right hsame₁).absent key (List.mem_singleton_self key)
  show l.Ranks base (ks.executeAll (parts.commands ++ cs)).2 key
  rw [executeAll_append]
  rw [hrun₁.leads] at hread ⊢
  exact hranks ks₁ (hks.of_same hcomputes.temporaries hsame₁) hfits₁ hread hfree

end Fragment

namespace Lowering

variable {t : Target} {base ks : Keyspace} {keys : List String} {dest : String} {n : Nat}

namespace Target

/-- Scores that follow those of all ids are a part of these. -/
theorem within_of_ranks {key : String} (hbase : base.FitsScored t.layout.keys.ids)
    (hfits : ks.FitsScored key) (h : t.layout.Ranks base ks key) :
    (ks.scoredAt key).Within (base.scoredAt t.layout.keys.ids) := by
  intro m x hx
  rw [hfits.getElem?_scoredAt] at hx
  rw [hbase.getElem?_scoredAt]
  exact h m x hx

/-- What is stored of collections that are read with the weight one. -/
theorem exists_run_weighted (hbase : t.layout.Scored base)
    (hfits : ∀ key ∈ keys, ks.Fits key t.layout.memberKind) (dest : String)
    (f : List (Table Double) → Table Double) :
    ∃ n, ks.run (Step.storeSorted dest keys none f) = (.ok n, ks.replace dest
      (.sortedSet (f ((keys.map fun key => (key, Double.one)).map ks.weightedAt)))) := by
  have hkind := hbase.memberKind_eq
  have hpairs : ks.run (Step.pairWeights keys none) =
      (.ok (keys.map fun key => (key, Double.one)), ks) := rfl
  exact run_storeSorted hpairs (fitsScored_of_fits fun key hkey => hkind ▸ hfits key hkey) dest f

section Sorted

variable (hbase : t.layout.Scored base)
include hbase

/-- What is a part of the scores of all ids follows them. -/
theorem ranks_of_within {z : Table Double} (hz : z.Within (base.scoredAt t.layout.keys.ids))
    (hscore : ∀ m, ks.score? dest m = z[m]?) : t.layout.Ranks base ks dest := by
  intro m x hx
  rw [← (Layout.fitsScored_of_fits hbase.ids).getElem?_scoredAt]
  exact hz m x ((hscore m).symm.trans hx)

/-- The greater of two scores of an id is its score. -/
theorem idempotent_max : (base.scoredAt t.layout.keys.ids).Idempotent .max := by
  intro m x hx
  rw [(Layout.fitsScored_of_fits hbase.ids).getElem?_scoredAt] at hx
  exact hbase.steady.max m x hx

variable (hfits : ∀ key ∈ keys, ks.Fits key t.layout.memberKind)
  (hranks : ∀ key ∈ keys, t.layout.Ranks base ks key)
include hfits hranks

/-- Collections that are read with the weight one follow the scores of all ids. -/
theorem within_weighted :
    ∀ z ∈ (keys.map fun key => (key, Double.one)).map ks.weightedAt,
      z.Within (base.scoredAt t.layout.keys.ids) := by
  rw [List.map_map, List.forall_mem_map]
  intro key hkey m x hx
  have hscored := Layout.fitsScored_of_fits (hfits key hkey)
  rw [Function.comp_apply, hscored.getElem?_weightedAt, Option.map_eq_some_iff] at hx
  obtain ⟨y, hy, rfl⟩ := hx
  have hscore := hranks key hkey m y hy
  rw [(Layout.fitsScored_of_fits hbase.ids).getElem?_scoredAt, hbase.steady.one m y hscore]
  exact hscore

/-- A union. -/
theorem ranks_union : t.layout.Ranks base
    (ks.executeAll [t.unionCommand dest keys, .expire dest t.lifetime]).2 dest := by
  obtain ⟨n, hrun⟩ := exists_run_weighted hbase hfits dest
    (Table.unionAll .max)
  refine ranks_of_within hbase (Table.within_unionAll (idempotent_max hbase)
    (within_weighted hbase hfits hranks)) (score?_store ?_ hrun _)
  rw [unionCommand, if_pos hbase.ordered]
  rfl

/-- An intersection. -/
theorem ranks_intersection : t.layout.Ranks base
    (ks.executeAll [t.intersectCommand dest keys, .expire dest t.lifetime]).2 dest := by
  obtain ⟨n, hrun⟩ := exists_run_weighted hbase hfits dest
    (Table.interAll .max)
  refine ranks_of_within hbase (Table.within_interAll (idempotent_max hbase)
    (within_weighted hbase hfits hranks)) (score?_store ?_ hrun _)
  rw [intersectCommand, if_pos hbase.ordered]
  rfl

/-- A difference. -/
theorem ranks_difference : t.layout.Ranks base
    (ks.executeAll [t.differenceCommand dest keys, .expire dest t.lifetime]).2 dest := by
  have hscored : ∀ key ∈ keys, ks.FitsScored key := fun key hkey =>
    Layout.fitsScored_of_fits (hfits key hkey)
  obtain ⟨n, hrun⟩ := run_storeSortedDiff hscored dest
  refine ranks_of_within hbase ?_ (score?_store ?_ hrun _)
  · cases keys with
    | nil => exact Table.within_empty _
    | cons key rest =>
      refine Table.within_diffAll ?_ _
      exact within_of_ranks (Layout.fitsScored_of_fits hbase.ids)
        (hscored key List.mem_cons_self) (hranks key List.mem_cons_self)
  · rw [differenceCommand, if_pos hbase.ordered]
    rfl

end Sorted

section Selections

variable (hbase : t.layout.Scored base)
include hbase

/-- Given ids, restricted to those that the model has. -/
theorem ranks_ids (hks : t.layout.Mirrors base ks) (habsent : ks.data? (t.temporary n) = none)
    {raw : List String} (hraw : raw ≠ []) :
    t.layout.Ranks base (ks.executeAll ([.sadd (t.temporary n) raw] ++
      [t.restrictCommand (t.temporary n), .expire (t.temporary n) t.lifetime])).2
        (t.temporary n) := by
  have hids : t.layout.keys.InSection t.layout.keys.ids .ids := .ids rfl
  have hdest : t.layout.keys.InSection (t.temporary n) .temporary := .temporary n rfl
  have hkind := hbase.memberKind_eq
  obtain ⟨k, ks₁, hrun, hchanged, hscore⟩ := run_addMembers (Fits.of_none habsent) raw hraw
  have hsadd : (ks.executeAll [.sadd (t.temporary n) raw]).2 = ks₁ :=
    (Succeeds.of_count rfl hrun).leads
  have hsame : ks₁.data? t.layout.keys.ids = base.data? t.layout.keys.ids :=
    (hchanged.data? (hids.ne hdest (by decide))).trans (hks _ (hids.not_of_ne (by decide)))
  have hall : ks₁.FitsScored t.layout.keys.ids :=
    .inr (hkind ▸ hbase.ids.of_data?_eq hsame)
  have hgiven : ks₁.FitsScored (t.temporary n) := .inl hchanged.fits
  -- the ids come with the weight one, and the given ids with the weight zero
  have hpairs : ks₁.run (Step.pairWeights [t.layout.keys.ids, t.temporary n]
      (some [.one, .zero])) =
        (.ok [(t.layout.keys.ids, Double.one), (t.temporary n, Double.zero)], ks₁) := rfl
  obtain ⟨k', hrun'⟩ := run_storeSorted hpairs (by simp [hall, hgiven]) (t.temporary n)
    (Table.interAll .sum)
  rw [executeAll_append, hsadd]
  refine ranks_of_within hbase (fun m y hy => ?_) (score?_store ?_ hrun' _)
  · rw [List.map_cons, Table.interAll, Std.ExtTreeMap.getElem?_filterMap,
      Option.pbind_eq_some_iff] at hy
    obtain ⟨x, hx, hcombined⟩ := hy
    rw [Std.ExtTreeMap.getKey_eq] at hcombined
    obtain ⟨other, hother, hcombined⟩ := Option.bind_eq_some_iff.mp hcombined
    obtain rfl := Option.some.inj hcombined
    rw [hall.getElem?_weightedAt, Option.map_eq_some_iff] at hx
    rw [hgiven.getElem?_weightedAt, Option.map_eq_some_iff] at hother
    obtain ⟨score, hm, rfl⟩ := hx
    obtain ⟨given_, hm', rfl⟩ := hother
    have hone : given_ = .one := by
      have hnone : ks.score? (t.temporary n) m = none := by rw [score?, habsent]; rfl
      rw [hscore, hnone] at hm'
      split at hm' <;> cases hm'
      rfl
    have hm : base.score? t.layout.keys.ids m = some score := by rwa [score?, hsame] at hm
    rw [(Layout.fitsScored_of_fits hbase.ids).getElem?_scoredAt, hm, hone]
    exact congrArg some (hbase.steady.sum m score hm).symm
  · rw [restrictCommand, if_pos hbase.ordered]
    rfl

/-- The owners of values among the ids of the model. -/
theorem ranks_owners (hks : t.layout.Mirrors base ks) {f : Field} (hf : f ∈ t.layout.fields)
    (hunique : f.unique = true) (raw : List String) :
    t.layout.Ranks base (ks.executeAll [.eval (.resolveUnique (t.layout.keys.unique f.name) raw dest
      (if t.layout.isOrdered then some t.layout.keys.ids else none)), .expire dest t.lifetime]).2
        dest := by
  have hids : t.layout.keys.InSection t.layout.keys.ids .ids := .ids rfl
  have howners : t.layout.keys.InSection (t.layout.keys.unique f.name) .unique := .unique _ rfl
  have hkind := hbase.memberKind_eq
  have hsame := hks _ (hids.not_of_ne (by decide))
  have hhash := (hbase.unique f hf hunique).of_data?_eq (hks _ (howners.not_of_ne (by decide)))
  obtain ⟨k, hrun⟩ :=
    run_resolveUnique_sorted hhash (hkind ▸ hbase.ids.of_data?_eq hsame) raw dest
  rw [if_pos hbase.ordered]
  refine ranks_of_within hbase ((Table.within_empty _).insertAll fun e he => ?_)
    (score?_store rfl hrun _)
  obtain ⟨id, -, he⟩ := List.mem_filterMap.mp he
  obtain ⟨x, hx, rfl⟩ := Option.map_eq_some_iff.mp he
  rw [(Layout.fitsScored_of_fits hbase.ids).getElem?_scoredAt]
  rwa [score?, hsame] at hx

end Selections

section Operations

variable (hbase : t.layout.Scored base) {parts : Fragments} {sets : List (String → Prop)}
  (hcomputes : parts.Computes t.layout base sets) (hranks : parts.Ranks t.layout base)
include hbase hcomputes hranks

theorem unionOf_ranks : (t.unionOf n parts).alone.Ranks t.layout base := by
  unfold unionOf
  split
  next => exact Fragment.ranks_nothing parts
  next key hkeys => exact Fragment.ranks_atKey hranks hkeys
  next => exact Fragment.ranks_create hranks hcomputes fun ks _ hfits hread _ =>
    ranks_union hbase hfits hread

theorem intersectionOf_ranks : (t.intersectionOf n parts).alone.Ranks t.layout base := by
  unfold intersectionOf
  split
  next key hkeys => exact Fragment.ranks_atKey hranks hkeys
  next => exact Fragment.ranks_create hranks hcomputes fun ks _ hfits hread _ =>
    ranks_intersection hbase hfits hread

theorem differenceOf_ranks : (t.differenceOf n parts).alone.Ranks t.layout base := by
  unfold differenceOf
  split
  next key hkeys => exact Fragment.ranks_atKey hranks hkeys
  next => exact Fragment.ranks_create hranks hcomputes fun ks _ hfits hread _ =>
    ranks_difference hbase hfits hread

end Operations

section Selections

variable (hbase : t.layout.Scored base) {raw : List String}
include hbase

/-- The selection of given ids. -/
theorem idSelection_ranks (hraw : raw ≠ []) :
    (t.idSelection n raw).alone.Ranks t.layout base := by
  show Fragments.Ranks t.layout base (Fragment.alone ⟨some (t.temporary n),
    Fragments.empty.commands ++ ([.sadd (t.temporary n) raw] ++
      [t.restrictCommand (t.temporary n), .expire (t.temporary n) t.lifetime]),
    Fragments.empty.temporaries ++ [t.temporary n]⟩)
  exact Fragment.ranks_create .empty .empty fun ks hks _ _ habsent =>
    ranks_ids hbase hks habsent hraw

/-- The selection of the owners of values. -/
theorem uniqueSelection_ranks {f : Field} (hf : f ∈ t.layout.fields) (hunique : f.unique = true) :
    (t.uniqueSelection n f.name raw).alone.Ranks t.layout base := by
  refine Fragment.ranks_create .empty .empty fun ks hks _ _ _ => ?_
  exact ranks_owners hbase hks hf hunique raw

/-- The selection of the ids with one of some values. -/
theorem indexSelection_ranks {f : Field} (hf : f ∈ t.layout.indexedFields)
    (hunique : f.unique = false) :
    (t.indexSelection n f.name raw).alone.Ranks t.layout base := by
  have hsection : ∀ key ∈ raw.map (t.layout.keys.index f.name),
      ¬t.layout.keys.InSection key .temporary := by
    rw [List.forall_mem_map]
    intro v _
    exact (ModelKeys.InSection.index f.name v rfl).not_of_ne (by decide)
  refine unionOf_ranks hbase (.ofKeys ?_ hsection) (.ofKeys ?_ hsection)
  · rw [List.forall_mem_map]
    exact fun v _ => hbase.index f hf v
  · rw [List.forall_mem_map]
    exact fun v _ => hbase.index_ranks f hf hunique v

end Selections

end Target

/-- A selection leaves ids with their scores. -/
theorem selection_ranks (hbase : t.layout.Scored base) {field : String} {values : List Value}
    {found : Fragment} (h : selection t n field values = .ok found) :
    found.alone.Ranks t.layout base := by
  obtain ⟨f, hf, h⟩ := bind_ok_iff.mp h
  cases hraw : distinct (values.filterMap f.kind.encode) with
  | nil =>
    rw [hraw] at h
    cases h
    exact Fragment.ranks_nothing .empty
  | cons first rest =>
    rw [hraw] at h
    cases hkey : f.primaryKey with
    | true =>
      simp only [hkey, if_true] at h
      cases h
      exact Target.idSelection_ranks hbase (List.cons_ne_nil first rest)
    | false =>
    cases hunique : f.unique with
    | true =>
      simp only [hkey, hunique, Bool.false_eq_true, if_false, if_true] at h
      cases h
      exact Target.uniqueSelection_ranks hbase (Layout.of_queryableField_ok hf).1 hunique
    | false =>
      simp only [hkey, hunique, Bool.false_eq_true, if_false] at h
      cases h
      have hindexed := Layout.mem_indexedFields_of_queryableField hf hkey hunique
      exact Target.indexSelection_ranks hbase hindexed hunique

mutual

/-- The commands of a node leave ids with their scores. -/
theorem lowerNode_ranks (hbase : t.layout.Scored base) {found : Fragment} :
    ∀ {n : Nat} {node : Tree}, lowerNode t n node = .ok found → found.alone.Ranks t.layout base
  | _, .empty _, h => by
    obtain ⟨-, -, h⟩ := bind_ok_iff.mp h
    cases h
    exact Fragment.ranks_nothing .empty
  | _, .select _ _ _, h => by
    obtain ⟨-, -, h⟩ := bind_ok_iff.mp h
    exact selection_ranks hbase h
  | _, .union _ _, h => by
    obtain ⟨-, -, h⟩ := bind_ok_iff.mp h
    obtain ⟨parts, hparts, h⟩ := bind_ok_iff.mp h
    cases h
    obtain ⟨sets, hcomputes, -⟩ := lowerEach_computes hbase.toReadable hparts
    exact Target.unionOf_ranks hbase hcomputes (lowerEach_ranks hbase hparts)
  | _, .intersect _ [], h => by
    obtain ⟨-, -, h⟩ := bind_ok_iff.mp h
    cases h
    -- the collection of all ids has its own scores
    intro ks hks _ key hkey
    obtain rfl := List.mem_singleton.mp hkey
    have hids : t.layout.keys.InSection t.layout.keys.ids .ids := .ids rfl
    have hown : t.layout.Ranks base base t.layout.keys.ids := fun _ _ hx => hx
    exact hown.of_data?_eq (hks _ (hids.not_of_ne (by decide)))
  | _, .intersect _ (first :: rest), h => by
    obtain ⟨-, -, h⟩ := bind_ok_iff.mp h
    obtain ⟨⟨parts, complete⟩, hparts, h⟩ := bind_ok_iff.mp h
    cases h
    obtain ⟨sets, hcomputes, -⟩ := lowerWhile_computes hbase.toReadable hparts
    cases complete with
    | true =>
      exact Target.intersectionOf_ranks hbase hcomputes (lowerWhile_ranks hbase hparts)
    | false => exact Fragment.ranks_nothing parts
  | n, .difference _ (head :: second :: rest), h => by
    obtain ⟨-, -, h⟩ := bind_ok_iff.mp h
    obtain ⟨first, hfirst, h⟩ := bind_ok_iff.mp h
    have hhead := lowerNode_ranks hbase hfirst
    cases hsource : first.source with
    | none =>
      simp only [hsource] at h
      cases h
      exact hhead
    | some key =>
      simp only [hsource] at h
      obtain ⟨others, hothers, h⟩ := bind_ok_iff.mp h
      cases h
      obtain ⟨sets, hrest, -⟩ := lowerEach_computes hbase.toReadable hothers
      have hnode := lowerNode_computes hbase.toReadable hfirst
      exact Target.differenceOf_ranks hbase (hnode.cons_of_some hsource hrest)
        (Fragment.ranks_cons hhead hnode (lowerEach_ranks hbase hothers) hrest)
  | _, .difference _ [], h => by
    obtain ⟨-, -, h⟩ := bind_ok_iff.mp h
    cases h
  | _, .difference _ [_], h => by
    obtain ⟨-, -, h⟩ := bind_ok_iff.mp h
    cases h

/-- So do those of nodes. -/
theorem lowerEach_ranks (hbase : t.layout.Scored base) {parts : Fragments} :
    ∀ {n : Nat} {nodes : List Tree}, lowerEach t n nodes = .ok parts → parts.Ranks t.layout base
  | _, [], h => by
    cases h
    exact .empty
  | _, node :: rest, h => by
    obtain ⟨first, hfirst, h⟩ := bind_ok_iff.mp h
    obtain ⟨others, hothers, h⟩ := bind_ok_iff.mp h
    cases h
    obtain ⟨sets, hrest, -⟩ := lowerEach_computes hbase.toReadable hothers
    exact Fragment.ranks_cons (lowerNode_ranks hbase hfirst)
      (lowerNode_computes hbase.toReadable hfirst) (lowerEach_ranks hbase hothers) hrest

/-- And those of nodes up to the first that matches nothing. -/
theorem lowerWhile_ranks (hbase : t.layout.Scored base) {parts : Fragments} {complete : Bool} :
    ∀ {n : Nat} {nodes : List Tree}, lowerWhile t n nodes = .ok (parts, complete) →
      parts.Ranks t.layout base
  | _, [], h => by
    cases h
    exact .empty
  | _, node :: rest, h => by
    obtain ⟨first, hfirst, h⟩ := bind_ok_iff.mp h
    have hnode := lowerNode_computes hbase.toReadable hfirst
    cases hsource : first.source with
    | none =>
      simp only [hsource] at h
      cases h
      exact Fragment.ranks_cons (lowerNode_ranks hbase hfirst) hnode .empty .empty
    | some key =>
      simp only [hsource] at h
      obtain ⟨⟨others, complete'⟩, hothers, h⟩ := bind_ok_iff.mp h
      cases h
      obtain ⟨sets, hrest, -⟩ := lowerWhile_computes hbase.toReadable hothers
      exact Fragment.ranks_cons (lowerNode_ranks hbase hfirst) hnode
        (lowerWhile_ranks hbase hothers) hrest

end

end Lowering

end KeyedRecords
