import KeyedRecords.Proofs.Query.Fragments
import KeyedRecords.Sample.Models
import Mathlib.Logic.Basic

/-!
# Correctness of lowering

Every tree that is lowered leaves the ids that it denotes under the source of its plan, for both
kinds of collections. The proof is an induction over trees; what it says of a node is
`Fragment.Computes`, with the denotation of the node in a key space from before any command.
-/

namespace KeyedRecords

namespace Lowering

section Maps

variable {α β : Type} {as : List α} {bs : List β} {p : α → Prop} {q : β → Prop}

/-- A property that holds at the same places holds somewhere in both lists. -/
theorem exists_iff_of_map_eq (h : as.map p = bs.map q) : (∃ a ∈ as, p a) ↔ ∃ b ∈ bs, q b := by
  -- the lists of truth values are the same list
  have hexists : (∃ x ∈ as.map p, x) ↔ ∃ x ∈ bs.map q, x := by rw [h]
  simpa only [List.mem_map, exists_exists_and_eq_and] using hexists

/-- A property that holds at the same places holds everywhere in both lists. -/
theorem forall_iff_of_map_eq (h : as.map p = bs.map q) : (∀ a ∈ as, p a) ↔ ∀ b ∈ bs, q b := by
  have hall : (∀ x ∈ as.map p, x) ↔ ∀ x ∈ bs.map q, x := by rw [h]
  rwa [List.forall_mem_map, List.forall_mem_map] at hall

end Maps

namespace Target

open Keyspace

variable {t : Target} {ks : Keyspace} {keys : List String} {dest : String}

/-- The sets of keys can be read with scores, all of them with the weight one. -/
theorem fitsScored_of_fits (h : ∀ key ∈ keys, ks.Fits key .sortedSet) :
    ∀ p ∈ keys.map fun key => (key, Double.one), ks.FitsScored p.1 := by
  rw [List.forall_mem_map]
  exact fun key hkey => .inr (h key hkey)

theorem stores_union (h : ∀ key ∈ keys, ks.Fits key t.layout.memberKind) :
    ks.Stores [t.unionCommand dest keys] dest t.layout.memberKind
      fun id => ∃ key ∈ keys, ks.Has key id := by
  unfold unionCommand
  unfold Layout.memberKind at h ⊢
  cases hordered : t.layout.isOrdered with
  | false =>
    simp only [hordered, Bool.false_eq_true, if_false] at h ⊢
    refine (Stores.of_sets rfl h).congr fun id => ?_
    simp only [Members.mem_unionAll, List.mem_map, exists_exists_and_eq_and]
    exact exists_congr fun key => and_congr_right fun hkey => (h key hkey).mem_setAt id
  | true =>
    simp only [hordered, if_true] at h ⊢
    refine (Stores.of_sorted rfl rfl (fitsScored_of_fits h)).congr fun id => ?_
    simp only [Table.mem_unionAll, List.mem_map, exists_exists_and_eq_and]
    exact exists_congr fun key => and_congr_right fun hkey =>
      FitsScored.mem_weightedAt (.inr (h key hkey)) id

theorem stores_intersection (h : ∀ key ∈ keys, ks.Fits key t.layout.memberKind) (hne : keys ≠ []) :
    ks.Stores [t.intersectCommand dest keys] dest t.layout.memberKind
      fun id => ∀ key ∈ keys, ks.Has key id := by
  unfold intersectCommand
  unfold Layout.memberKind at h ⊢
  cases hordered : t.layout.isOrdered with
  | false =>
    simp only [hordered, Bool.false_eq_true, if_false] at h ⊢
    refine (Stores.of_sets rfl h).congr fun id => ?_
    rw [Members.mem_interAll (by simpa using hne), List.forall_mem_map]
    exact forall₂_congr fun key hkey => (h key hkey).mem_setAt id
  | true =>
    simp only [hordered, if_true] at h ⊢
    refine (Stores.of_sorted rfl rfl (fitsScored_of_fits h)).congr fun id => ?_
    rw [Table.mem_interAll _ (by simpa using hne), List.forall_mem_map, List.forall_mem_map]
    exact forall₂_congr fun key hkey => FitsScored.mem_weightedAt (.inr (h key hkey)) id

theorem stores_difference {key : String} (h : ∀ k ∈ key :: keys, ks.Fits k t.layout.memberKind) :
    ks.Stores [t.differenceCommand dest (key :: keys)] dest t.layout.memberKind
      fun id => ks.Has key id ∧ ∀ k ∈ keys, ¬ks.Has k id := by
  unfold differenceCommand
  unfold Layout.memberKind at h ⊢
  cases hordered : t.layout.isOrdered with
  | false =>
    simp only [hordered, Bool.false_eq_true, if_false] at h ⊢
    obtain ⟨hkey, hkeys⟩ := List.forall_mem_cons.mp h
    refine (Stores.of_sets rfl h).congr fun id => ?_
    rw [List.map_cons, Members.mem_diffAll, hkey.mem_setAt, List.forall_mem_map]
    exact and_congr_right fun _ => forall₂_congr fun k hk => not_congr ((hkeys k hk).mem_setAt id)
  | true =>
    simp only [hordered, if_true] at h ⊢
    obtain ⟨hkey, hkeys⟩ := List.forall_mem_cons.mp h
    refine (Stores.of_sortedDiff fun k hk => .inr (h k hk)).congr fun id => ?_
    rw [List.map_cons, Table.mem_diffAll, FitsScored.mem_scoredAt (.inr hkey), List.forall_mem_map]
    exact and_congr_right fun _ => forall₂_congr fun k hk =>
      not_congr (FitsScored.mem_scoredAt (.inr (hkeys k hk)) id)

/-- The command that keeps those of some given ids that the model has. -/
def restrictCommand (t : Target) (dest : String) : Command :=
  if t.layout.isOrdered then
    .zinterstore dest [t.layout.keys.ids, dest] (some [.one, .zero]) .sum
  else .sinterstore dest [dest, t.layout.keys.ids]

/-- The given ids are stored, and then those of them that the model has. -/
theorem stores_ids {raw : List String} (hids : ks.Fits t.layout.keys.ids t.layout.memberKind)
    (habsent : ks.data? dest = none) (hdest : t.layout.keys.ids ≠ dest) (hraw : raw ≠ []) :
    ks.Stores ([.sadd dest raw] ++ [t.restrictCommand dest]) dest t.layout.memberKind
      fun id => id ∈ raw ∧ ks.Has t.layout.keys.ids id := by
  obtain ⟨n, ks₁, hrun, hchanged, hscore⟩ := run_addMembers (Fits.of_none habsent) raw hraw
  -- the key was free, so it holds just the given ids
  have hgiven : ∀ id, ks₁.Has dest id ↔ id ∈ raw := by
    intro id
    have hnone : ks.score? dest id = none := by rw [score?, habsent]; rfl
    rw [Has, hscore, hnone]
    by_cases hid : id ∈ raw <;> simp [hid]
  have hall : ∀ id, ks₁.Has t.layout.keys.ids id ↔ ks.Has t.layout.keys.ids id :=
    has_of_data?_eq (hchanged.data? hdest)
  have hids₁ := hids.of_data?_eq (hchanged.data? hdest)
  refine Stores.append (.of_count rfl hrun) hchanged ?_
  unfold restrictCommand
  unfold Layout.memberKind at hids₁ ⊢
  cases hordered : t.layout.isOrdered with
  | false =>
    simp only [hordered, Bool.false_eq_true, if_false] at hids₁ ⊢
    have hfits : ∀ key ∈ [dest, t.layout.keys.ids], ks₁.Fits key .set := by
      simp [hchanged.fits, hids₁]
    refine (Stores.of_sets rfl hfits).congr fun id => ?_
    rw [Members.mem_interAll (by simp)]
    simp [hchanged.fits.mem_setAt, hids₁.mem_setAt, hgiven, hall]
  | true =>
    simp only [hordered, if_true] at hids₁ ⊢
    have hfits : ∀ p ∈ [(t.layout.keys.ids, Double.one), (dest, Double.zero)],
        ks₁.FitsScored p.1 := by
      simp [FitsScored, hchanged.fits, hids₁]
    refine (Stores.of_sorted rfl rfl hfits).congr fun id => ?_
    rw [Table.mem_interAll _ (by simp)]
    -- the given ids have the weight zero, so that scores are those of the model
    have hweighted : ∀ p ∈ [(t.layout.keys.ids, Double.one), (dest, Double.zero)],
        (id ∈ ks₁.weightedAt p ↔ ks₁.Has p.1 id) := fun p hp => (hfits p hp).mem_weightedAt id
    simp only [List.forall_mem_cons, List.map_cons, List.map_nil] at hweighted ⊢
    rw [hweighted.1, hweighted.2.1, hall, hgiven]
    simp [and_comm]

/-- The owners of values are stored; on an ordered model, those of them that the model has. -/
theorem stores_owners {hash : String} {raw : List String} (hhash : ks.Fits hash .hash)
    (hids : ks.Fits t.layout.keys.ids t.layout.memberKind) :
    ks.Stores
      [.eval (.resolveUnique hash raw dest
        (if t.layout.isOrdered then some t.layout.keys.ids else none))]
      dest t.layout.memberKind
      fun id => ∃ v ∈ raw, ks.field? hash v = some id ∧
        (t.layout.isOrdered = true → ks.Has t.layout.keys.ids id) := by
  unfold Layout.memberKind at hids ⊢
  cases hordered : t.layout.isOrdered with
  | false =>
    simp only [Bool.false_eq_true, if_false, false_implies, and_true]
    obtain ⟨n, hrun⟩ := run_resolveUnique_set hhash raw dest
    refine (Stores.of_replace rfl hrun rfl).congr fun id => ?_
    simp [Data.score?, Members.mem_insertAll]
  | true =>
    simp only [hordered, if_true, true_implies] at hids ⊢
    obtain ⟨n, hrun⟩ := run_resolveUnique_sorted hhash hids raw dest
    refine (Stores.of_replace rfl hrun rfl).congr fun id => ?_
    rw [Data.score?, ← Std.ExtTreeMap.mem_iff_isSome_getElem?, Table.mem_insertAll]
    simp only [List.mem_map, List.mem_filterMap, Option.map_eq_some_iff,
      Std.ExtTreeMap.not_mem_empty, or_false]
    constructor
    · rintro ⟨_, ⟨_, ⟨v, hv, howner⟩, s, hs, rfl⟩, rfl⟩
      exact ⟨v, hv, howner, by rw [Has, hs]; rfl⟩
    · rintro ⟨v, hv, howner, hhas⟩
      obtain ⟨s, hs⟩ := Option.isSome_iff_exists.mp hhas
      exact ⟨(id, s), ⟨id, ⟨v, hv, howner⟩, s, hs, rfl⟩, rfl⟩

section Operations

variable {base : Keyspace} {parts : Fragments} {sets : List (String → Prop)} {P : String → Prop}
  {n : Nat}

/-- The union of fragments computes the union of their sets. -/
theorem unionOf_computes (h : parts.Computes t.layout base sets) :
    (t.unionOf n parts).Computes t.layout base fun id => ∃ P ∈ sets, P id := by
  have hlength := h.length
  unfold unionOf
  split
  -- no keys, no sets, and no ids
  next hkeys =>
    obtain rfl : sets = [] := List.eq_nil_of_length_eq_zero (by rw [← hlength, hkeys]; rfl)
    exact .ofNothing h (by simp)
  next key hkeys =>
    obtain ⟨P, rfl⟩ := List.length_eq_one_iff.mp (hlength ▸ congrArg List.length hkeys)
    exact (Fragment.Computes.atKey h hkeys).congr (by simp)
  -- from two keys on, a command is needed
  next keys _ _ =>
    refine Fragment.Computes.create h (.temporary _ rfl) fun ks hks hfits hmean _ => ?_
    refine ((stores_union hfits).expire t.lifetime).congr fun id => ?_
    exact exists_iff_of_map_eq (hmean id)

/-- The intersection of fragments computes the intersection of their sets. -/
theorem intersectionOf_computes (h : parts.Computes t.layout base sets) (hne : sets ≠ []) :
    (t.intersectionOf n parts).Computes t.layout base fun id => ∀ P ∈ sets, P id := by
  have hlength := h.length
  unfold intersectionOf
  split
  next key hkeys =>
    obtain ⟨P, rfl⟩ := List.length_eq_one_iff.mp (hlength ▸ congrArg List.length hkeys)
    exact (Fragment.Computes.atKey h hkeys).congr (by simp)
  next keys _ =>
    have hkeys : parts.keys ≠ [] := by
      rw [← List.length_pos_iff, hlength]
      exact List.length_pos_iff.mpr hne
    refine Fragment.Computes.create h (.temporary _ rfl) fun ks hks hfits hmean _ => ?_
    refine ((stores_intersection hfits hkeys).expire t.lifetime).congr fun id => ?_
    exact forall_iff_of_map_eq (hmean id)

/-- The difference of fragments computes the first of their sets without the others. -/
theorem differenceOf_computes (h : parts.Computes t.layout base (P :: sets)) :
    (t.differenceOf n parts).Computes t.layout base fun id => P id ∧ ∀ Q ∈ sets, ¬Q id := by
  have hlength := h.length
  unfold differenceOf
  split
  next key hkeys =>
    obtain rfl : sets = [] := List.eq_nil_of_length_eq_zero (by simpa [hkeys] using hlength.symm)
    exact (Fragment.Computes.atKey h hkeys).congr (by simp)
  next keys _ =>
    refine Fragment.Computes.create h (.temporary _ rfl) fun ks hks hfits hmean _ => ?_
    cases hkeys : parts.keys with
    | nil => simp [hkeys] at hlength
    | cons key rest =>
      rw [hkeys] at hfits hmean
      refine ((stores_difference hfits).expire t.lifetime).congr fun id => ?_
      obtain ⟨hhead, htail⟩ := List.cons.inj (hmean id)
      have hnone : (∃ k ∈ rest, ks.Has k id) ↔ ∃ Q ∈ sets, Q id := exists_iff_of_map_eq htail
      have hfirst : ks.Has key id ↔ P id := iff_of_eq hhead
      rw [hfirst]
      simpa using and_congr_right fun _ : P id => not_congr hnone

end Operations

section Selections

variable {base : Keyspace} {n : Nat} {raw : List String}

/-- The selection of given ids. -/
theorem idSelection_computes (hbase : t.layout.Readable base) (hraw : raw ≠ []) :
    (t.idSelection n raw).Computes t.layout base
      fun id => id ∈ raw ∧ base.Has t.layout.keys.ids id := by
  have hdest : t.layout.keys.InSection (t.temporary n) .temporary := .temporary n rfl
  have hids : t.layout.keys.InSection t.layout.keys.ids .ids := .ids rfl
  -- the given ids are put under the key that their restriction is stored under
  show Fragment.Computes t.layout base
    ⟨some (t.temporary n), Fragments.empty.commands ++ ([.sadd (t.temporary n) raw] ++
      [t.restrictCommand (t.temporary n)] ++ [.expire (t.temporary n) t.lifetime]),
      Fragments.empty.temporaries ++ [t.temporary n]⟩ _
  refine Fragment.Computes.create .empty hdest fun ks hks _ _ habsent => ?_
  have hsame := hks _ (hids.not_of_ne (by decide))
  have hstores :=
    stores_ids (hbase.ids.of_data?_eq hsame) habsent (hids.ne hdest (by decide)) hraw
  refine (hstores.expire t.lifetime).congr fun id => ?_
  rw [has_of_data?_eq hsame]

/-- The selection of the owners of values. -/
theorem uniqueSelection_computes (hbase : t.layout.Readable base) {f : Field}
    (hf : f ∈ t.layout.fields) (hunique : f.unique = true) :
    (t.uniqueSelection n f.name raw).Computes t.layout base
      fun id => ∃ v ∈ raw, base.field? (t.layout.keys.unique f.name) v = some id ∧
        (t.layout.isOrdered = true → base.Has t.layout.keys.ids id) := by
  -- neither key is temporary, so the fragment reads there what the key space before holds
  have hids : t.layout.keys.InSection t.layout.keys.ids .ids := .ids rfl
  have howners : t.layout.keys.InSection (t.layout.keys.unique f.name) .unique := .unique _ rfl
  refine Fragment.Computes.create .empty (.temporary n rfl) fun ks hks _ _ _ => ?_
  have hsame := hks _ (hids.not_of_ne (by decide))
  have hsame' := hks _ (howners.not_of_ne (by decide))
  have hhash := (hbase.unique f hf hunique).of_data?_eq hsame'
  refine ((stores_owners hhash (hbase.ids.of_data?_eq hsame)).expire t.lifetime).congr fun id => ?_
  simp only [has_of_data?_eq hsame, field?, hsame']

/-- The selection of the ids with one of some values. -/
theorem indexSelection_computes (hbase : t.layout.Readable base) {f : Field}
    (hf : f ∈ t.layout.indexedFields) :
    (t.indexSelection n f.name raw).Computes t.layout base
      fun id => ∃ v ∈ raw, base.Has (t.layout.keys.index f.name v) id := by
  have hsection : ∀ key ∈ raw.map (t.layout.keys.index f.name),
      ¬t.layout.keys.InSection key .temporary := by
    rw [List.forall_mem_map]
    intro v _
    exact (ModelKeys.InSection.index f.name v rfl).not_of_ne (by decide)
  have hfits : ∀ key ∈ raw.map (t.layout.keys.index f.name), base.Fits key t.layout.memberKind := by
    rw [List.forall_mem_map]
    exact fun v _ => hbase.index f hf v
  exact (unionOf_computes (.ofKeys hfits hsection)).congr (by simp)

end Selections

end Target

variable {t : Target} {base : Keyspace} {n : Nat}

/-- Leaving out repetitions leaves out nothing else. -/
theorem mem_distinct (values : List String) (v : String) : v ∈ distinct values ↔ v ∈ values := by
  suffices h : ∀ seen : List String,
      v ∈ values.foldl (fun seen v => if seen.contains v then seen else seen ++ [v]) seen ↔
        v ∈ seen ∨ v ∈ values by
    simpa [distinct] using h []
  induction values with
  | nil => simp
  | cons w rest ih =>
    intro seen
    rw [List.foldl_cons, ih, List.mem_cons]
    split
    next h =>
      have hw : w ∈ seen := by simpa using h
      grind
    next => grind

/-- A selection computes the ids that it selects. -/
theorem selection_computes {field : String} {values : List Value} {found : Fragment}
    (hbase : t.layout.Readable base) (h : selection t n field values = .ok found) :
    found.Computes t.layout base (t.layout.Selects base field values) := by
  obtain ⟨f, hf, h⟩ := bind_ok_iff.mp h
  -- ids are found under the texts without repetitions just as under all of them
  have hselects : ∀ id, (∃ raw ∈ distinct (values.filterMap f.kind.encode),
      t.layout.Finds base f raw id) ↔ t.layout.Selects base field values id := by
    intro id
    simp only [mem_distinct, Layout.selects_iff hf]
  generalize distinct (values.filterMap f.kind.encode) = raw at h hselects
  refine Fragment.Computes.congr ?_ hselects
  cases raw with
  -- no value has a text, so nothing can be stored under one
  | nil =>
    cases h
    exact .ofNothing .empty (by simp)
  | cons first rest =>
    cases hkey : f.primaryKey with
    | true =>
      simp only [hkey, if_true] at h
      cases h
      refine (Target.idSelection_computes hbase (by simp)).congr fun id => ?_
      simp only [Layout.Finds, hkey, if_true]
      constructor
      · rintro ⟨hid, hhas⟩
        exact ⟨id, hid, rfl, hhas⟩
      · rintro ⟨_, hid, rfl, hhas⟩
        exact ⟨hid, hhas⟩
    | false =>
    cases hunique : f.unique with
    | true =>
      simp only [hkey, hunique, Bool.false_eq_true, if_false, if_true] at h
      cases h
      have hfield := (Layout.of_queryableField_ok hf).1
      refine (Target.uniqueSelection_computes hbase hfield hunique).congr fun id => ?_
      simp only [Layout.Finds, hkey, hunique, Bool.false_eq_true, if_false, if_true]
    | false =>
      simp only [hkey, hunique, Bool.false_eq_true, if_false] at h
      cases h
      have hindexed := Layout.mem_indexedFields_of_queryableField hf hkey hunique
      refine (Target.indexSelection_computes hbase hindexed).congr fun id => ?_
      simp only [Layout.Finds, hkey, hunique, Bool.false_eq_true, if_false]

mutual

/-- The fragment of a node computes the ids that the node denotes. -/
theorem lowerNode_computes (hbase : t.layout.Readable base) {found : Fragment} :
    ∀ {n : Nat} {node : Tree}, lowerNode t n node = .ok found →
      found.Computes t.layout base fun id => node.Denotes t.layout base id
  | _, .empty _, h => by
    obtain ⟨-, -, h⟩ := bind_ok_iff.mp h
    cases h
    exact .ofNothing .empty fun _ => id
  | _, .select _ field values, h => by
    obtain ⟨-, -, h⟩ := bind_ok_iff.mp h
    exact selection_computes hbase h
  | _, .union _ operands, h => by
    obtain ⟨-, -, h⟩ := bind_ok_iff.mp h
    obtain ⟨parts, hparts, h⟩ := bind_ok_iff.mp h
    cases h
    obtain ⟨sets, hcomputes, hany⟩ := lowerEach_computes hbase hparts
    exact (Target.unionOf_computes hcomputes).congr hany
  | _, .intersect _ [], h => by
    obtain ⟨-, -, h⟩ := bind_ok_iff.mp h
    cases h
    -- no operand restricts the collection of all ids
    have hids : t.layout.keys.InSection t.layout.keys.ids .ids := .ids rfl
    have hall : Fragments.Computes t.layout base ⟨[t.layout.keys.ids], [], []⟩
        [fun id => base.Has t.layout.keys.ids id] :=
      .ofKeys (List.forall_mem_singleton.mpr hbase.ids)
        (List.forall_mem_singleton.mpr (hids.not_of_ne (by decide)))
    show Fragment.Computes t.layout base (Fragments.atKey ⟨[t.layout.keys.ids], [], []⟩ _) _
    exact (Fragment.Computes.atKey hall rfl).congr fun _ => .rfl
  | _, .intersect _ (first :: rest), h => by
    obtain ⟨-, -, h⟩ := bind_ok_iff.mp h
    obtain ⟨⟨parts, complete⟩, hparts, h⟩ := bind_ok_iff.mp h
    cases h
    obtain ⟨sets, hcomputes, hcomplete, hempty⟩ := lowerWhile_computes hbase hparts
    cases complete with
    | true =>
      obtain rfl := hcomplete rfl
      refine (Target.intersectionOf_computes hcomputes (by simp)).congr fun id => ?_
      rw [List.forall_mem_map]
      exact Tree.denotesAll_iff.symm
    -- one of the operands matches nothing
    | false => exact .ofNothing hcomputes (hempty rfl)
  | n, .difference _ (head :: second :: rest), h => by
    obtain ⟨-, -, h⟩ := bind_ok_iff.mp h
    obtain ⟨first, hfirst, h⟩ := bind_ok_iff.mp h
    have hhead := lowerNode_computes hbase hfirst
    cases hsource : first.source with
    | none =>
      simp only [hsource] at h
      cases h
      -- nothing is left of nothing
      refine hhead.congr fun id => ?_
      have hnone := hhead.nothing hsource id
      exact ⟨fun hid => absurd hid hnone, fun hid => absurd hid.1 hnone⟩
    | some key =>
      simp only [hsource] at h
      obtain ⟨others, hothers, h⟩ := bind_ok_iff.mp h
      cases h
      obtain ⟨sets, hrest, hany⟩ := lowerEach_computes hbase hothers
      refine (Target.differenceOf_computes (hhead.cons_of_some hsource hrest)).congr fun id => ?_
      refine and_congr_right fun _ => ?_
      rw [← hany id]
      simp
  -- a difference of fewer than two trees is refused
  | _, .difference _ [], h => by
    obtain ⟨-, -, h⟩ := bind_ok_iff.mp h
    cases h
  | _, .difference _ [_], h => by
    obtain ⟨-, -, h⟩ := bind_ok_iff.mp h
    cases h

/-- The fragments of nodes compute the ids that some node denotes. -/
theorem lowerEach_computes (hbase : t.layout.Readable base) {parts : Fragments} :
    ∀ {n : Nat} {nodes : List Tree}, lowerEach t n nodes = .ok parts →
      ∃ sets, parts.Computes t.layout base sets ∧
        ∀ id, (∃ P ∈ sets, P id) ↔ Tree.DenotesAny t.layout base id nodes
  | _, [], h => by
    cases h
    exact ⟨[], .empty, by simp [Tree.DenotesAny]⟩
  | _, node :: rest, h => by
    obtain ⟨first, hfirst, h⟩ := bind_ok_iff.mp h
    obtain ⟨others, hothers, h⟩ := bind_ok_iff.mp h
    cases h
    have hnode := lowerNode_computes hbase hfirst
    obtain ⟨sets, hrest, hany⟩ := lowerEach_computes hbase hothers
    refine ⟨_, hnode.alone.append hrest, fun id => ?_⟩
    rw [Tree.DenotesAny, ← hany id, ← hnode.exists_alone id]
    simp only [List.mem_append, or_and_right, exists_or]

/-- The fragments of nodes up to the first that matches nothing compute the ids of these nodes; if
there is such a node, no id is denoted by all of them. -/
theorem lowerWhile_computes (hbase : t.layout.Readable base) {parts : Fragments} {complete : Bool} :
    ∀ {n : Nat} {nodes : List Tree}, lowerWhile t n nodes = .ok (parts, complete) →
      ∃ sets, parts.Computes t.layout base sets ∧
        (complete = true → sets = nodes.map fun node id => node.Denotes t.layout base id) ∧
        (complete = false → ∀ id, ¬Tree.DenotesAll t.layout base id nodes)
  | _, [], h => by
    cases h
    exact ⟨[], .empty, by simp, (nomatch ·)⟩
  | _, node :: rest, h => by
    obtain ⟨first, hfirst, h⟩ := bind_ok_iff.mp h
    have hnode := lowerNode_computes hbase hfirst
    cases hsource : first.source with
    -- the nodes behind the first one that matches nothing are not lowered
    | none =>
      simp only [hsource] at h
      cases h
      refine ⟨_, hnode.alone.append .empty, (nomatch ·), fun _ id hall => ?_⟩
      exact hnode.nothing hsource id hall.1
    | some key =>
      simp only [hsource] at h
      obtain ⟨⟨others, complete'⟩, hothers, h⟩ := bind_ok_iff.mp h
      cases h
      obtain ⟨sets, hrest, hcomplete, hempty⟩ := lowerWhile_computes hbase hothers
      refine ⟨_, hnode.cons_of_some hsource hrest, fun hc => ?_, fun hc id hall => ?_⟩
      · rw [hcomplete hc, List.map_cons]
      · exact hempty hc id hall.2

end

end Lowering

namespace Tree

variable {tree : Tree} {lifetime n : Nat} {plan : Plan} {ks : Keyspace}

/-- Without an order, the plan of a tree is that of its fragment. -/
theorem lower_none_ok (h : tree.lower none lifetime n = .ok plan) :
    ∃ found, Lowering.lowerNode ⟨tree.origin.layout, lifetime⟩ n tree = .ok found ∧
      plan = Lowering.storagePlan tree.origin.layout found := by
  obtain ⟨found, hfound, h⟩ := bind_ok_iff.mp h
  refine ⟨found, hfound, ?_⟩
  cases hsource : found.source <;> simp only [hsource] at h <;> cases h <;> rfl

/-- The plan of a tree succeeds and leaves the ids of the tree under its source. -/
theorem runs_of_lower (h : tree.lower none lifetime n = .ok plan)
    (hks : tree.origin.layout.Readable ks) (hfresh : ks.Fresh plan.temporaries) :
    ∃ ks', ks.Succeeds plan.commands ks' ∧
      (∀ key, key ∉ plan.temporaries → ks'.data? key = ks.data? key) ∧
      ∀ key, plan.source = some key → ks'.Fits key tree.origin.layout.memberKind ∧
        ∀ id, ks'.Has key id ↔ tree.Denotes tree.origin.layout ks id := by
  obtain ⟨found, hfound, rfl⟩ := lower_none_ok h
  have hcomputes := Lowering.lowerNode_computes hks hfound
  obtain ⟨ks', hrun, hsame, hfits, hmean⟩ := hcomputes.alone.runs ks (fun _ _ => rfl) hfresh
  refine ⟨ks', hrun, hsame, fun key hkey => ?_⟩
  have hsource : found.source = some key := hkey
  refine ⟨hfits key (by simp [Fragment.alone, hsource]), fun id => ?_⟩
  simpa [Fragment.alone, hsource] using hmean id

/-- A tree without a source denotes nothing. -/
theorem not_denotes_of_lower (h : tree.lower none lifetime n = .ok plan)
    (hsource : plan.source = none) (hks : tree.origin.layout.Readable ks) (id : String) :
    ¬tree.Denotes tree.origin.layout ks id := by
  obtain ⟨found, hfound, rfl⟩ := lower_none_ok h
  exact (Lowering.lowerNode_computes hks hfound).nothing hsource id

/-- Lowering is correct: on every key space in which the keys of the model hold what they should and
the temporary keys are free, all commands of the plan succeed, and the members of its source are the
ids that the tree denotes on the key space before. Without a source, there are no such ids. -/
theorem lower_correct (h : tree.lower none lifetime n = .ok plan) :
    (∀ ks, tree.origin.layout.Readable ks → ks.Fresh plan.temporaries →
      (∀ reply ∈ (ks.executeAll plan.commands).1, reply.isError = false) ∧
      ∀ key, plan.source = some key →
        ∃ found, (ks.executeAll plan.commands).2.members key = .ok found ∧
          ∀ id, id ∈ found ↔ tree.Denotes tree.origin.layout ks id) ∧
    (plan.source = none → ∀ ks, tree.origin.layout.Readable ks →
      ∀ id, ¬tree.Denotes tree.origin.layout ks id) := by
  refine ⟨fun ks hks hfresh => ?_, fun hsource ks hks => not_denotes_of_lower h hsource hks⟩
  obtain ⟨ks', hrun, -, hmean⟩ := runs_of_lower h hks hfresh
  refine ⟨hrun.replies, fun key hkey => ?_⟩
  obtain ⟨hfits, hhas⟩ := hmean key hkey
  obtain ⟨found, hfound, hmem⟩ := (Layout.fitsScored_of_fits hfits).exists_members
  rw [hrun.leads]
  exact ⟨found, hfound, fun id => (hmem id).trans (hhas id)⟩

/-- Two planets are stored, and the inner ones without the one of a code are asked for. -/
theorem lower_correct_planets :
    ∃ (tree : Tree) (plan : Plan) (ks : Keyspace) (key : String) (found : List String),
      tree.lower none 60 0 = .ok plan ∧ tree.origin.layout.Readable ks ∧
        ks.Fresh plan.temporaries ∧ plan.source = some key ∧
        (ks.executeAll plan.commands).2.members key = .ok found ∧ "8" ∈ found ∧ "7" ∉ found := by
  let l : Layout :=
    { tag := Sample.planet.tag, keys := .ofModel "kvm." "planet"
      identity := (Sample.assignedId .int64).field, fields := Sample.planet.schema.fields
      defaultOrdering := some ⟨"score", false⟩, versionField := none }
  let tree : Tree :=
    .difference ⟨l, none⟩
      [.select ⟨l, none⟩ "group" [.text "inner", .null], .select ⟨l, none⟩ "code" [.text "M"]]
  let scores : Table Double := Table.insertAll ∅ [("7", .zero), ("8", .one)]
  let ks₁ := Keyspace.empty.update l.keys.ids (.sortedSet scores)
  let ks₂ := ks₁.update (l.keys.index "group" "inner") (.sortedSet scores)
  let ks := ks₂.update (l.keys.unique "code") (.hash (Table.insertAll ∅ [("M", "7")]))
  obtain ⟨plan, hplan, hsource⟩ : ∃ plan, tree.lower none 60 0 = .ok plan ∧
      plan.source = some (l.keys.temporary 1) := ⟨_, rfl, rfl⟩
  have htemporaries : plan.temporaries = [l.keys.temporary 0, l.keys.temporary 1] := by
    cases hplan
    rfl
  -- all keys besides the one of the owners hold sorted sets
  have hsorted : ∀ key, key ≠ l.keys.unique "code" → ks.Fits key .sortedSet := fun key hne =>
    (Keyspace.ChangedAt.update ks₂ rfl).fits_of
      ((Keyspace.ChangedAt.update ks₁ rfl).fits_of
        ((Keyspace.ChangedAt.update .empty rfl).fits_of (.of_none rfl) fun _ => rfl) fun _ => rfl)
      fun h => absurd h hne
  have howners : l.keys.InSection (l.keys.unique "code") .unique := .unique _ rfl
  have hreadable : l.Readable ks := by
    refine ⟨hsorted _ ?_, fun f _ v => hsorted _ ?_, fun f hf hunique => ?_⟩
    · exact ModelKeys.InSection.ne (.ids rfl) howners (by decide)
    · exact ModelKeys.InSection.ne (.index f.name v rfl) howners (by decide)
    · have hname : f.name = "code" := by
        revert f
        decide
      rw [hname]
      exact (Keyspace.ChangedAt.update ks₂ rfl).fits
  have hfresh : ks.Fresh plan.temporaries := by
    rw [htemporaries]
    refine ⟨by decide, by decide +kernel⟩
  obtain ⟨-, hmembers⟩ := (lower_correct hplan).1 ks hreadable hfresh
  obtain ⟨found, hfound, hmem⟩ := hmembers _ hsource
  refine ⟨tree, plan, ks, _, found, hplan, hreadable, hfresh, hsource, hfound, ?_, ?_⟩
  · refine (hmem "8").mpr ⟨⟨_, rfl, "inner", List.mem_singleton_self _, ?_⟩, ?_⟩
    · show ks.Has (l.keys.index "group" "inner") "8"
      unfold Keyspace.Has
      decide +kernel
    · rintro (⟨f, hf, raw, hraw, hfinds⟩ | h)
      · cases hf
        obtain rfl := List.mem_singleton.mp hraw
        have howner : ks.field? (l.keys.unique "code") "M" = some "8" := hfinds.1
        revert howner
        decide +kernel
      · cases h
  · refine fun h => ((hmem "7").mp h).2 (.inl ⟨_, rfl, "M", List.mem_singleton_self _, ?_⟩)
    show ks.field? (l.keys.unique "code") "M" = some "7" ∧ (_ → ks.Has l.keys.ids "7")
    refine ⟨by decide +kernel, fun _ => ?_⟩
    unfold Keyspace.Has
    decide +kernel

end Tree

end KeyedRecords
