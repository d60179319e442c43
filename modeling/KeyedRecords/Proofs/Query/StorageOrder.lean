import KeyedRecords.Proofs.Commit.Origins
import KeyedRecords.Proofs.Model.Weights
import KeyedRecords.Proofs.Query.Answers
import KeyedRecords.Proofs.Query.Scores
import KeyedRecords.Proofs.Store.Sorting

/-!
# Storage order

The collections of an ordered model are sorted by the field of its default order, and so are the
results of its queries. A plan that is asked to sort by that field therefore reads its source as it
is; a sort by the field would answer the same list (`Tree.elided_eq_sorted`).
-/

namespace KeyedRecords

open Keyspace

/-- A namespace that is accepted has no star. -/
theorem Config.star_not_mem {c : Config} (h : c.validate = .ok ()) : '*' ∉ c.space.toList := by
  unfold validate at h
  split at h
  · cases h
  · split at h
    · cases h
    next hspace => exact fun hstar => hspace (List.any_eq_true.mpr ⟨'*', hstar, by simp⟩)

namespace Layout

/-- A field with another name than that of the identity is not the identity. -/
theorem WellFormed.primaryKey_eq_false {l : Layout} (hl : l.WellFormed) {name : String} {f : Field}
    (hf : l.field? name = some f) (hne : name ≠ l.identity.name) : f.primaryKey = false := by
  rw [Bool.eq_false_iff]
  intro hprimary
  obtain ⟨hmem, hname⟩ := of_field? hf
  rw [hl.onlyKey f hmem hprimary] at hname
  exact hne hname.symm

variable {l : Layout} {ks : Keyspace} {records : String → Record}

/-- A sort by the field of the default order weighs ids by their scores. -/
theorem WrittenFrom.numericWeight (h : l.WrittenFrom ks records) {order : SortOrder} {f : Field}
    (horder : l.defaultOrdering = some order) (hf : l.field? order.field = some f)
    (hkey : f.primaryKey = false) (hversion : l.versionField ≠ some order.field) {id : String}
    {x : Double} (hx : ks.score? l.keys.ids id = some x)
    (hreads : ∀ v, (records id).get? order.field = some v → f.kind.Reads v) :
    Keyspace.numericWeight (ks.field? (l.keys.object id) order.field) = .ok x := by
  obtain ⟨hmem, hname⟩ := of_field? hf
  have hscore : (((records id).get? order.field).bind f.kind.score).getD .zero = x := by
    simpa [Record.score, horder, hf, hname] using h.score id x hx
  have hhas : ks.Has l.keys.ids id := Option.isSome_of_eq_some hx
  have htext := h.text f hmem hkey (hname ▸ hversion) id hhas
  rw [← hname, htext, ← hscore, ← hname]
  exact ((records id).numericWeight_text?_iff f).mpr (hname ▸ hreads)

end Layout

namespace Tree

variable {tree : Tree} {lifetime n : Nat} {plan : Plan} {ks : Keyspace}

/-- A sort by the field of the default order is left out of the plan. -/
theorem lower_elided_ok {order : SortOrder} {descending : Bool}
    (horder : tree.origin.layout.defaultOrdering = some order)
    (h : tree.lower (some ⟨order.field, descending⟩) lifetime n = .ok plan) {key : String}
    (hkey : plan.source = some key) :
    ∃ found, Lowering.lowerNode ⟨tree.origin.layout, lifetime⟩ n tree = .ok found ∧
      plan = { Lowering.storagePlan tree.origin.layout found with
        reader := .sorted key descending, sortElided := true } ∧ found.source = some key := by
  obtain ⟨found, hfound, h⟩ := bind_ok_iff.mp h
  refine ⟨found, hfound, ?_⟩
  cases hsource : found.source with
  | none =>
    simp only [hsource] at h
    cases h
    rw [← hsource]
    exact absurd hkey (by simp [Lowering.storagePlan, hsource])
  | some key' =>
    simp only [hsource] at h
    obtain ⟨-, -, h⟩ := bind_ok_iff.mp h
    rw [if_pos (by simp [horder])] at h
    cases h
    obtain rfl : key' = key := by simpa [Lowering.storagePlan, hsource] using hkey
    exact ⟨rfl, rfl⟩

/-- On an ordered model, the plan of a tree that is asked to sort by the field of the default order
reads its source as it is, from either end, and a sort of the source by that field answers the same
list. This holds on every key space in which the collections agree with the records, and all scores
are those of records that were written, if set algebra leaves these scores as they are and the texts
of the field are read as the scores of its values. -/
theorem elided_eq_sorted {config : Config} {s : Schema} {l : Layout} {order : SortOrder} {f : Field}
    (hconfig : config.validate = .ok ()) (harrow : ¬['-', '>'] <:+: config.space.toList)
    (hl : s.layout config.space = .ok l) (horder : l.defaultOrdering = some order)
    (hf : l.field? order.field = some f) (hidentity : order.field ≠ l.identity.name)
    (hversion : l.versionField ≠ some order.field) (horigin : tree.origin.layout = l)
    {descending : Bool}
    (hplan : tree.lower (some ⟨order.field, descending⟩) lifetime n = .ok plan)
    (hks : l.Agrees ks) (hfresh : ks.Fresh plan.temporaries) {records : String → Record}
    (hwritten : l.WrittenFrom ks records)
    (hreads : ∀ id, ks.Has l.keys.ids id → ∀ v, (records id).get? order.field = some v →
      f.kind.Reads v)
    (hsteady : ks.Steady l.keys.ids) :
    ∀ key, plan.source = some key →
      plan.reader = .sorted key descending ∧ plan.sortElided = true ∧
        ∃ found after, (ks.executeAll plan.commands).2 = after ∧
          after.execute (.zrange key 0 (-1) descending) = (.list found, after) ∧
          after.execute (.sort key (some (l.keys.sortPattern order.field)) descending false none) =
            (.list found, after) := by
  subst horigin
  intro key hkey
  obtain ⟨found, hfound, rfl, hsource⟩ := lower_elided_ok horder hplan hkey
  have hscored : tree.origin.layout.Scored ks :=
    { hks.toReadable with
      ordered := by simp [Layout.isOrdered, horder]
      steady := hsteady
      index_ranks := fun f hf hunique v id x => hwritten.index f hf hunique v id x }
  have hcomputes := Lowering.lowerNode_computes hks.toReadable hfound
  obtain ⟨after, hrun, hsame, hfits, -⟩ := hcomputes.alone.runs ks (fun _ _ => rfl) hfresh
  have hmem : key ∈ found.alone.keys := by simp [Fragment.alone, hsource]
  have hranks := Lowering.lowerNode_ranks hscored hfound ks (fun _ _ => rfl) hfresh key hmem
  rw [hrun.leads] at hranks
  have hlaid := Schema.layout_ok hl
  have hkeyless := (Schema.layout_wellFormed hl).primaryKey_eq_false hf hidentity
  -- the commands leave the records as they are, where the weights are looked up
  have hweight : ∀ id x, after.score? key id = some x → numericWeight
      (after.weight (some (tree.origin.layout.keys.sortPattern order.field)) id) = .ok x := by
    intro id x hx
    have hscore := hranks id x hx
    have hsection : tree.origin.layout.keys.InSection (tree.origin.layout.keys.object id) .object :=
      .object id rfl
    have hobject : tree.origin.layout.keys.object id ∉ found.temporaries := fun htemporary =>
      hsection.not_of_ne (by decide) (hcomputes.alone.temporaries _ htemporary)
    rw [weight, hlaid.keys,
      lookUp_sortPattern harrow (Config.star_not_mem hconfig) hlaid.name, ← hlaid.keys,
      field?, hsame _ hobject]
    exact hwritten.numericWeight horder hf hkeyless hversion hscore
      (hreads id (Option.isSome_of_eq_some hscore))
  obtain ⟨ids, hzrange, hsort⟩ :=
    (hscored.memberKind_eq ▸ hfits key hmem).execute_sort hweight descending
  exact ⟨rfl, rfl, ids, after, hrun.leads, hzrange, hsort⟩

section Stars

/-- The write of a document whose rank is no number. -/
def unrankedWrite (slug : String) (serial : Int64) : InstanceWrite :=
  .ofRecord Request.starLayout slug
    ⟨[("slug", .text slug), ("rank", .float (.nan false)), ("serial", .int serial)]⟩ (some 0)

/-- The key space behind the commit of two such documents. -/
def unrankedSpace : Keyspace :=
  (execute ⟨∅, 0⟩ (.eval (.commit (CommitScript.batchOf Request.starLayout
    [unrankedWrite "a" 1, unrankedWrite "b" 2] [])))).2

theorem reachable_unrankedSpace : CommitScript.Reachable Request.starLayout unrankedSpace := by
  refine .commit (.start 0) fun ids _ v hv w hw => ?_
  have hmem := CommitScript.mem_writes_of_visits hv hw
  have hauto : Request.starLayout.autoId = false := rfl
  have hrecord : ∃ identity r version, w = .ofRecord Request.starLayout identity r version := by
    rcases List.mem_pair.mp hmem with rfl | rfl <;> exact ⟨_, _, _, rfl⟩
  exact ⟨hrecord, .inl rfl, by simp [hauto]⟩

/-- Both documents have the rank that is no number. -/
theorem score?_unrankedSpace {id : String} {x : Double}
    (h : unrankedSpace.score? Request.starLayout.keys.ids id = some x) :
    (id = "a" ∨ id = "b") ∧ x = .nan false := by
  have hfits : unrankedSpace.FitsScored Request.starLayout.keys.ids :=
    .inr (CommitScript.agrees_of_reachable Request.layout_starDoc (by decide) (by decide)
      reachable_unrankedSpace).ids
  have hitems : (unrankedSpace.scoredAt Request.starLayout.keys.ids).toList.map
      (fun e => (e.1, e.2.bits)) =
        [("a", (Double.nan false).bits), ("b", (Double.nan false).bits)] := by decide +kernel
  rw [← hfits.getElem?_scoredAt, ← Std.ExtTreeMap.mem_toList_iff_getElem?_eq_some] at h
  have hmem := List.mem_map_of_mem (f := fun e : String × Double => (e.1, e.2.bits)) h
  rw [hitems, List.mem_pair] at hmem
  obtain ⟨bits⟩ := x
  rcases hmem with hmem | hmem <;> obtain ⟨rfl, rfl⟩ := Prod.mk.inj hmem
  · exact ⟨.inl rfl, rfl⟩
  · exact ⟨.inr rfl, rfl⟩

/-- The stars of two slugs, but for those with a serial number that none of them has. -/
def unnumberedTree : Tree :=
  let o : Origin := ⟨Request.starLayout, none⟩
  .difference o [.select o "slug" [.text "a", .text "b"], .select o "serial" [.int 9]]

/-- Two stars whose ranks are no numbers are told apart by their slugs. Arithmetic hands such ranks
on, so that they are steady. -/
theorem elided_eq_sorted_stars :
    ∃ (plan : Plan) (after : Keyspace),
      unnumberedTree.lower (some ⟨"rank", true⟩) 60 0 = .ok plan ∧
        plan.source = some (Request.starLayout.keys.temporary 2) ∧
        (unrankedSpace.executeAll plan.commands).2 = after ∧
        after.execute (.zrange (Request.starLayout.keys.temporary 2) 0 (-1) true) =
          (.list ["b", "a"], after) ∧
        after.execute (.sort (Request.starLayout.keys.temporary 2)
            (some "kvm.star_doc:obj:*->rank") true false none) = (.list ["b", "a"], after) := by
  obtain ⟨plan, hplan, hsource, htemporaries⟩ : ∃ plan,
      unnumberedTree.lower (some ⟨"rank", true⟩) 60 0 = .ok plan ∧
      plan.source = some (Request.starLayout.keys.temporary 2) ∧
      plan.temporaries = [0, 1, 2].map Request.starLayout.keys.temporary := ⟨_, rfl, rfl, rfl⟩
  obtain ⟨records, hwritten⟩ := CommitScript.exists_writtenFrom
    (Schema.layout_wellFormed Request.layout_starDoc) (by decide) rfl reachable_unrankedSpace
  have hfresh : unrankedSpace.Fresh plan.temporaries := by
    rw [htemporaries]
    exact ⟨by decide +kernel, by decide +kernel⟩
  have hagrees := CommitScript.agrees_of_reachable Request.layout_starDoc (by decide) (by decide)
    reachable_unrankedSpace
  have hsteady : unrankedSpace.Steady Request.starLayout.keys.ids := by
    constructor <;> intro id x hx <;> rw [(score?_unrankedSpace hx).2] <;> rfl
  have hreads : ∀ id, unrankedSpace.Has Request.starLayout.keys.ids id →
      ∀ v, (records id).get? "rank" = some v → FieldKind.float.Reads v := by
    intro id hhas v hv raw hraw
    obtain ⟨x, hx⟩ := Option.isSome_iff_exists.mp hhas
    obtain ⟨hid, rfl⟩ := score?_unrankedSpace hx
    have htext : unrankedSpace.field? (Request.starLayout.keys.object id) "rank" = some "NaN" := by
      rcases hid with rfl | rfl <;> decide +kernel
    -- the value has the stored score, and its text is the stored one
    have hkept := hwritten.text (ShapedField.plain "rank" .float64).field
      (List.mem_of_getElem? (i := 1) rfl) rfl (by decide) id hhas
    have hscore : (((records id).get? "rank").bind FieldKind.float.score).getD .zero = .nan false :=
      hwritten.score id _ hx
    have htext' : ((records id).get? "rank").bind FieldKind.float.encode = some "NaN" :=
      hkept.symm.trans htext
    rw [hv, Option.bind_some] at hscore htext'
    rw [hscore, Option.some.inj (hraw.symm.trans htext')]
    rfl
  have hconfig : Config.standard.validate = .ok () := rfl
  have hfield : Request.starLayout.field? "rank" = some (ShapedField.plain "rank" .float64).field :=
    rfl
  obtain ⟨-, -, found, after, hafter, hzrange, hsort⟩ := elided_eq_sorted hconfig (by decide)
    Request.layout_starDoc rfl hfield (by decide) (by decide) rfl hplan hagrees hfresh hwritten
    hreads hsteady _ hsource
  -- both have the same score, so they are in the order of their slugs
  have hitems : ((after.sortedSet? (Request.starLayout.keys.temporary 2)).toOption.map fun z =>
      let items := (z.getD ∅).toList
      (decide (items.Pairwise fun a b => scoredLE a b = true), items.map Prod.fst)) =
        some (true, ["a", "b"]) := by
    subst hafter
    cases hplan
    decide +kernel
  obtain rfl : ["b", "a"] = found := by
    cases hz : after.sortedSet? (Request.starLayout.keys.temporary 2) with
    | error e => simp [hz, Except.toOption] at hitems
    | ok z =>
      rw [hz] at hitems
      obtain ⟨hsorted, hnames⟩ := Prod.mk.inj (Option.some.inj hitems)
      have hreply := congrArg Prod.fst ((execute_zrange_all hz true).symm.trans hzrange)
      rw [if_pos rfl, byScore_of_pairwise (of_decide_eq_true hsorted), hnames] at hreply
      exact Reply.list.inj hreply
  exact ⟨plan, after, hplan, hsource, hafter, hzrange, hsort⟩

end Stars

end Tree

end KeyedRecords
