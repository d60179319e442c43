import KeyedRecords.Proofs.Model.Layout
import KeyedRecords.Proofs.Query.Request
import KeyedRecords.Proofs.Query.Trees
import Mathlib.Logic.Basic

/-!
# From requests to trees

The tree of a query that was built by a request denotes the instances that the request describes
(`Request.tree_of_construct`), on a key space whose collections agree with its records. By induction
over the request; each list of calls adds one layer to the tree.
-/

namespace KeyedRecords

namespace Layout

variable {l : Layout} {ks : Keyspace} {f : Field} {name id : String}

theorem field?_of_queryableField (h : l.queryableField name = .ok f) : l.field? name = some f := by
  unfold queryableField at h
  split at h
  · cases h
  next g hg =>
    split at h
    · cases h
      exact hg
    · cases h

/-- Criteria can name the identity. -/
theorem WellFormed.queryableField_identity (h : l.WellFormed) :
    l.queryableField l.identity.name = .ok l.identity := by
  have hfield : l.field? l.identity.name = some l.identity :=
    h.field?_eq_some_iff.mpr ⟨h.identity.1, rfl⟩
  have hquery : l.identity.isQueryable = true := by simp [Field.isQueryable, h.identity.2]
  unfold queryableField
  rw [hfield]
  simp only [hquery, if_true]

namespace Agrees

/-- Where an id is found, its record has the text. -/
theorem finds_iff (h : l.Agrees ks) (hf : l.queryableField name = .ok f) (raw id : String) :
    l.Finds ks f raw id ↔ ks.Has l.keys.ids id ∧ l.textOf ks f id = some raw := by
  have hfields := (of_queryableField_ok hf).1
  -- a record with a field is a record
  have hstored : ks.field? (l.keys.object id) f.name = some raw → ks.Has l.keys.ids id := by
    intro hfield
    obtain ⟨d, hd, -⟩ := Option.bind_eq_some_iff.mp hfield
    rw [h.ids_iff, hd]
    rfl
  unfold Finds textOf
  cases hkey : f.primaryKey with
  | true =>
    simp only [if_true, Option.some.injEq]
    constructor
    · rintro ⟨rfl, hid⟩
      exact ⟨hid, rfl⟩
    · rintro ⟨hid, rfl⟩
      exact ⟨rfl, hid⟩
  | false =>
  cases hunique : f.unique with
  | true =>
    simp only [Bool.false_eq_true, if_false, if_true]
    rw [h.unique_iff f hfields hkey hunique]
    exact ⟨fun hid => ⟨hstored hid.1, hid.1⟩, fun hid => ⟨hid.2, fun _ => hid.1⟩⟩
  | false =>
    simp only [Bool.false_eq_true, if_false]
    rw [h.index_iff f (mem_indexedFields_of_queryableField hf hkey hunique) hunique]
    exact ⟨fun hid => ⟨hstored hid, hid⟩, And.right⟩

/-- What values of a field select are the records with the text of one of them. -/
theorem selects_iff (h : l.Agrees ks) (hf : l.queryableField name = .ok f) (values : List Value)
    (id : String) :
    l.Selects ks name values id ↔ ks.Has l.keys.ids id ∧
      ∃ raw, l.textOf ks f id = some raw ∧ ∃ v ∈ values, f.kind.encode v = some raw := by
  simp only [Layout.selects_iff hf, h.finds_iff hf, List.mem_filterMap]
  constructor
  · rintro ⟨raw, ⟨v, hv, hraw⟩, hid, htext⟩
    exact ⟨hid, raw, htext, v, hv, hraw⟩
  · rintro ⟨hid, raw, htext, v, hv, hraw⟩
    exact ⟨raw, ⟨v, hv, hraw⟩, hid, htext⟩

mutual

/-- Trees denote ids of the model only. -/
theorem has_of_denotes (h : l.Agrees ks) :
    ∀ {tree : Tree}, tree.Denotes l ks id → ks.Has l.keys.ids id
  | .empty _, hid => hid.elim
  | .select _ _ _, hid => by
    obtain ⟨f, hf, raw, -, hfinds⟩ := hid
    exact ((h.finds_iff hf raw id).mp hfinds).1
  | .union _ _, hid => has_of_denotesAny h hid
  | .intersect _ [], hid => hid
  | .intersect _ (_ :: _), hid => has_of_denotes h hid.1
  | .difference _ [], hid => hid.elim
  | .difference _ (_ :: _), hid => has_of_denotes h hid.1

theorem has_of_denotesAny (h : l.Agrees ks) :
    ∀ {trees : List Tree}, Tree.DenotesAny l ks id trees → ks.Has l.keys.ids id
  | [], hid => hid.elim
  | _ :: _, hid => hid.elim (has_of_denotes h) (has_of_denotesAny h)

end

end Agrees

end Layout

namespace QueryStep

variable {ε : Type}

/-- What a call changes of what a query says. -/
def onTerms : QueryStep ε → QueryTerms ε → QueryTerms ε
  | .filterIn key values, t => { t with filters := t.filters.merge key values }
  | .excludeIn key values, t => { t with excludes := t.excludes.merge key values }
  | .search text, t => { t with search := some text }
  | .withEngine engine, t => { t with engine := some engine }
  | .withSession session, t => { t with session := some session }

/-- What several calls change of what a query says. -/
def onAllTerms (steps : List (QueryStep ε)) (t : QueryTerms ε) : QueryTerms ε :=
  steps.foldl (fun t step => step.onTerms t) t

theorem applyAll_plain (steps : List (QueryStep ε)) (t : QueryTerms ε) :
    applyAll steps (.plain t) = .plain (onAllTerms steps t) := by
  induction steps generalizing t with
  | nil => rfl
  | cons step rest ih => cases step <;> exact ih _

theorem applyAll_combined (steps : List (QueryStep ε)) (how : Compound)
    (operands : List (Query ε)) (t : QueryTerms ε) :
    applyAll steps (.combined how operands t) = .combined how operands (onAllTerms steps t) := by
  induction steps generalizing t with
  | nil => rfl
  | cons step rest ih => cases step <;> exact ih _

end QueryStep

namespace QueryTerms

variable {ε : Type} {consult : Consult ε} {t : QueryTerms ε} {l : Layout} {ks : Keyspace}
  {lifetime : Nat} {steps : List (QueryStep ε)} {engine : Option ε} {id : String}

/-- The terms of a query say what calls have asked for. -/
structure Follows (l : Layout) (lifetime : Nat) (engine : Option ε) (steps : List (QueryStep ε))
    (t : QueryTerms ε) : Prop where
  layout : t.layout = l
  lifetime : t.lifetime = lifetime
  ordering : t.ordering = none
  filters : Criteria.Merged (QueryStep.filters steps) t.filters
  excludes : Criteria.Merged (QueryStep.excludes steps) t.excludes
  search : t.search = QueryStep.searched steps
  engine : t.engine = (QueryStep.engine steps).or engine

section Follows

/-- One more call. -/
theorem Follows.step (h : t.Follows l lifetime engine steps) (step : QueryStep ε) :
    (step.onTerms t).Follows l lifetime engine (steps ++ [step]) := by
  obtain ⟨hlayout, hlifetime, hordering, hfilters, hexcludes, hsearch, hengine⟩ := h
  -- a call has its say on one of these and leaves the others alone
  have hnone {β : Type} (part : QueryStep ε → Option β) (h : part step = none) :
      (steps ++ [step]).filterMap part = steps.filterMap part := by
    simp [List.filterMap_append, h]
  have hsome {β : Type} (part : QueryStep ε → Option β) (x : β) (h : part step = some x) :
      (steps ++ [step]).filterMap part = steps.filterMap part ++ [x] := by
    simp [List.filterMap_append, h]
  unfold QueryStep.filters at hfilters
  unfold QueryStep.excludes at hexcludes
  unfold QueryStep.searched at hsearch
  unfold QueryStep.engine at hengine
  constructor
  case layout => cases step <;> exact hlayout
  case lifetime => cases step <;> exact hlifetime
  case ordering => cases step <;> exact hordering
  case filters =>
    unfold QueryStep.filters
    cases step with
    | filterIn key values =>
      rw [hsome _ (key, values) rfl]
      exact hfilters.merge key values
    | _ => rwa [hnone _ rfl]
  case excludes =>
    unfold QueryStep.excludes
    cases step with
    | excludeIn key values =>
      rw [hsome _ (key, values) rfl]
      exact hexcludes.merge key values
    | _ => rwa [hnone _ rfl]
  case search =>
    unfold QueryStep.searched
    cases step with
    | search text =>
      rw [hsome _ text rfl]
      exact List.getLast?_concat.symm
    | _ => rwa [hnone _ rfl]
  case engine =>
    unfold QueryStep.engine
    cases step with
    | withEngine e =>
      rw [hsome _ e rfl, List.getLast?_concat]
      rfl
    | _ => rwa [hnone _ rfl]

/-- All further calls. -/
theorem Follows.more (h : t.Follows l lifetime engine steps) (more : List (QueryStep ε)) :
    (QueryStep.onAllTerms more t).Follows l lifetime engine (steps ++ more) := by
  induction more generalizing t steps with
  | nil => simpa [QueryStep.onAllTerms] using h
  | cons step rest ih => simpa [QueryStep.onAllTerms] using ih (h.step step)

/-- No call has been made on a combination of queries yet. -/
theorem Follows.combine (h : t.Follows l lifetime engine steps) :
    Follows l lifetime ((QueryStep.engine steps).or engine) []
      { t with filters := [], excludes := [], search := none } :=
  ⟨h.layout, h.lifetime, h.ordering, .nil, .nil, rfl, h.engine⟩

end Follows

section Selections

variable {asked criteria grouped : Criteria} {trees : List Tree}

/-- The selection of a field selects the records that match what was asked of the field. -/
theorem denotes_selection_iff (h : l.Agrees ks) (hmerged : Criteria.Merged asked criteria)
    (hgrouped : Criteria.Merged criteria.byField grouped) (halike : asked.StoredAlike l)
    {e : String × List Value} (he : e ∈ grouped) {f : Field} (hf : l.queryableField e.1 = .ok f)
    (o : Origin) (id : String) :
    (Tree.selection o e.1 e.2).Denotes l ks id ↔
      ks.Has l.keys.ids id ∧ l.Matches ks asked e.1 id := by
  obtain ⟨hfields, hname, -⟩ := Layout.of_queryableField_ok hf
  -- an entry has all texts that were asked for, though not all values
  have htexts : ∀ raw, (∃ v ∈ e.2, f.kind.encode v = some raw) ↔
      ∃ v, asked.byField.Lists e.1 v ∧ f.kind.encode v = some raw := by
    intro raw
    simp only [hgrouped.mem_iff_lists he, ← hname]
    exact hmerged.exists_text_iff hgrouped halike hfields
  rw [Tree.denotes_selection, h.selects_iff hf]
  simp only [htexts]
  refine and_congr_right fun _ => ⟨fun hid => ⟨f, Layout.field?_of_queryableField hf, hid⟩, ?_⟩
  rintro ⟨g, hg, hid⟩
  rw [Layout.field?_of_queryableField hf] at hg
  cases hg
  exact hid

/-- There is one selection for each field that was asked for. -/
theorem selections_ok (hl : t.layout = l) (hmerged : Criteria.Merged asked criteria)
    (halike : asked.StoredAlike l) (h : t.selections criteria = .ok trees) :
    (∀ node ∈ trees, node.Lowerable l) ∧ ∀ ks, l.Agrees ks → ∀ id,
      ((∀ node ∈ trees, node.Denotes l ks id) ↔ ∀ field ∈ asked.byField.keys,
        ks.Has l.keys.ids id ∧ l.Matches ks asked field id) ∧
      ((∃ node ∈ trees, node.Denotes l ks id) ↔ ∃ field ∈ asked.byField.keys,
        ks.Has l.keys.ids id ∧ l.Matches ks asked field id) := by
  subst hl
  have ho : t.origin.layout = t.layout := rfl
  obtain ⟨grouped, hgrouped, rfl⟩ := map_ok_iff.mp h
  obtain ⟨hby, hfields⟩ := Criteria.group_ok .nil hgrouped
  rw [List.nil_append] at hby
  -- each entry comes from a criterion, whose field could be asked for
  have hfield : ∀ e ∈ grouped, ∃ f, t.layout.queryableField e.1 = .ok f := fun e he =>
    hfields e.1 ((hby.keys e.1).mp (List.mem_map_of_mem he))
  refine ⟨?_, fun ks hks id => ?_⟩
  · rw [List.forall_mem_map]
    intro e he
    obtain ⟨f, hf⟩ := hfield e he
    exact Tree.lowerable_selection ho hf e.2
  · have hdenotes : ∀ e ∈ grouped, (Tree.selection t.origin e.1 e.2).Denotes t.layout ks id ↔
        ks.Has t.layout.keys.ids id ∧ t.layout.Matches ks asked e.1 id := by
      intro e he
      obtain ⟨f, hf⟩ := hfield e he
      exact denotes_selection_iff hks hmerged hby halike he hf t.origin id
    simp only [← hmerged.mem_keys_grouped hby]
    unfold Criteria.keys
    rw [List.forall_mem_map, List.forall_mem_map]
    simp only [List.mem_map, exists_exists_and_eq_and]
    exact ⟨forall₂_congr hdenotes, exists_congr fun e => and_congr_right (hdenotes e)⟩

/-- The selection of what was searched for. -/
theorem searchSelection_ok (hwell : l.WellFormed) (hl : t.layout = l)
    (h : t.searchSelection consult = .ok trees) :
    (∀ node ∈ trees, node.Lowerable l) ∧ ∀ ks, l.Agrees ks → ∀ id,
      ((∀ node ∈ trees, node.Denotes l ks id) ↔ ∀ text, t.search = some text →
        ks.Has l.keys.ids id ∧
          ∃ e found, t.engine = some e ∧ consult e l text = .ok found ∧ id ∈ found) := by
  subst hl
  have ho : t.origin.layout = t.layout := rfl
  unfold searchSelection at h
  cases hsearch : t.search with
  | none =>
    rw [hsearch] at h
    cases h
    exact ⟨by simp, by simp⟩
  | some text =>
    rw [hsearch] at h
    cases hengine : t.engine with
    -- a search without an engine is refused
    | none =>
      rw [hengine] at h
      cases h
    | some engine =>
      simp only [hengine] at h
      obtain ⟨found, hfound, h⟩ := bind_ok_iff.mp h
      cases h
      have hidentity := hwell.queryableField_identity
      refine ⟨?_, fun ks hks id => ?_⟩
      · rw [List.forall_mem_singleton]
        exact Tree.lowerable_selection ho hidentity _
      · rw [List.forall_mem_singleton, Tree.denotes_selection, hks.selects_iff hidentity]
        -- the matches are selected by their ids
        have htext : t.layout.textOf ks t.layout.identity id = some id := by
          unfold Layout.textOf
          rw [hwell.identity.2, if_pos rfl]
        simp [htext, hfound, FieldKind.encode]

end Selections

section Combinations

variable {node : Tree} {rest : List Tree}

theorem lowerable_combineTrees (hl : t.layout = l) (how : Compound)
    (h : ∀ n ∈ node :: rest, n.Lowerable l) :
    (t.combineTrees how (node :: rest)).Lowerable l := by
  cases how with
  | union => exact Tree.lowerable_unionOf hl h
  | intersect => exact Tree.lowerable_intersection hl h

/-- A combination of trees denotes ids of the model only. -/
theorem denotes_combineTrees (hks : l.Agrees ks) (how : Compound) :
    (ks.Has l.keys.ids id ∧ (t.combineTrees how (node :: rest)).Denotes l ks id) ↔
      how.Joins (Tree.Denotes l ks id) node rest := by
  cases how with
  | union =>
    have hdenotes : (t.combineTrees .union (node :: rest)).Denotes l ks id ↔
        node.Denotes l ks id ∨ ∃ n ∈ rest, n.Denotes l ks id :=
      Tree.denotes_unionOf.trans (List.exists_mem_cons_iff ..)
    constructor
    · intro h
      exact hdenotes.mp h.2
    · intro h
      exact ⟨hks.has_of_denotes (hdenotes.mpr h), hdenotes.mpr h⟩
  | intersect =>
    have hdenotes : (t.combineTrees .intersect (node :: rest)).Denotes l ks id ↔
        ks.Has l.keys.ids id ∧ node.Denotes l ks id ∧ ∀ n ∈ rest, n.Denotes l ks id := by
      rw [← List.forall_mem_cons]
      exact Tree.denotes_intersection fun _ _ => hks.has_of_denotes
    constructor
    · intro h
      exact (hdenotes.mp h.2).2
    · intro h
      have hid := hks.has_of_denotes h.1
      exact ⟨hid, hdenotes.mpr ⟨hid, h⟩⟩

end Combinations

/-- The tree of a list of calls denotes what the given trees denote, as far as it meets what was
asked for. -/
theorem tree_ok {given : List Tree} {tree : Tree} (hwell : l.WellFormed)
    (ht : t.Follows l lifetime engine steps)
    (halike : (QueryStep.filters steps).StoredAlike l ∧ (QueryStep.excludes steps).StoredAlike l)
    (hgiven : ∀ node ∈ given, node.Lowerable l) (h : t.tree consult given = .ok tree) :
    tree.Lowerable l ∧ ∀ ks, l.Agrees ks → ∀ id,
      (tree.Denotes l ks id ↔ (ks.Has l.keys.ids id ∧ ∀ node ∈ given, node.Denotes l ks id) ∧
        l.Meets ks consult ((QueryStep.engine steps).or engine) steps id) := by
  obtain ⟨kept, hkept, h⟩ := bind_ok_iff.mp h
  obtain ⟨found, hfound, h⟩ := bind_ok_iff.mp h
  obtain ⟨dropped, hdropped, h⟩ := bind_ok_iff.mp h
  cases h
  obtain ⟨hkept, hfilters⟩ := selections_ok ht.layout ht.filters halike.1 hkept
  obtain ⟨hfound, hsearch⟩ := searchSelection_ok hwell ht.layout hfound
  obtain ⟨hdropped, hexcludes⟩ := selections_ok ht.layout ht.excludes halike.2 hdropped
  -- all that is intersected, before anything is taken out
  have hall : ∀ node ∈ given ++ kept ++ found, node.Lowerable l := by
    intro node hnode
    rw [List.mem_append, List.mem_append] at hnode
    exact hnode.elim (·.elim (hgiven node) (hkept node)) (hfound node)
  refine ⟨?_, fun ks hks id => ?_⟩
  · exact Tree.lowerable_differenceOf (Tree.lowerable_intersection ht.layout hall) hdropped
  · rw [Tree.denotes_differenceOf, Tree.denotes_intersection fun _ _ => hks.has_of_denotes,
      (hexcludes ks hks id).2]
    simp only [List.forall_mem_append, (hfilters ks hks id).1, hsearch ks hks id, ht.search,
      ht.engine]
    constructor
    · rintro ⟨⟨hid, ⟨hgiven, hfilter⟩, hsearch⟩, hexclude⟩
      refine ⟨⟨hid, hgiven⟩, fun field hfield => (hfilter field hfield).2,
        fun text htext => (hsearch text htext).2, fun field hfield hmatch => ?_⟩
      exact hexclude ⟨field, hfield, hid, hmatch⟩
    · rintro ⟨⟨hid, hgiven⟩, hmeets⟩
      refine ⟨⟨hid, ⟨hgiven, fun field hfield => ⟨hid, hmeets.filters field hfield⟩⟩,
        fun text htext => ⟨hid, hmeets.search text htext⟩⟩, ?_⟩
      rintro ⟨field, hfield, -, hmatch⟩
      exact hmeets.excludes field hfield hmatch

end QueryTerms

namespace Request

variable {ε : Type} {consult : Consult ε} {l : Layout} {lifetime : Nat}

/-- What a query over all instances says. -/
theorem follows_all (steps : List (QueryStep ε)) :
    (QueryStep.onAllTerms steps (Query.ofLayout (ε := ε) l lifetime).terms).Follows
      l lifetime none steps := by
  have hstart : QueryTerms.Follows l lifetime none [] (Query.ofLayout (ε := ε) l lifetime).terms :=
    ⟨rfl, rfl, rfl, .nil, .nil, rfl, rfl⟩
  exact hstart.more steps

/-- What the query of a request says besides what it combines. -/
theorem exists_follows (l : Layout) (lifetime : Nat) : ∀ r : Request ε, ∃ base steps,
    (r.query l lifetime).terms.Follows l lifetime base steps ∧
      (QueryStep.engine steps).or base = r.engine
  | .all steps => by
    refine ⟨none, steps, ?_, by rw [Option.or_none]; rfl⟩
    have hquery : ((Request.all steps).query l lifetime).terms =
        QueryStep.onAllTerms steps (Query.ofLayout l lifetime).terms :=
      congrArg Query.terms (QueryStep.applyAll_plain steps _)
    rw [hquery]
    exact follows_all steps
  | .combined how first others steps => by
    -- a combination takes over the engine of its first query, and none of its criteria
    obtain ⟨base, done, hfirst, hengine⟩ := exists_follows l lifetime first
    refine ⟨first.engine, steps, ?_, rfl⟩
    have hquery : ((Request.combined how first others steps).query l lifetime).terms =
        QueryStep.onAllTerms steps { (first.query l lifetime).terms with
          filters := [], excludes := [], search := none } :=
      congrArg Query.terms (QueryStep.applyAll_combined steps how _ _)
    rw [hquery, ← hengine]
    exact hfirst.combine.more steps

/-- What the query of a combination says. -/
theorem follows_combined (l : Layout) (lifetime : Nat) (first : Request ε)
    (steps : List (QueryStep ε)) : (QueryStep.onAllTerms steps { (first.query l lifetime).terms with
      filters := [], excludes := [], search := none }).Follows l lifetime first.engine steps := by
  obtain ⟨base, done, hfirst, hengine⟩ := exists_follows l lifetime first
  rw [← hengine]
  exact hfirst.combine.more steps

mutual

/-- The tree of a request that is constructed denotes what the request describes. -/
theorem tree_of_construct (hwell : l.WellFormed) : ∀ (r : Request ε) {tree : Tree},
    (r.query l lifetime).construct consult = .ok tree → r.StoredAlike l →
      tree.Lowerable l ∧ ∀ ks, l.Agrees ks → ∀ id,
        (tree.Denotes l ks id ↔ r.Describes l ks consult id)
  | .all steps, tree, h, halike => by
    unfold query Query.ofLayout at h
    rw [QueryStep.applyAll_plain] at h
    unfold Query.construct at h
    obtain ⟨-, -, h⟩ := bind_ok_iff.mp h
    obtain ⟨hlowerable, hdenotes⟩ :=
      QueryTerms.tree_ok hwell (follows_all steps) halike (by simp) h
    refine ⟨hlowerable, fun ks hks id => ?_⟩
    rw [hdenotes ks hks id, Option.or_none, hks.ids_iff]
    simp [Describes]
  | .combined how first others steps, tree, h, halike => by
    obtain ⟨⟨hfirst, hothers⟩, halike⟩ := halike
    unfold query Query.combine at h
    rw [QueryStep.applyAll_combined] at h
    unfold Query.construct at h
    obtain ⟨-, -, h⟩ := bind_ok_iff.mp h
    obtain ⟨trees, htrees, h⟩ := bind_ok_iff.mp h
    unfold Query.constructAll at htrees
    obtain ⟨-, -, htrees⟩ := bind_ok_iff.mp htrees
    obtain ⟨node, hnode, htrees⟩ := bind_ok_iff.mp htrees
    obtain ⟨rest, hrest, htrees⟩ := bind_ok_iff.mp htrees
    cases htrees
    have hfollows := follows_combined l lifetime first steps
    obtain ⟨hnode, hfirst⟩ := tree_of_construct hwell first hnode hfirst
    obtain ⟨hrest, hothers⟩ := trees_of_constructAll hwell others hrest hothers
    have hgiven := QueryTerms.lowerable_combineTrees hfollows.layout how
      (List.forall_mem_cons.mpr ⟨hnode, hrest⟩)
    obtain ⟨hlowerable, hdenotes⟩ := QueryTerms.tree_ok hwell hfollows halike
      (List.forall_mem_singleton.mpr hgiven) h
    refine ⟨hlowerable, fun ks hks id => ?_⟩
    rw [hdenotes ks hks id, List.forall_mem_singleton, QueryTerms.denotes_combineTrees hks]
    cases how with
    | union => exact and_congr_left' (or_congr (hfirst ks hks id) (hothers ks hks id).1)
    | intersect => exact and_congr_left' (and_congr (hfirst ks hks id) (hothers ks hks id).2)

/-- The trees of requests that are constructed denote what the requests describe. -/
theorem trees_of_constructAll (hwell : l.WellFormed) {t : QueryTerms ε} :
    ∀ (rs : List (Request ε)) {trees : List Tree},
      Query.constructAll consult t (queries l lifetime rs) = .ok trees → StoredAlikeAll l rs →
        (∀ node ∈ trees, node.Lowerable l) ∧ ∀ ks, l.Agrees ks → ∀ id,
          ((∃ node ∈ trees, node.Denotes l ks id) ↔ DescribesAny l ks consult id rs) ∧
            ((∀ node ∈ trees, node.Denotes l ks id) ↔ DescribesAll l ks consult id rs)
  | [], trees, h, _ => by
    cases h
    simp [DescribesAny, DescribesAll]
  | r :: rest, trees, h, halike => by
    unfold queries Query.constructAll at h
    obtain ⟨-, -, h⟩ := bind_ok_iff.mp h
    obtain ⟨node, hnode, h⟩ := bind_ok_iff.mp h
    obtain ⟨others, hothers, h⟩ := bind_ok_iff.mp h
    cases h
    obtain ⟨hnode, hfirst⟩ := tree_of_construct hwell r hnode halike.1
    obtain ⟨hothers, hrest⟩ := trees_of_constructAll hwell rest hothers halike.2
    refine ⟨List.forall_mem_cons.mpr ⟨hnode, hothers⟩, fun ks hks id => ⟨?_, ?_⟩⟩
    · rw [List.exists_mem_cons_iff, hfirst ks hks id, (hrest ks hks id).1]
      rfl
    · rw [List.forall_mem_cons, hfirst ks hks id, (hrest ks hks id).2]
      rfl

end

end Request

end KeyedRecords
