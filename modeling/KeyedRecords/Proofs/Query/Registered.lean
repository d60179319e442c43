import KeyedRecords.Proofs.Model.Catalog
import KeyedRecords.Proofs.Query.Construction

/-!
# Queries over registered models

If no two of the models that the parts of a query are over share keys, then its tree can be lowered
(`Query.Within.lowerable_of_construct`): operands over other models are refused when it is
constructed, and so are fields that cannot be asked for. The models of one catalog are such a family
(`Query.lowerable_of_construct`), and so are the layouts that one declaration has in different
namespaces.
-/

namespace KeyedRecords

namespace QueryTerms

variable {ε : Type} {consult : Consult ε} {t : QueryTerms ε} {criteria : Criteria}
  {trees given : List Tree} {tree : Tree}

/-- Criteria select by fields that can be asked for. -/
theorem lowerable_selections (h : t.selections criteria = .ok trees) :
    ∀ node ∈ trees, node.Lowerable t.layout := by
  obtain ⟨grouped, hgrouped, rfl⟩ := map_ok_iff.mp h
  obtain ⟨hby, hfields⟩ := Criteria.group_ok .nil hgrouped
  rw [List.nil_append] at hby
  rw [List.forall_mem_map]
  intro e he
  obtain ⟨f, hf⟩ := hfields e.1 ((hby.keys e.1).mp (List.mem_map_of_mem he))
  exact Tree.lowerable_selection (o := t.origin) rfl hf e.2

/-- What an engine finds is selected by the identity. -/
theorem lowerable_searchSelection (hwell : t.layout.WellFormed)
    (h : t.searchSelection consult = .ok trees) : ∀ node ∈ trees, node.Lowerable t.layout := by
  unfold searchSelection at h
  split at h
  next =>
    cases h
    exact fun node hnode => nomatch hnode
  next =>
    split at h
    next => cases h
    next =>
      obtain ⟨found, -, h⟩ := bind_ok_iff.mp h
      cases h
      rw [List.forall_mem_singleton]
      exact Tree.lowerable_selection (o := t.origin) rfl hwell.queryableField_identity _

/-- The tree of criteria can be lowered if what it narrows can. -/
theorem lowerable_tree (hwell : t.layout.WellFormed)
    (hgiven : ∀ node ∈ given, node.Lowerable t.layout) (h : t.tree consult given = .ok tree) :
    tree.Lowerable t.layout := by
  obtain ⟨kept, hkept, h⟩ := bind_ok_iff.mp h
  obtain ⟨found, hfound, h⟩ := bind_ok_iff.mp h
  obtain ⟨dropped, hdropped, h⟩ := bind_ok_iff.mp h
  cases h
  refine Tree.lowerable_differenceOf (Tree.lowerable_intersection rfl fun node hnode => ?_)
    (lowerable_selections hdropped)
  rw [List.mem_append, List.mem_append] at hnode
  obtain (hnode | hnode) | hnode := hnode
  · exact hgiven node hnode
  · exact lowerable_selections hkept node hnode
  · exact lowerable_searchSelection hwell hfound node hnode

/-- A combination of trees can be lowered if they can. -/
theorem lowerable_combineTrees_of_forall (how : Compound)
    (h : ∀ node ∈ trees, node.Lowerable t.layout) :
    (t.combineTrees how trees).Lowerable t.layout := by
  cases how with
  | union => exact Tree.lowerable_unionOf rfl h
  | intersect => exact Tree.lowerable_intersection rfl h

end QueryTerms

/-- Models that are declared well, no two of which share keys. -/
structure Layout.Family (P : Layout → Prop) : Prop where
  wellFormed : ∀ {l}, P l → l.WellFormed
  eq_of_keys_eq : ∀ {l l'}, P l → P l' → l.keys = l'.keys → l = l'

/-- The models of one catalog. -/
theorem Catalog.Registered.family {c : Catalog} (hc : c.Registered) :
    Layout.Family (· ∈ c.layouts) where
  wellFormed := hc.wellFormed
  eq_of_keys_eq := hc.eq_of_keys_eq

/-- The layouts that one declaration has in different namespaces. -/
theorem Schema.family (s : Schema) : Layout.Family fun l => ∃ space, s.layout space = .ok l where
  wellFormed := by
    rintro l ⟨space, hl⟩
    exact layout_wellFormed hl
  eq_of_keys_eq := by
    rintro l l' ⟨space, hl⟩ ⟨space', hl'⟩ hkeys
    -- the keys tell the namespace, since the name is the same
    rw [(layout_ok hl).keys, (layout_ok hl').keys, ModelKeys.ofModel, ModelKeys.ofModel,
      ModelKeys.mk.injEq] at hkeys
    obtain rfl : space = space' := by
      have hlists := congrArg String.toList hkeys
      rw [String.toList_append, String.toList_append, List.append_cancel_right_eq] at hlists
      exact String.toList_inj.mp hlists
    exact Except.ok.inj (hl.symm.trans hl')

namespace Query

variable {ε : Type} {consult : Consult ε} {c : Catalog} {P : Layout → Prop}

mutual

/-- All parts of a query are over registered models. -/
def Over (c : Catalog) : Query ε → Prop
  | .plain t => t.layout ∈ c.layouts
  | .combined _ operands t => t.layout ∈ c.layouts ∧ OverAll c operands

/-- All parts of queries are over registered models. -/
def OverAll (c : Catalog) : List (Query ε) → Prop
  | [] => True
  | q :: rest => Over c q ∧ OverAll c rest

end

/-- A query over registered models is over one of them. -/
theorem Over.layout_mem {q : Query ε} (h : q.Over c) : q.layout ∈ c.layouts := by
  cases q with
  | plain t => exact h
  | combined how operands t => exact h.1

mutual

/-- The models of all parts of a query have a property. -/
def Within (P : Layout → Prop) : Query ε → Prop
  | .plain t => P t.layout
  | .combined _ operands t => P t.layout ∧ WithinAll P operands

/-- The models of all parts of queries have a property. -/
def WithinAll (P : Layout → Prop) : List (Query ε) → Prop
  | [] => True
  | q :: rest => Within P q ∧ WithinAll P rest

end

theorem Within.layout {q : Query ε} (h : q.Within P) : P q.layout := by
  cases q with
  | plain t => exact h
  | combined how operands t => exact h.1

theorem withinAll_iff {qs : List (Query ε)} : WithinAll P qs ↔ ∀ q ∈ qs, q.Within P := by
  induction qs with
  | nil => simp [WithinAll]
  | cons q rest ih => simp [WithinAll, ih]

mutual

/-- Queries over registered models are within these. -/
theorem Over.within : ∀ {q : Query ε}, q.Over c → q.Within (· ∈ c.layouts)
  | .plain _, h => h
  | .combined _ _ _, h => ⟨h.1, OverAll.within h.2⟩

theorem OverAll.within : ∀ {qs : List (Query ε)}, OverAll c qs → WithinAll (· ∈ c.layouts) qs
  | [], _ => trivial
  | _ :: _, h => ⟨Over.within h.1, OverAll.within h.2⟩

end

mutual

/-- The tree of a query within a family of models can be lowered. -/
theorem Within.lowerable_of_construct (hP : Layout.Family P) : ∀ {q : Query ε} {tree : Tree},
    q.Within P → q.construct consult = .ok tree → tree.Lowerable q.layout
  | .plain t, tree, hwithin, h => by
    unfold construct at h
    obtain ⟨-, -, h⟩ := bind_ok_iff.mp h
    exact QueryTerms.lowerable_tree (hP.wellFormed hwithin) (by simp) h
  | .combined how operands t, tree, hwithin, h => by
    unfold construct at h
    obtain ⟨-, -, h⟩ := bind_ok_iff.mp h
    obtain ⟨trees, htrees, h⟩ := bind_ok_iff.mp h
    refine QueryTerms.lowerable_tree (hP.wellFormed hwithin.1) ?_ h
    rw [List.forall_mem_singleton]
    exact QueryTerms.lowerable_combineTrees_of_forall how
      (WithinAll.lowerable_of_constructAll hP hwithin.1 hwithin.2 htrees)

/-- The trees of operands within a family of models can be lowered for the combination. -/
theorem WithinAll.lowerable_of_constructAll (hP : Layout.Family P) {t : QueryTerms ε}
    (ht : P t.layout) : ∀ {qs : List (Query ε)} {trees : List Tree}, WithinAll P qs →
      constructAll consult t qs = .ok trees → ∀ node ∈ trees, node.Lowerable t.layout
  | [], trees, _, h => by
    cases h
    exact fun node hnode => nomatch hnode
  | q :: rest, trees, hwithin, h => by
    unfold constructAll at h
    obtain ⟨⟨⟩, hoperand, h⟩ := bind_ok_iff.mp h
    obtain ⟨first, hfirst, h⟩ := bind_ok_iff.mp h
    obtain ⟨others, hothers, h⟩ := bind_ok_iff.mp h
    cases h
    -- an operand over another model would have been refused
    have hkeys : q.layout.keys = t.layout.keys := by
      unfold QueryTerms.checkOperand at hoperand
      split at hoperand
      next hkeys => exact hkeys
      next => cases hoperand
    have hlayout := hP.eq_of_keys_eq hwithin.1.layout ht hkeys
    refine List.forall_mem_cons.mpr
      ⟨?_, WithinAll.lowerable_of_constructAll hP ht hwithin.2 hothers⟩
    rw [← hlayout]
    exact Within.lowerable_of_construct hP hwithin.1 hfirst

end

/-- The tree of a query over registered models can be lowered. -/
theorem lowerable_of_construct (hc : c.Registered) {q : Query ε} {tree : Tree} (hover : q.Over c)
    (h : q.construct consult = .ok tree) : tree.Lowerable q.layout :=
  hover.within.lowerable_of_construct hc.family h

end Query

end KeyedRecords
