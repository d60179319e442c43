import KeyedRecords.Proofs.Query.Answers
import KeyedRecords.Proofs.Query.Registered

/-!
# Errors of usage are found at construction

A query that can be constructed can be lowered, in its order and whatever the lifetime of temporary
keys (`Query.Built.plan_of_construct`): construction has refused every field, order and operand that
lowering would refuse, and makes no tree of another form. The queries are all those that the
operations of the builder make of one declared model (`Query.Built`), such as a catalog has it
(`Catalog.Registered.exists_schema`). Operands may be asked for in other namespaces: at construction
the keys tell these apart.
-/

namespace KeyedRecords

namespace Query

variable {ε : Type} {consult : Consult ε} {s : Schema} {P : Layout → Prop} {q : Query ε}

/-- A query made by the operations of the builder, in any nesting, over a model that is declared
well. Single values are lists of one. -/
inductive Built (s : Schema) : Query ε → Prop
  | ofLayout {space : String} {l : Layout} (hl : s.layout space = .ok l) (lifetime : Nat) :
      Built s (.ofLayout l lifetime)
  | withSession {q : Query ε} (hq : Built s q) (session : SessionId) :
      Built s (q.withSession session)
  | filterIn {q : Query ε} (hq : Built s q) (key : String) (values : List Value) :
      Built s (q.filterIn key values)
  | excludeIn {q : Query ε} (hq : Built s q) (key : String) (values : List Value) :
      Built s (q.excludeIn key values)
  | sortBy {q : Query ε} (hq : Built s q) (ordering : String) : Built s (q.sortBy ordering)
  | getField {q : Query ε} (hq : Built s q) (field : String) : Built s (q.getField field)
  | loadOnly {q : Query ε} (hq : Built s q) (fields : List String) : Built s (q.loadOnly fields)
  | search {q : Query ε} (hq : Built s q) (text : String) : Built s (q.search text)
  | withEngine {q : Query ε} (hq : Built s q) (engine : ε) : Built s (q.withEngine engine)
  | combine {q : Query ε} (how : Compound) (hq : Built s q) {others : List (Query ε)}
      (hothers : ∀ r ∈ others, Built s r) : Built s (q.combine how others)

/-- What is said of a query besides its model may change. -/
theorem Within.mapTerms {f : QueryTerms ε → QueryTerms ε} (h : q.Within P)
    (hf : ∀ t, (f t).layout = t.layout) : (q.mapTerms f).Within P := by
  cases q with
  | plain t =>
    show P (f t).layout
    rwa [hf]
  | combined how operands t =>
    show P (f t).layout ∧ WithinAll P operands
    rwa [hf]

/-- All parts of a query that was built are over its model, in some namespace. -/
theorem Built.within (hq : q.Built s) : q.Within fun l => ∃ space, s.layout space = .ok l := by
  induction hq with
  | ofLayout hl lifetime => exact ⟨_, hl⟩
  | combine how _ _ ih ihothers =>
    exact ⟨ih.layout, withinAll_iff.mpr (List.forall_mem_cons.mpr ⟨ih, ihothers⟩)⟩
  -- the other operations keep the operands, and the model
  | _ => exact Within.mapTerms (by assumption) fun _ => rfl

/-- An order is checked at construction. -/
theorem checkOrdering_of_construct {tree : Tree} (h : q.construct consult = .ok tree) :
    ∀ order ∈ q.terms.ordering.map SortOrder.read, q.layout.checkOrdering order = .ok () := by
  -- what is said of the query itself is checked first, whether it has operands or not
  have hcheck : q.terms.check = .ok () := by
    cases q with
    | plain t => exact (bind_ok_iff.mp h).choose_spec.1
    | combined how operands t => exact (bind_ok_iff.mp h).choose_spec.1
  intro order horder
  obtain ⟨spec, hspec, rfl⟩ := Option.map_eq_some_iff.mp horder
  unfold QueryTerms.check at hcheck
  rw [hspec] at hcheck
  obtain ⟨⟨⟩, hordering, -⟩ := bind_ok_iff.mp hcheck
  exact hordering

/-- If a query can be constructed, then its tree has a plan in its order. -/
theorem Built.plan_of_construct (hq : q.Built s) {tree : Tree} (h : q.construct consult = .ok tree)
    (lifetime n : Nat) :
    ∃ plan, tree.lower (q.terms.ordering.map SortOrder.read) lifetime n = .ok plan := by
  have hlowerable := hq.within.lowerable_of_construct s.family h
  exact Tree.exists_lower_sorted hlowerable (checkOrdering_of_construct h) lifetime n

open Request in
/-- Documents about stars that an engine finds or that are flagged, without some of them, from the
greatest on. -/
theorem Built.plan_of_construct_stars :
    ∃ (q : Query Unit) (tree : Tree) (plan : Plan), q.Built Sample.starDoc.schema ∧
      q.construct (fun _ _ text => .ok [text]) = .ok tree ∧
      tree.lower (q.terms.ordering.map SortOrder.read) 60 1 = .ok plan := by
  let all : Query Unit := .ofLayout starLayout 60
  let flagged := all.filterIn "flag" [.bool true]
  let found := (all.withEngine ()).search "b"
  let q := ((found.union [flagged]).excludeIn "weight__in" [.float .zero]).sortBy "-size"
  have hall : all.Built Sample.starDoc.schema := .ofLayout layout_starDoc 60
  have hflagged : ∀ r ∈ [flagged], r.Built Sample.starDoc.schema :=
    List.forall_mem_singleton.mpr (hall.filterIn "flag" [.bool true])
  have hunion := ((hall.withEngine ()).search "b").combine .union hflagged
  have hbuilt : q.Built Sample.starDoc.schema := (hunion.excludeIn _ _).sortBy "-size"
  obtain ⟨tree, htree⟩ : ∃ tree, q.construct (fun _ _ text => .ok [text]) = .ok tree := ⟨_, rfl⟩
  obtain ⟨plan, hplan⟩ := hbuilt.plan_of_construct htree 60 1
  exact ⟨q, tree, plan, hbuilt, htree, hplan⟩

end Query

end KeyedRecords
