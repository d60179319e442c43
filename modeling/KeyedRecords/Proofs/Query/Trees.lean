import KeyedRecords.Proofs.Query.Denotation
import KeyedRecords.Proofs.Result
import KeyedRecords.Query.Lowering

/-!
# Trees that simplify while they are built

The constructors that simplify denote what the plain ones would: what is left out denotes nothing,
and one operand alone is its own union or intersection. They also keep trees in the form that can be
lowered (`Tree.Lowerable`): over one model, over fields that can be asked for, and with two operands
at least to every difference.
-/

namespace KeyedRecords

namespace Tree

variable {l : Layout} {ks : Keyspace} {o : Origin} {id : String} {trees : List Tree} {tree : Tree}

section Denotation

/-- What is plainly empty denotes nothing. -/
theorem not_denotes_of_isEmpty (h : tree.isEmpty = true) : ¬tree.Denotes l ks id := by
  cases tree with
  | empty o => exact fun hid => hid
  | _ => cases h

theorem denotes_selection (field : String) (values : List Value) :
    (selection o field values).Denotes l ks id ↔ l.Selects ks field values id := by
  unfold selection
  split
  next hempty =>
    obtain rfl : values = [] := List.isEmpty_iff.mp hempty
    refine ⟨fun h => h.elim, ?_⟩
    rintro ⟨f, -, raw, hraw, -⟩
    cases hraw
  next => exact .rfl

/-- Leaving out what is plainly empty changes nothing in a union. -/
theorem exists_filter_denotes :
    (∃ node ∈ trees.filter (!·.isEmpty), node.Denotes l ks id) ↔
      ∃ node ∈ trees, node.Denotes l ks id := by
  constructor
  · rintro ⟨node, hnode, hid⟩
    exact ⟨node, (List.mem_filter.mp hnode).1, hid⟩
  · rintro ⟨node, hnode, hid⟩
    refine ⟨node, List.mem_filter.mpr ⟨hnode, ?_⟩, hid⟩
    cases hempty : node.isEmpty with
    | false => rfl
    | true => exact absurd hid (not_denotes_of_isEmpty hempty)

theorem denotes_unionOf :
    (unionOf o trees).Denotes l ks id ↔ ∃ node ∈ trees, node.Denotes l ks id := by
  rw [← exists_filter_denotes]
  unfold unionOf
  split
  next hnone => simp [hnone, Denotes]
  next only honly => simp [honly]
  next => exact denotesAny_iff

theorem denotes_differenceOf {head : Tree} :
    (differenceOf head trees).Denotes l ks id ↔
      head.Denotes l ks id ∧ ¬∃ node ∈ trees, node.Denotes l ks id := by
  rw [← exists_filter_denotes]
  unfold differenceOf
  split
  next hempty =>
    have hnone : ¬head.Denotes l ks id := not_denotes_of_isEmpty hempty
    exact ⟨fun h => absurd h hnone, fun h => absurd h.1 hnone⟩
  next =>
    split
    next hnone => simp [hnone]
    next => exact and_congr_right fun _ => not_congr denotesAny_iff

/-- If every tree denotes ids of the model only, so does their intersection, also without any. -/
theorem denotes_intersection (hids : ∀ node ∈ trees, node.Denotes l ks id → ks.Has l.keys.ids id) :
    (intersection o trees).Denotes l ks id ↔
      ks.Has l.keys.ids id ∧ ∀ node ∈ trees, node.Denotes l ks id := by
  unfold intersection
  split
  next hempty =>
    obtain ⟨node, hnode, hempty⟩ := List.any_eq_true.mp hempty
    refine ⟨fun h => h.elim, fun h => ?_⟩
    exact absurd (h.2 node hnode) (not_denotes_of_isEmpty hempty)
  next =>
    match trees with
    | [] => simp [Denotes]
    -- one tree alone stands for the intersection, since its ids are ids of the model
    | [only] =>
      simp only [List.forall_mem_singleton] at hids ⊢
      exact ⟨fun h => ⟨hids h, h⟩, And.right⟩
    | first :: second :: rest =>
      have hall : (Tree.intersect o (first :: second :: rest)).Denotes l ks id ↔
          ∀ node ∈ first :: second :: rest, node.Denotes l ks id := denotesAll_iff
      refine hall.trans ⟨fun h => ⟨?_, h⟩, And.right⟩
      exact hids first List.mem_cons_self (h first List.mem_cons_self)

end Denotation

section Lowerable

mutual

/-- A tree is over one model, over fields that can be asked for, and with two operands at least to
every difference. -/
def Lowerable (l : Layout) : Tree → Prop
  | .empty o => o.layout = l
  | .select o field _ => o.layout = l ∧ ∃ f, l.queryableField field = .ok f
  | .union o operands => o.layout = l ∧ LowerableAll l operands
  | .intersect o operands => o.layout = l ∧ LowerableAll l operands
  | .difference o operands => (o.layout = l ∧ 2 ≤ operands.length) ∧ LowerableAll l operands

/-- All trees of a list are in the form that can be lowered. -/
def LowerableAll (l : Layout) : List Tree → Prop
  | [] => True
  | node :: rest => Lowerable l node ∧ LowerableAll l rest

end

theorem lowerableAll_iff : LowerableAll l trees ↔ ∀ node ∈ trees, node.Lowerable l := by
  induction trees with
  | nil => simp [LowerableAll]
  | cons node rest ih => simp [LowerableAll, ih]

theorem Lowerable.origin (h : tree.Lowerable l) : tree.origin.layout = l := by
  cases tree with
  | empty o => exact h
  | difference o operands => exact h.1.1
  | _ => exact h.1

theorem lowerable_selection {field : String} {f : Field} (ho : o.layout = l)
    (hf : l.queryableField field = .ok f) (values : List Value) :
    (selection o field values).Lowerable l := by
  unfold selection
  split
  · exact ho
  · exact ⟨ho, f, hf⟩

theorem lowerable_unionOf (ho : o.layout = l) (h : ∀ node ∈ trees, node.Lowerable l) :
    (unionOf o trees).Lowerable l := by
  have hfilter : ∀ node ∈ trees.filter (!·.isEmpty), node.Lowerable l :=
    fun node hnode => h node (List.mem_filter.mp hnode).1
  unfold unionOf
  split
  next => exact ho
  next only honly => exact hfilter only (by simp [honly])
  next => exact ⟨ho, lowerableAll_iff.mpr hfilter⟩

theorem lowerable_intersection (ho : o.layout = l) (h : ∀ node ∈ trees, node.Lowerable l) :
    (intersection o trees).Lowerable l := by
  unfold intersection
  split
  next => exact ho
  next =>
    match trees with
    | [only] => exact h only (List.mem_singleton_self only)
    | [] => exact ⟨ho, trivial⟩
    | first :: second :: rest => exact ⟨ho, lowerableAll_iff.mpr h⟩

theorem lowerable_differenceOf {head : Tree} (hhead : head.Lowerable l)
    (h : ∀ node ∈ trees, node.Lowerable l) : (differenceOf head trees).Lowerable l := by
  have hfilter : ∀ node ∈ trees.filter (!·.isEmpty), node.Lowerable l :=
    fun node hnode => h node (List.mem_filter.mp hnode).1
  unfold differenceOf
  split
  · exact hhead
  · split
    next => exact hhead
    next tails hnil =>
      -- the head and what is left of the trees are two operands at least
      have hlength : trees.filter (!·.isEmpty) ≠ [] := fun heq => hnil heq
      refine ⟨⟨hhead.origin, ?_⟩, hhead, lowerableAll_iff.mpr hfilter⟩
      have hpos := List.length_pos_iff.mpr hlength
      rw [List.length_cons]
      omega

end Lowerable

end Tree

namespace Lowering

variable {t : Target}

theorem checkOrigin_ok {o : Origin} (h : o.layout = t.layout) : checkOrigin t o = .ok () := by
  unfold checkOrigin
  rw [h, if_pos rfl]

theorem exists_selection (t : Target) (n : Nat) {field : String} (values : List Value) {f : Field}
    (h : t.layout.queryableField field = .ok f) :
    ∃ found, selection t n field values = .ok found := by
  unfold selection
  rw [h]
  simp only [bind, Except.bind]
  split
  · exact ⟨_, rfl⟩
  · split
    · exact ⟨_, rfl⟩
    · split <;> exact ⟨_, rfl⟩

mutual

/-- A tree in the form that can be lowered has a fragment. -/
theorem exists_lowerNode : ∀ {n : Nat} {node : Tree}, node.Lowerable t.layout →
    ∃ found, lowerNode t n node = .ok found
  | _, .empty _, h => exists_bind_ok (checkOrigin_ok h) ⟨_, rfl⟩
  | n, .select _ field values, h => by
    obtain ⟨ho, f, hf⟩ := h
    exact exists_bind_ok (checkOrigin_ok ho) (exists_selection t n values hf)
  | _, .union _ operands, h => by
    obtain ⟨parts, hparts⟩ := exists_lowerEach h.2
    exact exists_bind_ok (checkOrigin_ok h.1) (exists_bind_ok hparts ⟨_, rfl⟩)
  | _, .intersect _ [], h => exists_bind_ok (checkOrigin_ok h.1) ⟨_, rfl⟩
  | _, .intersect _ (first :: rest), h => by
    obtain ⟨result, hresult⟩ := exists_lowerWhile h.2
    exact exists_bind_ok (checkOrigin_ok h.1) (exists_bind_ok hresult ⟨_, rfl⟩)
  | n, .difference _ (head :: second :: rest), h => by
    obtain ⟨⟨ho, -⟩, hhead, hrest⟩ := h
    obtain ⟨first, hfirst⟩ := exists_lowerNode (n := n) hhead
    refine exists_bind_ok (checkOrigin_ok ho) (exists_bind_ok hfirst ?_)
    cases hsource : first.source with
    | none => exact ⟨_, rfl⟩
    | some key =>
      obtain ⟨others, hothers⟩ := exists_lowerEach (n := n + first.temporaries.length) hrest
      exact exists_bind_ok hothers ⟨_, rfl⟩
  -- a difference has two operands at least
  | _, .difference _ [], h => absurd h.1.2 (by simp)
  | _, .difference _ [_], h => absurd h.1.2 (by simp)

/-- Trees in the form that can be lowered have fragments. -/
theorem exists_lowerEach : ∀ {n : Nat} {nodes : List Tree}, Tree.LowerableAll t.layout nodes →
    ∃ parts, lowerEach t n nodes = .ok parts
  | _, [], _ => ⟨_, rfl⟩
  | n, node :: rest, h => by
    obtain ⟨first, hfirst⟩ := exists_lowerNode (n := n) h.1
    obtain ⟨others, hothers⟩ := exists_lowerEach (n := n + first.temporaries.length) h.2
    exact exists_bind_ok hfirst (exists_bind_ok hothers ⟨_, rfl⟩)

/-- Trees in the form that can be lowered have fragments up to the first that matches nothing. -/
theorem exists_lowerWhile : ∀ {n : Nat} {nodes : List Tree}, Tree.LowerableAll t.layout nodes →
    ∃ result, lowerWhile t n nodes = .ok result
  | _, [], _ => ⟨_, rfl⟩
  | n, node :: rest, h => by
    obtain ⟨first, hfirst⟩ := exists_lowerNode (n := n) h.1
    refine exists_bind_ok hfirst ?_
    cases hsource : first.source with
    | none => exact ⟨_, rfl⟩
    | some key =>
      obtain ⟨others, hothers⟩ := exists_lowerWhile (n := n + first.temporaries.length) h.2
      exact exists_bind_ok hothers ⟨_, rfl⟩

end

/-- A fragment has a plan in every order that the model allows. -/
theorem exists_sortedPlan {order : SortOrder} (h : t.layout.checkOrdering order = .ok ()) (n : Nat)
    (found : Fragment) (key : String) : ∃ plan, sortedPlan t n found key order = .ok plan := by
  refine exists_bind_ok h ?_
  -- an order that is allowed is by a field of the model
  obtain ⟨f, hf⟩ : ∃ f, t.layout.field? order.field = some f := by
    unfold Layout.checkOrdering at h
    split at h
    next f hf => exact ⟨f, hf⟩
    next => cases h
  split
  next => exact ⟨_, rfl⟩
  next =>
    simp only [hf]
    exact ⟨_, rfl⟩

end Lowering

/-- A tree in the form that can be lowered has a plan in every order that the model allows. -/
theorem Tree.exists_lower_sorted {tree : Tree} {l : Layout} {sort : Option SortOrder}
    (h : tree.Lowerable l) (hsort : ∀ order ∈ sort, l.checkOrdering order = .ok ())
    (lifetime n : Nat) : ∃ plan, tree.lower sort lifetime n = .ok plan := by
  obtain rfl := h.origin
  obtain ⟨found, hfound⟩ :=
    Lowering.exists_lowerNode (t := ⟨tree.origin.layout, lifetime⟩) (n := n) h
  refine exists_bind_ok hfound ?_
  split
  next key order _ => exact Lowering.exists_sortedPlan (hsort order rfl) n found key
  next => exact ⟨_, rfl⟩

/-- It has a plan in storage order. -/
theorem Tree.exists_lower {tree : Tree} {l : Layout} (h : tree.Lowerable l) (lifetime n : Nat) :
    ∃ plan, tree.lower none lifetime n = .ok plan :=
  Tree.exists_lower_sorted h (by simp) lifetime n

end KeyedRecords
