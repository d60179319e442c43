import KeyedRecords.Proofs.Query.Plans
import KeyedRecords.Proofs.Store.Renaming

/-!
# Plans under other names

The numbers of its temporary keys make no difference to a tree: lowered with other numbers, its
commands do the same to the other keys of the model and answer the same
(`Lowering.lowerNode_renamed`). So does its plan, with whatever order (`Tree.plan_renamed`).
-/

namespace KeyedRecords

open Keyspace

section Commands

variable {ρ : Renaming} {dest dest' : String} {keys keys' : List String}
  (hdest : ρ.Pairs dest dest')
include hdest

theorem Command.renamed_expire (seconds : Nat) :
    Command.Renamed ρ (.expire dest seconds) (.expire dest' seconds) := by
  refine simulates_get_bind fun ks ks' h => ?_
  have hcontains : ks'.entries.contains dest' = ks.entries.contains dest := by
    rw [Std.ExtTreeMap.contains_eq_isSome_getElem?, Std.ExtTreeMap.contains_eq_isSome_getElem?,
      h.entries hdest]
  rw [hcontains, h.now]
  exact (simulates_set (h.expire hdest _)).bind fun _ => simulates_pure _

theorem Command.renamed_sadd (members : List String) :
    Command.Renamed ρ (.sadd dest members) (.sadd dest' members) :=
  (simulates_addMembers hdest members).map

theorem Command.renamed_resolveUnique {hash : String} (hhash : ρ.Pairs hash hash)
    (values : List String) {ids : Option String} (hids : ∀ key ∈ ids, ρ.Pairs key key) :
    Command.Renamed ρ (.eval (.resolveUnique hash values dest ids))
      (.eval (.resolveUnique hash values dest' ids)) :=
  (simulates_resolveUnique hdest hhash values hids).map

theorem Command.renamed_sort {key key' : String} (hkey : ρ.Pairs key key')
    {pattern? : Option String}
    (hpattern : ∀ pattern ∈ pattern?, ∀ member,
      ρ.Pairs (patternKey pattern member) (patternKey pattern member))
    (descending alpha : Bool) :
    Command.Renamed ρ (.sort key pattern? descending alpha (some dest))
      (.sort key' pattern? descending alpha (some dest')) :=
  (simulates_read fun _ _ h => sorted_congr (h.data? hkey)
    (fun pattern hpat member => h.data? (hpattern pattern hpat member)) _ _).bind
    fun _ => (simulates_store hdest _ _).map

variable (hkeys : List.Forall₂ ρ.Pairs keys keys')
include hkeys

theorem Command.renamed_sinterstore :
    Command.Renamed ρ (.sinterstore dest keys) (.sinterstore dest' keys') :=
  (simulates_storeSets hdest hkeys _).map

theorem Command.renamed_sunionstore :
    Command.Renamed ρ (.sunionstore dest keys) (.sunionstore dest' keys') :=
  (simulates_storeSets hdest hkeys _).map

theorem Command.renamed_sdiffstore :
    Command.Renamed ρ (.sdiffstore dest keys) (.sdiffstore dest' keys') :=
  (simulates_storeSets hdest hkeys _).map

theorem Command.renamed_zinterstore (weights : Option (List Double)) (aggregate : Aggregate) :
    Command.Renamed ρ (.zinterstore dest keys weights aggregate)
      (.zinterstore dest' keys' weights aggregate) :=
  (simulates_storeSorted hdest hkeys weights _).map

theorem Command.renamed_zunionstore (weights : Option (List Double)) (aggregate : Aggregate) :
    Command.Renamed ρ (.zunionstore dest keys weights aggregate)
      (.zunionstore dest' keys' weights aggregate) :=
  (simulates_storeSorted hdest hkeys weights _).map

theorem Command.renamed_zdiffstore :
    Command.Renamed ρ (.zdiffstore dest keys) (.zdiffstore dest' keys') :=
  (simulates_storeSortedDiff hdest hkeys).map

end Commands

/-- A fragment does under some names what another one does under others. -/
structure Fragment.Renamed (ρ : Renaming) (found found' : Fragment) : Prop where
  source : List.Forall₂ ρ.Pairs found.source.toList found'.source.toList
  commands : List.Forall₂ (Command.Renamed ρ) found.commands found'.commands
  /-- Both create as many keys. -/
  count : found'.temporaries.length = found.temporaries.length

namespace Fragment.Renamed

variable {ρ : Renaming} {found found' : Fragment} (h : found.Renamed ρ found')
include h

theorem source_eq_none (hsource : found.source = none) : found'.source = none := by
  have hsources := h.source
  rw [hsource] at hsources
  exact Option.toList_eq_nil_iff.mp (List.forall₂_nil_left_iff.mp hsources)

theorem exists_source {key : String} (hsource : found.source = some key) :
    ∃ key', found'.source = some key' ∧ ρ.Pairs key key' := by
  have hsources := h.source
  rw [hsource] at hsources
  cases hsource' : found'.source with
  | none =>
    rw [hsource'] at hsources
    cases hsources
  | some key' =>
    rw [hsource'] at hsources
    exact ⟨key', rfl, (List.forall₂_cons.mp hsources).1⟩

end Fragment.Renamed

/-- So do the fragments of several nodes. -/
structure Fragments.Renamed (ρ : Renaming) (parts parts' : Fragments) : Prop where
  keys : List.Forall₂ ρ.Pairs parts.keys parts'.keys
  commands : List.Forall₂ (Command.Renamed ρ) parts.commands parts'.commands
  count : parts'.temporaries.length = parts.temporaries.length

namespace Fragments.Renamed

variable {ρ : Renaming} {parts parts' : Fragments} (h : parts.Renamed ρ parts')
include h

theorem nothing : parts.nothing.Renamed ρ parts'.nothing := ⟨.nil, h.commands, h.count⟩

theorem atKey {key key' : String} (hkey : ρ.Pairs key key') :
    (parts.atKey key).Renamed ρ (parts'.atKey key') :=
  ⟨.cons hkey .nil, h.commands, h.count⟩

end Fragments.Renamed

namespace Lowering

variable {ρ : Renaming} {t : Target} {n n' count : Nat}

/-- The temporary keys from one number on have the names of those from another one on. -/
def Target.Shifts (t : Target) (ρ : Renaming) (n n' count : Nat) : Prop :=
  ∀ i < count, ρ.Pairs (t.temporary (n + i)) (t.temporary (n' + i))

namespace Target.Shifts

variable {more : Nat}

theorem mono (h : t.Shifts ρ n n' more) (hle : count ≤ more) : t.Shifts ρ n n' count :=
  fun i hi => h i (Nat.lt_of_lt_of_le hi hle)

theorem left (h : t.Shifts ρ n n' (count + more)) : t.Shifts ρ n n' count :=
  h.mono (Nat.le_add_right ..)

theorem right (h : t.Shifts ρ n n' (count + more)) : t.Shifts ρ (n + count) (n' + count) more := by
  intro i hi
  rw [Nat.add_assoc, Nat.add_assoc]
  exact h (count + i) (by omega)

/-- A single key. -/
theorem single (h : t.Shifts ρ n n' 1) : ρ.Pairs (t.temporary n) (t.temporary n') := by
  simpa using h 0 Nat.one_pos

/-- The last of the keys. -/
theorem last (h : t.Shifts ρ n n' (count + 1)) :
    ρ.Pairs (t.temporary (n + count)) (t.temporary (n' + count)) :=
  h count (by omega)

end Target.Shifts

theorem renamed_empty : Fragments.Renamed ρ .empty .empty := ⟨.nil, .nil, rfl⟩

theorem renamed_cons {first first' : Fragment} {rest rest' : Fragments}
    (h : first.Renamed ρ first') (hrest : rest.Renamed ρ rest') :
    (Fragments.cons first rest).Renamed ρ (.cons first' rest') := by
  refine ⟨List.rel_append h.source hrest.keys, List.rel_append h.commands hrest.commands, ?_⟩
  simp only [Fragments.cons, List.length_append, h.count, hrest.count]

namespace Target

variable {parts parts' : Fragments}

/-- A command that creates a key does so under another name. -/
theorem create_renamed (h : parts.Renamed ρ parts') {dest dest' : String} {c c' : Command}
    (hdest : ρ.Pairs dest dest') (hc : c.Renamed ρ c') :
    (t.create parts dest c).Renamed ρ (t.create parts' dest' c') := by
  refine ⟨.cons hdest .nil, List.rel_append h.commands ?_, ?_⟩
  · exact .cons hc (.cons (Command.renamed_expire hdest t.lifetime) .nil)
  · simp only [create, List.length_append, h.count, List.length_singleton]

/-- The next free key behind fragments has the name of the next free one behind others. -/
theorem pairs_next (h : parts.Renamed ρ parts')
    (hshift : t.Shifts ρ n n' (parts.temporaries.length + 1)) :
    ρ.Pairs (t.temporary (n + parts.temporaries.length))
      (t.temporary (n' + parts'.temporaries.length)) := by
  rw [h.count]
  exact hshift.last

theorem length_le_unionOf (n : Nat) (parts : Fragments) :
    parts.temporaries.length ≤ (t.unionOf n parts).temporaries.length := by
  unfold unionOf
  split <;> simp [Fragments.nothing, Fragments.atKey, create]

theorem length_le_intersectionOf (n : Nat) (parts : Fragments) :
    parts.temporaries.length ≤ (t.intersectionOf n parts).temporaries.length := by
  unfold intersectionOf
  split <;> simp [Fragments.atKey, create]

theorem length_le_differenceOf (n : Nat) (parts : Fragments) :
    parts.temporaries.length ≤ (t.differenceOf n parts).temporaries.length := by
  unfold differenceOf
  split <;> simp [Fragments.atKey, create]

section Algebra

variable (h : parts.Renamed ρ parts')
include h

theorem unionOf_renamed (hshift : t.Shifts ρ n n' (t.unionOf n parts).temporaries.length) :
    (t.unionOf n parts).Renamed ρ (t.unionOf n' parts') := by
  obtain ⟨keys, commands, temporaries⟩ := parts
  obtain ⟨keys', commands', temporaries'⟩ := parts'
  have hkeys : List.Forall₂ ρ.Pairs keys keys' := h.keys
  cases hkeys with
  | nil => exact ⟨.nil, h.commands, h.count⟩
  | cons hkey hrest =>
    cases hrest with
    | nil => exact ⟨.cons hkey .nil, h.commands, h.count⟩
    | cons hsecond hmore =>
      have hdest := pairs_next h (by simpa [unionOf, create] using hshift)
      refine create_renamed h hdest ?_
      unfold unionCommand
      split
      · exact Command.renamed_zunionstore hdest h.keys _ _
      · exact Command.renamed_sunionstore hdest h.keys

theorem intersectionOf_renamed
    (hshift : t.Shifts ρ n n' (t.intersectionOf n parts).temporaries.length) :
    (t.intersectionOf n parts).Renamed ρ (t.intersectionOf n' parts') := by
  obtain ⟨keys, commands, temporaries⟩ := parts
  obtain ⟨keys', commands', temporaries'⟩ := parts'
  have hcommand : ∀ {dest dest'}, ρ.Pairs dest dest' →
      (t.intersectCommand dest keys).Renamed ρ (t.intersectCommand dest' keys') := by
    intro dest dest' hdest
    unfold intersectCommand
    split
    · exact Command.renamed_zinterstore hdest h.keys _ _
    · exact Command.renamed_sinterstore hdest h.keys
  have hkeys : List.Forall₂ ρ.Pairs keys keys' := h.keys
  cases hkeys with
  | nil =>
    have hdest := pairs_next h (by simpa [intersectionOf, create] using hshift)
    exact create_renamed h hdest (hcommand hdest)
  | cons hkey hrest =>
    cases hrest with
    | nil => exact ⟨.cons hkey .nil, h.commands, h.count⟩
    | cons hsecond hmore =>
      have hdest := pairs_next h (by simpa [intersectionOf, create] using hshift)
      exact create_renamed h hdest (hcommand hdest)

theorem differenceOf_renamed
    (hshift : t.Shifts ρ n n' (t.differenceOf n parts).temporaries.length) :
    (t.differenceOf n parts).Renamed ρ (t.differenceOf n' parts') := by
  obtain ⟨keys, commands, temporaries⟩ := parts
  obtain ⟨keys', commands', temporaries'⟩ := parts'
  have hcommand : ∀ {dest dest'}, ρ.Pairs dest dest' →
      (t.differenceCommand dest keys).Renamed ρ (t.differenceCommand dest' keys') := by
    intro dest dest' hdest
    unfold differenceCommand
    split
    · exact Command.renamed_zdiffstore hdest h.keys
    · exact Command.renamed_sdiffstore hdest h.keys
  have hkeys : List.Forall₂ ρ.Pairs keys keys' := h.keys
  cases hkeys with
  | nil =>
    have hdest := pairs_next h (by simpa [differenceOf, create] using hshift)
    exact create_renamed h hdest (hcommand hdest)
  | cons hkey hrest =>
    cases hrest with
    | nil => exact ⟨.cons hkey .nil, h.commands, h.count⟩
    | cons hsecond hmore =>
      have hdest := pairs_next h (by simpa [differenceOf, create] using hshift)
      exact create_renamed h hdest (hcommand hdest)

end Algebra

section Selections

variable (hρ : ρ.Fixes t.layout.keys)
include hρ

theorem idSelection_renamed (ids : List String) (hshift : t.Shifts ρ n n' 1) :
    (t.idSelection n ids).Renamed ρ (t.idSelection n' ids) := by
  have hdest := hshift.single
  have hgiven : Fragments.Renamed ρ ⟨[], [.sadd (t.temporary n) ids], []⟩
      ⟨[], [.sadd (t.temporary n') ids], []⟩ :=
    ⟨.nil, .cons (Command.renamed_sadd hdest ids) .nil, rfl⟩
  refine create_renamed hgiven hdest ?_
  split
  · exact Command.renamed_zinterstore hdest (.cons hρ.ids (.cons hdest .nil)) _ _
  · exact Command.renamed_sinterstore hdest (.cons hdest (.cons hρ.ids .nil))

theorem uniqueSelection_renamed (field : String) (values : List String)
    (hshift : t.Shifts ρ n n' 1) :
    (t.uniqueSelection n field values).Renamed ρ (t.uniqueSelection n' field values) := by
  have hdest := hshift.single
  unfold uniqueSelection
  refine create_renamed renamed_empty hdest ?_
  refine Command.renamed_resolveUnique hdest (hρ.unique field) values fun key hkey => ?_
  split at hkey
  · obtain rfl := Option.some.inj hkey
    exact hρ.ids
  · cases hkey

theorem indexSelection_renamed (field : String) (values : List String)
    (hshift : t.Shifts ρ n n' (t.indexSelection n field values).temporaries.length) :
    (t.indexSelection n field values).Renamed ρ (t.indexSelection n' field values) := by
  refine unionOf_renamed ⟨?_, .nil, rfl⟩ hshift
  rw [List.forall₂_map_left_iff, List.forall₂_map_right_iff, List.forall₂_same]
  exact fun value _ => hρ.index field value

end Selections

end Target

/-- A selection is lowered with other numbers too. -/
theorem selection_renamed (hρ : ρ.Fixes t.layout.keys) {field : String} {values : List Value}
    {found : Fragment} (h : selection t n field values = .ok found)
    (hshift : t.Shifts ρ n n' found.temporaries.length) :
    ∃ found', selection t n' field values = .ok found' ∧ found.Renamed ρ found' := by
  obtain ⟨f, hf, h⟩ := bind_ok_iff.mp h
  refine exists_bind_ok_and hf ?_
  cases hraw : distinct (values.filterMap f.kind.encode) with
  | nil =>
    rw [hraw] at h
    cases h
    exact ⟨_, rfl, .nil, .nil, rfl⟩
  | cons raw rest =>
    rw [hraw] at h
    simp only at h ⊢
    split at h
    next hprimary =>
      cases h
      exact ⟨_, if_pos hprimary, Target.idSelection_renamed hρ _ hshift⟩
    next hprimary =>
      split at h
      next hunique =>
        cases h
        exact ⟨_, (if_neg hprimary).trans (if_pos hunique),
          Target.uniqueSelection_renamed hρ _ _ hshift⟩
      next hunique =>
        cases h
        exact ⟨_, (if_neg hprimary).trans (if_neg hunique),
          Target.indexSelection_renamed hρ _ _ hshift⟩

mutual

/-- A node is lowered with other numbers too, and does the same under the other names. -/
theorem lowerNode_renamed (hρ : ρ.Fixes t.layout.keys) {found : Fragment} :
    ∀ {n n' : Nat} {node : Tree},
    lowerNode t n node = .ok found → t.Shifts ρ n n' found.temporaries.length →
    ∃ found', lowerNode t n' node = .ok found' ∧ found.Renamed ρ found'
  | _, _, .empty _, h => by
    intro _
    obtain ⟨_, ho, h⟩ := bind_ok_iff.mp h
    cases h
    exact exists_bind_ok_and ho ⟨_, rfl, renamed_empty.nothing⟩
  | _, _, .select _ _ _, h => by
    intro hshift
    obtain ⟨_, ho, h⟩ := bind_ok_iff.mp h
    exact exists_bind_ok_and ho (selection_renamed hρ h hshift)
  | _, _, .union _ operands, h => by
    intro hshift
    obtain ⟨_, ho, h⟩ := bind_ok_iff.mp h
    obtain ⟨parts, hparts, h⟩ := bind_ok_iff.mp h
    cases h
    obtain ⟨parts', hparts', hrenamed⟩ := lowerEach_renamed hρ hparts
      (hshift.mono (Target.length_le_unionOf ..))
    exact exists_bind_ok_and ho (exists_bind_ok_and hparts'
      ⟨_, rfl, Target.unionOf_renamed hrenamed hshift⟩)
  | _, _, .intersect _ [], h => by
    intro _
    obtain ⟨_, ho, h⟩ := bind_ok_iff.mp h
    cases h
    exact exists_bind_ok_and ho ⟨_, rfl, renamed_empty.atKey hρ.ids⟩
  | _, _, .intersect _ (first :: rest), h => by
    intro hshift
    obtain ⟨_, ho, h⟩ := bind_ok_iff.mp h
    obtain ⟨⟨parts, complete⟩, hparts, h⟩ := bind_ok_iff.mp h
    cases complete with
    | true =>
      cases h
      obtain ⟨parts', hparts', hrenamed⟩ :=
        lowerWhile_renamed hρ hparts (hshift.mono (Target.length_le_intersectionOf ..))
      exact exists_bind_ok_and ho (exists_bind_ok_and hparts'
        ⟨_, rfl, Target.intersectionOf_renamed hrenamed hshift⟩)
    | false =>
      cases h
      obtain ⟨parts', hparts', hrenamed⟩ := lowerWhile_renamed hρ hparts hshift
      exact exists_bind_ok_and ho (exists_bind_ok_and hparts' ⟨_, rfl, hrenamed.nothing⟩)
  | _, _, .difference _ (head :: second :: rest), h => by
    intro hshift
    obtain ⟨_, ho, h⟩ := bind_ok_iff.mp h
    obtain ⟨first, hfirst, h⟩ := bind_ok_iff.mp h
    cases hsource : first.source with
    | none =>
      simp only [hsource] at h
      cases h
      obtain ⟨first', hfirst', hrenamed⟩ := lowerNode_renamed hρ hfirst hshift
      refine exists_bind_ok_and ho (exists_bind_ok_and hfirst' ?_)
      rw [hrenamed.source_eq_none hsource]
      exact ⟨_, rfl, hrenamed⟩
    | some key =>
      simp only [hsource] at h
      obtain ⟨others, hothers, h⟩ := bind_ok_iff.mp h
      cases h
      have hshift' := hshift.mono (Target.length_le_differenceOf ..)
      simp only [Fragments.cons, List.length_append] at hshift'
      obtain ⟨first', hfirst', hrenamed⟩ := lowerNode_renamed hρ hfirst hshift'.left
      obtain ⟨others', hothers', hrest⟩ := lowerEach_renamed hρ hothers hshift'.right
      rw [← hrenamed.count] at hothers'
      obtain ⟨key', hsource', -⟩ := hrenamed.exists_source hsource
      refine exists_bind_ok_and ho (exists_bind_ok_and hfirst' ?_)
      rw [hsource']
      exact exists_bind_ok_and hothers' ⟨_, rfl,
        Target.differenceOf_renamed (renamed_cons hrenamed hrest) hshift⟩
  -- a difference of fewer than two trees is refused
  | _, _, .difference _ [], h => by
    intro _
    obtain ⟨-, -, h⟩ := bind_ok_iff.mp h
    cases h
  | _, _, .difference _ [_], h => by
    intro _
    obtain ⟨-, -, h⟩ := bind_ok_iff.mp h
    cases h

/-- So are nodes one behind the other. -/
theorem lowerEach_renamed (hρ : ρ.Fixes t.layout.keys) {parts : Fragments} :
    ∀ {n n' : Nat} {nodes : List Tree},
    lowerEach t n nodes = .ok parts → t.Shifts ρ n n' parts.temporaries.length →
    ∃ parts', lowerEach t n' nodes = .ok parts' ∧ parts.Renamed ρ parts'
  | _, _, [], h => by
    intro _
    cases h
    exact ⟨_, rfl, renamed_empty⟩
  | _, _, node :: rest, h => by
    intro hshift
    obtain ⟨first, hfirst, h⟩ := bind_ok_iff.mp h
    obtain ⟨others, hothers, h⟩ := bind_ok_iff.mp h
    cases h
    simp only [Fragments.cons, List.length_append] at hshift
    obtain ⟨first', hfirst', hrenamed⟩ := lowerNode_renamed hρ hfirst hshift.left
    obtain ⟨others', hothers', hrest⟩ := lowerEach_renamed hρ hothers hshift.right
    rw [← hrenamed.count] at hothers'
    exact exists_bind_ok_and hfirst' (exists_bind_ok_and hothers'
      ⟨_, rfl, renamed_cons hrenamed hrest⟩)

/-- So are nodes up to the first that matches nothing. -/
theorem lowerWhile_renamed (hρ : ρ.Fixes t.layout.keys) {parts : Fragments} {complete : Bool} :
    ∀ {n n' : Nat} {nodes : List Tree},
    lowerWhile t n nodes = .ok (parts, complete) → t.Shifts ρ n n' parts.temporaries.length →
    ∃ parts', lowerWhile t n' nodes = .ok (parts', complete) ∧ parts.Renamed ρ parts'
  | _, _, [], h => by
    intro _
    cases h
    exact ⟨_, rfl, renamed_empty⟩
  | _, _, node :: rest, h => by
    intro hshift
    obtain ⟨first, hfirst, h⟩ := bind_ok_iff.mp h
    cases hsource : first.source with
    | none =>
      simp only [hsource] at h
      cases h
      simp only [Fragments.cons, Fragments.empty, List.append_nil] at hshift
      obtain ⟨first', hfirst', hrenamed⟩ := lowerNode_renamed hρ hfirst hshift
      refine ⟨_, bind_ok_iff.mpr ⟨first', hfirst', ?_⟩, renamed_cons hrenamed renamed_empty⟩
      rw [hrenamed.source_eq_none hsource]
      rfl
    | some key =>
      simp only [hsource] at h
      obtain ⟨⟨others, complete'⟩, hothers, h⟩ := bind_ok_iff.mp h
      cases h
      simp only [Fragments.cons, List.length_append] at hshift
      obtain ⟨first', hfirst', hrenamed⟩ := lowerNode_renamed hρ hfirst hshift.left
      obtain ⟨others', hothers', hrest⟩ := lowerWhile_renamed hρ hothers hshift.right
      rw [← hrenamed.count] at hothers'
      obtain ⟨key', hsource', -⟩ := hrenamed.exists_source hsource
      refine ⟨_, bind_ok_iff.mpr ⟨first', hfirst', ?_⟩, renamed_cons hrenamed hrest⟩
      rw [hsource']
      exact bind_ok_iff.mpr ⟨_, hothers', rfl⟩

end

end Lowering

/-- A plan without an order is made with other numbers too, and does the same under the other
names. -/
theorem Tree.lower_renamed {ρ : Renaming} {tree : Tree} {lifetime n n' : Nat} {plan : Plan}
    (hρ : ρ.Fixes tree.origin.layout.keys) (h : tree.lower none lifetime n = .ok plan)
    (hshift : Lowering.Target.Shifts ⟨tree.origin.layout, lifetime⟩ ρ n n'
      plan.temporaries.length) :
    ∃ plan', tree.lower none lifetime n' = .ok plan' ∧
      List.Forall₂ ρ.Pairs plan.source.toList plan'.source.toList ∧
      List.Forall₂ (Command.Renamed ρ) plan.commands plan'.commands ∧
      plan'.temporaries.length = plan.temporaries.length := by
  obtain ⟨found, hfound, rfl⟩ := lower_none_ok h
  obtain ⟨found', hfound', hrenamed⟩ :=
    Lowering.lowerNode_renamed (t := ⟨tree.origin.layout, lifetime⟩) hρ hfound hshift
  refine exists_bind_ok_and hfound' ⟨Lowering.storagePlan tree.origin.layout found', ?_,
    hrenamed.source, hrenamed.commands, hrenamed.count⟩
  cases found'.source <;> rfl

/-- Two readers read paired keys in the same way. -/
inductive Reader.Renamed (ρ : Renaming) : Reader → Reader → Prop
  | empty : Renamed ρ .empty .empty
  | set {key key' : String} (h : ρ.Pairs key key') : Renamed ρ (.set key) (.set key')
  | sorted {key key' : String} (h : ρ.Pairs key key') (reversed : Bool) :
      Renamed ρ (.sorted key reversed) (.sorted key' reversed)
  | list {key key' : String} (h : ρ.Pairs key key') : Renamed ρ (.list key) (.list key')

/-- A plan does under some names what another one does under others, and is read in the same way. -/
structure Plan.Renamed (ρ : Renaming) (plan plan' : Plan) : Prop where
  commands : List.Forall₂ (Command.Renamed ρ) plan.commands plan'.commands
  reader : plan.reader.Renamed ρ plan'.reader
  /-- Both create as many keys. -/
  count : plan'.temporaries.length = plan.temporaries.length

namespace Lowering

variable {ρ : Renaming} {t : Target} {n n' : Nat} {found found' : Fragment}
  {sort : Option SortOrder} {plan plan' : Plan}

/-- Read in storage order, a fragment is read under the other names. -/
theorem storagePlan_renamed (h : found.Renamed ρ found') :
    (storagePlan t.layout found).Renamed ρ (storagePlan t.layout found') := by
  refine ⟨h.commands, ?_, h.count⟩
  unfold storagePlan
  dsimp only
  cases hsource : found.source with
  | none =>
    rw [h.source_eq_none hsource]
    exact .empty
  | some key =>
    obtain ⟨key', hsource', hkey⟩ := h.exists_source hsource
    rw [hsource']
    cases t.layout.defaultOrdering with
    | none => exact .set hkey
    | some order => exact .sorted hkey _

/-- Plans that are made in the same way of fragments that do the same do the same. -/
theorem Planned.renamed (h : Planned t n found sort plan) (h' : Planned t n' found' sort plan')
    (hfound : found.Renamed ρ found') (hshift : t.Shifts ρ n n' plan.temporaries.length)
    (hpattern : ∀ field member, ρ.Pairs (patternKey (t.layout.keys.sortPattern field) member)
      (patternKey (t.layout.keys.sortPattern field) member)) : plan.Renamed ρ plan' := by
  cases h with
  | stored hnone =>
    cases h' with
    | stored => exact storagePlan_renamed hfound
    -- the other fragment has no key to sort either
    | elided hsource =>
      have hnone' := hfound.source_eq_none (hnone.resolve_right (by simp))
      rw [hnone'] at hsource
      cases hsource
    | sorted hsource =>
      have hnone' := hfound.source_eq_none (hnone.resolve_right (by simp))
      rw [hnone'] at hsource
      cases hsource
  | elided hsource horder =>
    obtain ⟨key', hsource', hkey⟩ := hfound.exists_source hsource
    cases h' with
    | stored hnone =>
      rw [hnone.resolve_right (by simp)] at hsource'
      cases hsource'
    | elided hsource'' =>
      obtain rfl := Option.some.inj (hsource'.symm.trans hsource'')
      exact ⟨hfound.commands, .sorted hkey _, hfound.count⟩
    | sorted _ horder' =>
      rw [horder] at horder'
      cases horder'
  | sorted hsource horder hf =>
    obtain ⟨key', hsource', hkey⟩ := hfound.exists_source hsource
    cases h' with
    | stored hnone =>
      rw [hnone.resolve_right (by simp)] at hsource'
      cases hsource'
    | elided _ horder' =>
      rw [horder] at horder'
      cases horder'
    | sorted hsource'' _ hf' =>
      obtain rfl := Option.some.inj (hsource'.symm.trans hsource'')
      obtain rfl := Option.some.inj (hf.symm.trans hf')
      have hdest : ρ.Pairs (t.temporary (n + found.temporaries.length))
          (t.temporary (n' + found'.temporaries.length)) := by
        rw [hfound.count]
        exact hshift _ (by simp)
      refine ⟨List.rel_append hfound.commands ?_, .list hdest, by simp [hfound.count]⟩
      refine .cons (Command.renamed_sort hdest hkey ?_ _ _)
        (.cons (Command.renamed_expire hdest _) .nil)
      intro pattern hpat member
      split at hpat
      · cases hpat
      · cases hpat
        exact hpattern _ member

end Lowering

/-- A plan is made with other numbers too, and does the same under the other names. -/
theorem Tree.plan_renamed {ρ : Renaming} {tree : Tree} {sort : Option SortOrder}
    {lifetime n n' : Nat} {plan plan' : Plan} (hρ : ρ.Fixes tree.origin.layout.keys)
    (hpattern : ∀ field member,
      ρ.Pairs (patternKey (tree.origin.layout.keys.sortPattern field) member)
        (patternKey (tree.origin.layout.keys.sortPattern field) member))
    (h : tree.lower sort lifetime n = .ok plan) (h' : tree.lower sort lifetime n' = .ok plan')
    (hshift : Lowering.Target.Shifts ⟨tree.origin.layout, lifetime⟩ ρ n n'
      plan.temporaries.length) : plan.Renamed ρ plan' := by
  obtain ⟨found, hfound, hplanned⟩ := lower_ok h
  obtain ⟨found', hfound', hplanned'⟩ := lower_ok h'
  have hle : found.temporaries.length ≤ plan.temporaries.length := by
    cases hplanned <;> simp [Lowering.storagePlan]
  obtain ⟨found'', hfound'', hrenamed⟩ :=
    Lowering.lowerNode_renamed (t := ⟨tree.origin.layout, lifetime⟩) hρ hfound (hshift.mono hle)
  obtain rfl := Except.ok.inj (hfound'.symm.trans hfound'')
  exact hplanned.renamed hplanned' hrenamed hshift hpattern

end KeyedRecords
