import KeyedRecords.Proofs.Keyed
import KeyedRecords.Proofs.Pattern.Names
import KeyedRecords.Proofs.Result

/-!
# Which declarations pass their checks

What is demanded of a declaration (`Schema.Admissible`), and that each of its checks demands its
part of that. The fields are checked one behind the other, each against what has been found among
those before it. What has been found is all that there is to find there (`Found.ofFields`), so that
the checks go on as long as the fields checked are admissible together
(`Schema.checkFields_eq_ok_iff`).
-/

namespace KeyedRecords

namespace Schema

/-- What is demanded of a field by itself. -/
structure FieldAdmissible (f : Field) : Prop where
  /-- The name is an identifier. -/
  name : Text.isIdentifier f.name = true
  /-- An identity is an integer or a text. -/
  key : f.primaryKey = true → f.kind = .int ∨ f.kind = .text
  /-- Only an identity is assigned, and only if it is an integer. -/
  auto : f.auto = true → f.primaryKey = true ∧ f.kind = .int
  /-- No index is kept of documents. -/
  index : f.index = true → f.kind ≠ .json
  /-- A field that counts versions is an integer beside the identity. -/
  version : f.version = true → f.kind = .int ∧ f.primaryKey = false
  /-- The pattern compiles. -/
  pattern : ∀ p ∈ f.pattern, p.compiles = true

/-- What is demanded of fields together. -/
structure FieldsAdmissible (fields : List Field) : Prop where
  each : ∀ f ∈ fields, FieldAdmissible f
  /-- No two fields have one name. -/
  distinct : (fields.map Field.name).Nodup
  /-- At most one field is the identity. -/
  oneKey : fields.countP (·.primaryKey) ≤ 1
  /-- At most one field counts versions. -/
  oneVersion : fields.countP (·.version) ≤ 1

/-- What is demanded of a declaration. -/
structure Admissible (s : Schema) : Prop where
  /-- The name is an identifier. -/
  name : Text.isIdentifier s.name = true
  fields : FieldsAdmissible s.fields
  /-- Just one field is the identity. -/
  key : s.fields.countP (·.primaryKey) = 1
  /-- A default order is that by a number, ascending or descending. -/
  ordering : ∀ spec ∈ s.ordering, ∃ f ∈ s.fields, f.kind.isNumeric = true ∧
    (spec = f.name ∨ spec = "-" ++ f.name)
  /-- The names of the containers are identifiers. -/
  structures : ∀ name ∈ s.structures, Text.isIdentifier name = true
  /-- No two containers have one name. -/
  distinctStructures : s.structures.Nodup

variable {before rest : List Field} {found found' : Found} {f : Field}

/-- Fields can be named in keys. -/
theorem FieldAdmissible.isKeyName (h : FieldAdmissible f) : isKeyName f.name = true := by
  rw [isKeyName_eq_isIdentifier]
  exact h.name

section Fields

/-- What there is to find among fields. -/
def Found.ofFields (fields : List Field) : Found :=
  ⟨fields.find? (·.primaryKey), (fields.find? (·.version)).map (·.name)⟩

/-- What has been found behind one more field. -/
def Found.behind (found : Found) (f : Field) : Found :=
  { identity := if f.primaryKey then some f else found.identity
    version := if f.version then some f.name else found.version }

/-- A computation that may stop at once succeeds if it does not stop. -/
theorem unless_throw_ok_iff {ε α β : Type} {p : Prop} [Decidable p] {e : ε} {x : Except ε β}
    {next : α → Except ε β} {b : β} :
    (if p then throw e >>= next else x) = .ok b ↔ ¬p ∧ x = .ok b := by
  by_cases hp : p
  · simp [hp, bind_ok_iff, throw_ok_iff]
  · simp [hp]

/-- A computation that may stop at once fails if it stops, or later. -/
theorem unless_throw_error_iff {ε α β : Type} {p : Prop} [Decidable p] {e e' : ε}
    {x : Except ε β} {next : α → Except ε β} :
    (if p then throw e >>= next else x) = .error e' ↔ p ∧ e = e' ∨ ¬p ∧ x = .error e' := by
  by_cases hp : p
  · simp [hp, throw, throwThe, MonadExceptOf.throw, bind, Except.bind]
  · simp [hp]

/-- When a field may be the identity, and when it may be assigned. -/
theorem checkKey_eq_ok_iff :
    checkKey found f = .ok () ↔
      (f.primaryKey = true → found.identity = none ∧ (f.kind = .int ∨ f.kind = .text)) ∧
      (f.auto = true → f.primaryKey = true ∧ f.kind = .int) := by
  unfold checkKey
  cases f.primaryKey <;> cases found.identity <;> cases f.auto <;> cases f.kind <;> simp

/-- When a field may count versions. -/
theorem checkVersion_eq_ok_iff :
    checkVersion found f = .ok () ↔
      (f.version = true → found.version = none ∧ f.kind = .int ∧ f.primaryKey = false) := by
  unfold checkVersion
  cases f.version <;> cases found.version <;> cases f.primaryKey <;> cases f.kind <;> simp

/-- Documents are the only values that no index is kept of. -/
theorem isScalar_iff {kind : FieldKind} : kind.isScalar = true ↔ kind ≠ .json := by
  cases kind <;> simp [FieldKind.isScalar]

/-- A field passes its checks if it is admissible, its name is new, and it is not a second identity
or a second one that counts versions. -/
theorem checkField_eq_ok_iff :
    checkField before found f = .ok found' ↔
      (FieldAdmissible f ∧ f.name ∉ before.map Field.name ∧
        (f.primaryKey = true → found.identity = none) ∧
        (f.version = true → found.version = none)) ∧ found' = found.behind f := by
  have hpattern : ¬(f.pattern.any fun p => !p.compiles) = true ↔
      ∀ p ∈ f.pattern, p.compiles = true := by
    cases f.pattern <;> simp
  unfold checkField
  simp only [unless_throw_ok_iff, bind_ok_iff, pure_ok_iff, hpattern, isKeyName_eq_isIdentifier]
  constructor
  · rintro ⟨hname, hnew, ⟨⟩, hkey, hindex, ⟨⟩, hversion, hpatterns, rfl⟩
    obtain ⟨hkey, hauto⟩ := checkKey_eq_ok_iff.mp hkey
    have hversion := checkVersion_eq_ok_iff.mp hversion
    refine ⟨⟨⟨?_, fun h => (hkey h).2, hauto, fun h => ?_, fun h => (hversion h).2, hpatterns⟩, ?_,
      fun h => (hkey h).1, fun h => (hversion h).1⟩, rfl⟩
    · simpa using hname
    · exact isScalar_iff.mp (by simpa [h] using hindex)
    · simpa using hnew
  · rintro ⟨⟨⟨hname, hkind, hauto, hindex, hversion, hpatterns⟩, hnew, hkey, hfirst⟩, rfl⟩
    refine ⟨by simpa using hname, by simpa using hnew, ⟨⟩,
      checkKey_eq_ok_iff.mpr ⟨fun h => ⟨hkey h, hkind h⟩, hauto⟩, ?_, ⟨⟩,
      checkVersion_eq_ok_iff.mpr fun h => ⟨hfirst h, hversion h⟩, hpatterns, rfl⟩
    cases h : f.index with
    | false => simp
    | true => simp [isScalar_iff.mpr (hindex h)]

/-- Fields that are admissible together are so without some of them. -/
theorem FieldsAdmissible.sublist {fields some : List Field} (h : FieldsAdmissible fields)
    (hsome : some.Sublist fields) : FieldsAdmissible some where
  each f hf := h.each f (hsome.subset hf)
  distinct := h.distinct.sublist (hsome.map Field.name)
  oneKey := Nat.le_trans hsome.countP_le h.oneKey
  oneVersion := Nat.le_trans hsome.countP_le h.oneVersion

/-- Nothing is found where no field is the identity, and only there. -/
theorem identity_ofFields_eq_none_iff {fields : List Field} :
    (Found.ofFields fields).identity = none ↔ fields.countP (·.primaryKey) = 0 := by
  simp [Found.ofFields, List.countP_eq_zero]

theorem version_ofFields_eq_none_iff {fields : List Field} :
    (Found.ofFields fields).version = none ↔ fields.countP (·.version) = 0 := by
  simp [Found.ofFields, List.countP_eq_zero]

/-- Fields are admissible together with one more if this passes its checks behind them. -/
theorem fieldsAdmissible_concat_iff :
    FieldsAdmissible (before ++ [f]) ↔ FieldsAdmissible before ∧
      FieldAdmissible f ∧ f.name ∉ before.map Field.name ∧
        (f.primaryKey = true → (Found.ofFields before).identity = none) ∧
        (f.version = true → (Found.ofFields before).version = none) := by
  rw [identity_ofFields_eq_none_iff, version_ofFields_eq_none_iff]
  constructor
  · intro h
    have hkey := h.oneKey
    have hversion := h.oneVersion
    have hdistinct := h.distinct
    rw [List.countP_append, List.countP_singleton] at hkey hversion
    rw [List.map_append, List.map_singleton, List.nodup_append] at hdistinct
    refine ⟨h.sublist (List.sublist_append_left _ _), h.each f (by simp), ?_, fun hf => ?_,
      fun hf => ?_⟩
    · exact fun hmem => hdistinct.2.2 _ hmem _ (by simp) rfl
    · rw [if_pos hf] at hkey
      omega
    · rw [if_pos hf] at hversion
      omega
  · rintro ⟨h, hf, hnew, hkey, hversion⟩
    constructor
    case each =>
      intro g hg
      rcases List.mem_append.mp hg with hg | hg
      · exact h.each g hg
      · rwa [List.mem_singleton.mp hg]
    case distinct =>
      rw [List.map_append, List.map_singleton, List.nodup_append]
      refine ⟨h.distinct, List.nodup_singleton _, ?_⟩
      rintro name hmem _ hname rfl
      exact hnew (List.mem_singleton.mp hname ▸ hmem)
    case oneKey =>
      have hbefore := h.oneKey
      rw [List.countP_append, List.countP_singleton]
      split
      next hf => exact Nat.le_of_eq (congrArg (· + 1) (hkey hf))
      next => exact hbefore
    case oneVersion =>
      have hbefore := h.oneVersion
      rw [List.countP_append, List.countP_singleton]
      split
      next hf => exact Nat.le_of_eq (congrArg (· + 1) (hversion hf))
      next => exact hbefore

/-- What is found behind one more field is all that there is to find. -/
theorem behind_ofFields (h : FieldsAdmissible (before ++ [f])) :
    (Found.ofFields before).behind f = Found.ofFields (before ++ [f]) := by
  obtain ⟨-, -, -, hkey, hversion⟩ := fieldsAdmissible_concat_iff.mp h
  have hkey : (if f.primaryKey then some f else before.find? (·.primaryKey)) =
      (before ++ [f]).find? (·.primaryKey) := by
    rw [List.find?_append]
    split
    next hf =>
      have hnone : before.find? (·.primaryKey) = none := hkey hf
      simp [hnone, hf]
    next hf => simp [hf]
  have hversion : (if f.version then some f.name else (before.find? (·.version)).map (·.name)) =
      ((before ++ [f]).find? (·.version)).map (·.name) := by
    rw [List.find?_append]
    split
    next hf =>
      have hnone : before.find? (·.version) = none := Option.map_eq_none_iff.mp (hversion hf)
      simp [hnone, hf]
    next hf => simp [hf]
  rw [Found.behind, Found.ofFields, Found.ofFields, hkey, hversion]

/-- Fields pass their checks if they are admissible together, and then all is found that there is
to find. -/
theorem checkFields_eq_ok_iff (hbefore : FieldsAdmissible before) :
    checkFields before (.ofFields before) rest = .ok found' ↔
      FieldsAdmissible (before ++ rest) ∧ found' = .ofFields (before ++ rest) := by
  induction rest generalizing before with
  | nil => simp [checkFields, hbefore, eq_comm]
  | cons f rest ih =>
    have hfirst : ∀ found₁, checkField before (.ofFields before) f = .ok found₁ ↔
        FieldsAdmissible (before ++ [f]) ∧ found₁ = (Found.ofFields before).behind f := by
      intro found₁
      rw [checkField_eq_ok_iff, fieldsAdmissible_concat_iff, and_iff_right hbefore]
    have happend : before ++ f :: rest = before ++ [f] ++ rest := by simp
    rw [checkFields, bind_ok_iff, happend]
    constructor
    · rintro ⟨found₁, hf, hrest⟩
      obtain ⟨hconcat, rfl⟩ := (hfirst _).mp hf
      rw [behind_ofFields hconcat] at hrest
      exact (ih hconcat).mp hrest
    · rintro ⟨hall, hfound⟩
      have hconcat := hall.sublist (List.sublist_append_left (before ++ [f]) rest)
      refine ⟨_, (hfirst _).mpr ⟨hconcat, rfl⟩, ?_⟩
      rw [behind_ofFields hconcat]
      exact (ih hconcat).mpr ⟨hall, hfound⟩

end Fields

section Ordering

/-- An order is read of a minus sign and a field, or of a field alone. -/
theorem read_cases (spec : String) :
    (∃ field, spec = "-" ++ field ∧ SortOrder.read spec = ⟨field, true⟩) ∨
      ((∀ field, spec ≠ "-" ++ field) ∧ SortOrder.read spec = ⟨spec, false⟩) := by
  unfold SortOrder.read
  split
  next field hspec =>
    have hfield : (String.ofList field).toList = field := String.toList_ofList
    refine .inl ⟨String.ofList field, ?_, rfl⟩
    apply String.toList_inj.mp
    rw [hspec, String.toList_append, hfield]
    rfl
  next hspec =>
    refine .inr ⟨?_, rfl⟩
    rintro field rfl
    exact hspec field.toList (by rw [String.toList_append]; rfl)

/-- The text of an order comes back from the order that is read of it. -/
theorem text_read (spec : String) : (SortOrder.read spec).text = spec := by
  rcases read_cases spec with ⟨field, rfl, hread⟩ | ⟨-, hread⟩
  · rw [hread]
    rfl
  · rw [hread]
    rfl

/-- An order is one by a field if its text is the name of the field, with a minus sign or
without. -/
theorem field_read_eq_iff {spec name : String} (hname : '-' ∉ name.toList) :
    (SortOrder.read spec).field = name ↔ spec = name ∨ spec = "-" ++ name := by
  have hminus : ∀ field, name ≠ "-" ++ field := by
    rintro field rfl
    exact hname (by rw [String.toList_append]; exact List.mem_cons_self)
  rcases read_cases spec with ⟨field, rfl, hread⟩ | ⟨hspec, hread⟩
  · rw [hread]
    constructor
    · rintro rfl
      exact .inr rfl
    · rintro (heq | heq)
      · exact absurd heq.symm (hminus field)
      · have hlists := congrArg String.toList heq
        rw [String.toList_append, String.toList_append, List.append_cancel_left_eq] at hlists
        exact String.toList_inj.mp hlists
  · rw [hread]
    exact ⟨.inl, fun h => h.resolve_right (hspec name)⟩

/-- A default order is accepted if it is that by a number, ascending or descending. -/
theorem checkOrdering_eq_ok_iff {s : Schema} {order? : Option SortOrder}
    (h : FieldsAdmissible s.fields) :
    s.checkOrdering = .ok order? ↔
      (∀ spec ∈ s.ordering, ∃ f ∈ s.fields, f.kind.isNumeric = true ∧
        (spec = f.name ∨ spec = "-" ++ f.name)) ∧ order? = s.ordering.map SortOrder.read := by
  unfold checkOrdering
  cases s.ordering with
  | none =>
    constructor
    · rintro ⟨⟩
      exact ⟨fun spec hspec => absurd hspec (by simp), rfl⟩
    · rintro ⟨-, rfl⟩
      rfl
  | some spec =>
    have hby : ∀ f ∈ s.fields, f.name = (SortOrder.read spec).field ↔
        spec = f.name ∨ spec = "-" ++ f.name := fun f hf =>
      eq_comm.trans <| field_read_eq_iff <|
        not_mem_of_isKeyName (h.each f hf).isKeyName (by decide) (by decide)
    have hfind := fun g => find?_eq_some_iff_of_nodup h.distinct
      (k := (SortOrder.read spec).field) (a := g)
    dsimp only
    cases hfound : s.fields.find? (·.name == (SortOrder.read spec).field) with
    | none =>
      constructor
      · rintro ⟨⟩
      · rintro ⟨hnumber, rfl⟩
        obtain ⟨f, hf, -, hspec⟩ := hnumber spec rfl
        cases hfound.symm.trans ((hfind f).mpr ⟨hf, (hby f hf).mpr hspec⟩)
    | some g =>
      obtain ⟨hg, hname⟩ := (hfind g).mp hfound
      dsimp only
      split
      next hnumeric =>
        constructor
        · rintro ⟨⟩
          refine ⟨?_, rfl⟩
          rintro _ ⟨⟩
          exact ⟨g, hg, hnumeric, (hby g hg).mp hname⟩
        · rintro ⟨-, rfl⟩
          rfl
      next hnumeric =>
        constructor
        · rintro ⟨⟩
        · rintro ⟨hnumber, rfl⟩
          -- no other field has the name of the one that is found
          obtain ⟨f, hf, hnumeric', hspec⟩ := hnumber spec rfl
          cases hfound.symm.trans ((hfind f).mpr ⟨hf, (hby f hf).mpr hspec⟩)
          exact absurd hnumeric' hnumeric

end Ordering

/-- Containers pass their checks if their names are identifiers, each different from those before
it. -/
theorem checkStructures_eq_ok_iff {before names : List String} :
    checkStructures before names = .ok () ↔
      (∀ name ∈ names, Text.isIdentifier name = true ∧ name ∉ before) ∧ names.Nodup := by
  induction names generalizing before with
  | nil => simp [checkStructures]
  | cons name rest ih =>
    unfold checkStructures
    rw [List.forall_mem_cons, List.nodup_cons, isKeyName_eq_isIdentifier]
    by_cases hname : Text.isIdentifier name = true ∧ name ∉ before
    · rw [if_neg (by simpa using hname), ih]
      simp only [List.mem_append, List.mem_singleton, not_or]
      constructor
      · rintro ⟨hrest, hdistinct⟩
        exact ⟨⟨hname, fun n hn => ⟨(hrest n hn).1, (hrest n hn).2.1⟩⟩,
          fun hmem => (hrest name hmem).2.2 rfl, hdistinct⟩
      · rintro ⟨⟨-, hrest⟩, hnew, hdistinct⟩
        refine ⟨fun n hn => ⟨(hrest n hn).1, (hrest n hn).2, ?_⟩, hdistinct⟩
        rintro rfl
        exact hnew hn
    · have hbad : (!Text.isIdentifier name || before.contains name) = true := by
        simpa [or_iff_not_imp_left] using hname
      rw [if_pos hbad]
      simp [hname]

end Schema

end KeyedRecords
