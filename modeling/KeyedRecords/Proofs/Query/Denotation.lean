import KeyedRecords.Proofs.Store.Algebra
import KeyedRecords.Query.Fields
import KeyedRecords.Query.Tree

/-!
# What trees mean

The ids that a tree describes, read off the collections of its model: `Tree.Denotes`. No command and
no temporary key has a part in this.
-/

namespace KeyedRecords

namespace Layout

variable (l : Layout)

/-- The kind of the collections of ids. -/
def memberKind : DataKind := if l.isOrdered then .sortedSet else .set

/-- The keys that queries read hold nothing but values of their kinds. -/
structure Readable (ks : Keyspace) : Prop where
  /-- The collection of all ids. -/
  ids : ks.Fits l.keys.ids l.memberKind
  /-- The ids by the value of an indexed field. -/
  index : ∀ f ∈ l.indexedFields, ∀ v, ks.Fits (l.keys.index f.name v) l.memberKind
  /-- The owners of the values of a unique field. -/
  unique : ∀ f ∈ l.fields, f.unique = true → ks.Fits (l.keys.unique f.name) .hash

/-- An id is found under a stored text of a field. Unique fields of an ordered model are looked up
within the ids of the model. -/
def Finds (ks : Keyspace) (f : Field) (raw id : String) : Prop :=
  if f.primaryKey then raw = id ∧ ks.Has l.keys.ids id
  else if f.unique then
    ks.field? (l.keys.unique f.name) raw = some id ∧ (l.isOrdered = true → ks.Has l.keys.ids id)
  else ks.Has (l.keys.index f.name raw) id

/-- An id is found under one of the values of a field. Null is the value of no stored field. -/
def Selects (ks : Keyspace) (field : String) (values : List Value) (id : String) : Prop :=
  ∃ f, l.queryableField field = .ok f ∧ ∃ raw ∈ values.filterMap f.kind.encode, l.Finds ks f raw id

variable {l}

/-- Collections of ids can be read with scores. -/
theorem fitsScored_of_fits {ks : Keyspace} {key : String} (h : ks.Fits key l.memberKind) :
    ks.FitsScored key := by
  unfold memberKind at h
  cases hordered : l.isOrdered with
  | false => exact .inl (by simpa [hordered] using h)
  | true => exact .inr (by simpa [hordered] using h)

/-- A field that criteria can name is one of the fields, with that name. -/
theorem of_queryableField_ok {name : String} {f : Field} (h : l.queryableField name = .ok f) :
    f ∈ l.fields ∧ f.name = name ∧ f.isQueryable = true := by
  unfold queryableField at h
  split at h
  · cases h
  -- a field is found by its name, and must be one that queries may use
  next g hg =>
    split at h
    next hquery =>
      cases h
      refine ⟨List.mem_of_find?_eq_some hg, ?_, hquery⟩
      simpa using List.find?_some hg
    next => cases h

/-- A field that criteria can name is the identity, or unique, or indexed. -/
theorem mem_indexedFields_of_queryableField {name : String} {f : Field}
    (h : l.queryableField name = .ok f) (hkey : f.primaryKey = false) (hunique : f.unique = false) :
    f ∈ l.indexedFields := by
  obtain ⟨hf, -, hquery⟩ := of_queryableField_ok h
  have hindex : f.index = true := by simpa [Field.isQueryable, hkey, hunique] using hquery
  exact List.mem_filter.mpr ⟨hf, by simp [hkey, hindex]⟩

/-- What a name selects, once its field is known. -/
theorem selects_iff {ks : Keyspace} {name : String} {f : Field} (h : l.queryableField name = .ok f)
    (values : List Value) (id : String) :
    l.Selects ks name values id ↔ ∃ raw ∈ values.filterMap f.kind.encode, l.Finds ks f raw id := by
  constructor
  · rintro ⟨g, hg, hraw⟩
    rw [h] at hg
    cases hg
    exact hraw
  · intro hraw
    exact ⟨f, h, hraw⟩

end Layout

namespace Tree

variable (l : Layout) (ks : Keyspace) (id : String)

mutual

/-- An id is one of those that a tree describes. -/
def Denotes : Tree → Prop
  | .empty _ => False
  | .select _ field values => l.Selects ks field values id
  | .union _ operands => DenotesAny operands
  | .intersect _ [] => ks.Has l.keys.ids id
  | .intersect _ (first :: rest) => DenotesAll (first :: rest)
  | .difference _ [] => False
  | .difference _ (head :: rest) => Denotes head ∧ ¬DenotesAny rest

/-- An id is one of those that some tree of a list describes. -/
def DenotesAny : List Tree → Prop
  | [] => False
  | node :: rest => Denotes node ∨ DenotesAny rest

/-- An id is one of those that every tree of a list describes. -/
def DenotesAll : List Tree → Prop
  | [] => True
  | node :: rest => Denotes node ∧ DenotesAll rest

end

variable {l ks id}

theorem denotesAny_iff {nodes : List Tree} :
    DenotesAny l ks id nodes ↔ ∃ node ∈ nodes, Denotes l ks id node := by
  induction nodes with
  | nil => simp [DenotesAny]
  | cons node rest ih => simp [DenotesAny, ih]

theorem denotesAll_iff {nodes : List Tree} :
    DenotesAll l ks id nodes ↔ ∀ node ∈ nodes, Denotes l ks id node := by
  induction nodes with
  | nil => simp [DenotesAll]
  | cons node rest ih => simp [DenotesAll, ih]

end Tree

end KeyedRecords
