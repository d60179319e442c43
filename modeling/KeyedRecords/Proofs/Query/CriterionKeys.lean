import KeyedRecords.Proofs.Query.Construction
import KeyedRecords.Proofs.Text.Split
import KeyedRecords.Sample.Models

/-!
# Fields and the keys of criteria

The key of a criterion is cut at its first two underscores, and names of fields may have underscores
of their own. By its name alone, a field is found exactly if the name has no two underscores in a
row; with a lookup behind it, the name may also have none at its end (`QueryTerms.filter_iff`).
-/

namespace KeyedRecords

namespace Lookup

variable {name : String}

/-- A text without two underscores in a row is the name of a field. -/
theorem read_of_not_infix (h : ¬['_', '_'] <:+: name.toList) : read name = ⟨name, none⟩ := by
  have hsep : "__".toList = ['_', '_'] := rfl
  rw [read, Text.cut?, hsep, Text.cutList?_eq_none (List.cons_ne_nil _ _) h, Option.map_none]

/-- Behind a name without two underscores in a row, and none at its end, stands a lookup. -/
theorem read_append (h : ¬['_', '_'] <:+: (name ++ "_").toList) (lookup : String) :
    read (name ++ "__" ++ lookup) =
      if lookup = "in" ∨ lookup = "eq" then ⟨name, none⟩ else ⟨name, some lookup⟩ := by
  have hsep : "__".toList = ['_', '_'] := rfl
  have hcut : Text.cutList? ['_', '_'] (name.toList ++ ['_', '_'] ++ lookup.toList) =
      some (name.toList, lookup.toList) :=
    Text.cutList?_append (List.cons_ne_nil _ _) (by simpa using h) _
  rw [read, Text.cut?, String.toList_append, String.toList_append, hsep, hcut, Option.map_some]
  simp only [String.ofList_toList]

/-- Two underscores in a row end the name of a field, whatever is behind them. -/
theorem length_field_lt {key : String} {stem more : List Char} (hkey : key.toList = stem ++ more)
    (h : ['_', '_'] <:+: stem) : (read key).field.toList.length + 2 ≤ stem.length := by
  obtain ⟨before, after, hcut, hinitial⟩ := Text.exists_cutList?_append (List.cons_ne_nil _ _) h more
  have hsep : "__".toList = ['_', '_'] := rfl
  have hfield : (read key).field = String.ofList before := by
    rw [read, Text.cut?, hsep, hkey, hcut, Option.map_some]
    dsimp only
    split <;> rfl
  rw [hfield, String.toList_ofList]
  simpa using hinitial.length_le

/-- A name is read as that of a field exactly if it has no two underscores in a row. -/
theorem read_eq_iff : read name = ⟨name, none⟩ ↔ ¬['_', '_'] <:+: name.toList := by
  refine ⟨fun h hinfix => ?_, read_of_not_infix⟩
  -- the name that is read would be shorter than itself
  have hlt := length_field_lt (List.append_nil _).symm hinfix
  rw [h] at hlt
  dsimp only at hlt
  omega

/-- With a lookup behind it, a name is read as that of a field exactly if it has no two underscores
in a row, and none at its end. -/
theorem read_append_eq_iff {lookup : String} (hlookup : lookup ∈ ["in", "eq"]) :
    read (name ++ "__" ++ lookup) = ⟨name, none⟩ ↔ ¬['_', '_'] <:+: (name ++ "_").toList := by
  constructor
  · intro h hinfix
    -- the first underscore of the separator may make a pair with one that ends the name
    have hkey : (name ++ "__" ++ lookup).toList = (name ++ "_").toList ++ '_' :: lookup.toList := by
      simp
    have hlt := length_field_lt hkey hinfix
    rw [h, String.toList_append, List.length_append] at hlt
    have hone : "_".toList.length = 1 := rfl
    dsimp only at hlt
    omega
  · intro h
    rw [read_append h, if_pos (by simpa using hlookup)]

end Lookup

namespace QueryTerms

variable {ε : Type} {consult : Consult ε} {t : QueryTerms ε} {key field : String}

/-- The key of a criterion names a field that criteria can name, with a lookup that exists. -/
theorem criterionField_eq_ok_iff : t.criterionField key = .ok field ↔
    Lookup.read key = ⟨field, none⟩ ∧ ∃ f, t.layout.queryableField field = .ok f := by
  unfold criterionField
  obtain ⟨name, unsupported⟩ := Lookup.read key
  cases unsupported with
  | some lookup => simp
  | none =>
    simp only [Lookup.mk.injEq, and_true]
    constructor
    · intro h
      obtain ⟨f, hf, rfl⟩ := map_ok_iff.mp h
      exact ⟨rfl, f, hf⟩
    · rintro ⟨rfl, f, hf⟩
      exact map_ok_iff.mpr ⟨f, hf, rfl⟩

/-- A query without criteria, with nothing wrong about it. -/
structure Bare (t : QueryTerms ε) : Prop where
  filters : t.filters = []
  excludes : t.excludes = []
  search : t.search = none
  check : t.check = .ok ()

/-- One criterion is one selection. -/
theorem selections_singleton (key : String) (v : Value) (more : List Value) :
    t.selections [(key, v :: more)] =
      (t.criterionField key).map fun field => [.select t.origin field (v :: more)] := by
  unfold selections group
  cases t.criterionField key <;> rfl

/-- The tree of a query with one criterion is the selection by its field. -/
theorem Bare.construct_filterIn (ht : t.Bare) (key : String) (v : Value) (more : List Value) :
    ((Query.plain t).filterIn key (v :: more)).construct consult =
      (t.criterionField key).map fun field => .select t.origin field (v :: more) := by
  let filtered : QueryTerms ε := { t with filters := [(key, v :: more)] }
  have hquery : (Query.plain t).filterIn key (v :: more) = .plain filtered := by
    simp only [Query.filterIn, Query.mapTerms, ht.filters, Criteria.merge, filtered]
  -- the check does not look at criteria, and there are no others
  have hcheck : filtered.check = .ok () := ht.check
  have hkept : filtered.selections filtered.filters =
      (t.criterionField key).map fun field => [.select t.origin field (v :: more)] :=
    selections_singleton key v more
  have hfound : filtered.searchSelection consult = .ok [] := by
    simp only [searchSelection, filtered, ht.search]
  have hdropped : filtered.selections filtered.excludes = .ok [] := by
    simp only [filtered, ht.excludes]
    rfl
  rw [hquery, Query.construct, hcheck, tree, hkept, hfound, hdropped]
  cases t.criterionField key <;> rfl

/-- A query is filtered by the name of a field exactly if the name has no two underscores in a row,
and by the name with a lookup behind it exactly if it has also none at its end. -/
theorem filter_iff {space : String} {s : Schema} (hl : s.layout space = .ok t.layout) (ht : t.Bare)
    {f : Field} (hf : f ∈ t.layout.fields) (hquery : f.isQueryable = true)
    (consult : Consult ε) (v : Value) (more : List Value) :
    (((Query.plain t).filterIn f.name (v :: more)).construct consult =
        .ok (.select t.origin f.name (v :: more)) ↔ ¬['_', '_'] <:+: f.name.toList) ∧
      ∀ lookup ∈ ["in", "eq"],
        (((Query.plain t).filterIn (f.name ++ "__" ++ lookup) (v :: more)).construct consult =
          .ok (.select t.origin f.name (v :: more)) ↔ ¬['_', '_'] <:+: (f.name ++ "_").toList) := by
  have hfield : t.layout.queryableField f.name = .ok f := by
    have hname := (Schema.layout_wellFormed hl).field?_eq_some_iff.mpr ⟨hf, rfl⟩
    simp [Layout.queryableField, hname, hquery]
  -- a key selects by the field exactly if it is read as the name of the field
  have hselects : ∀ key, ((Query.plain t).filterIn key (v :: more)).construct consult =
      .ok (.select t.origin f.name (v :: more)) ↔ Lookup.read key = ⟨f.name, none⟩ := by
    intro key
    rw [ht.construct_filterIn]
    constructor
    · intro h
      obtain ⟨name, hname, heq⟩ := map_ok_iff.mp h
      obtain ⟨hread, -⟩ := criterionField_eq_ok_iff.mp hname
      rw [hread, (Tree.select.inj heq).2.1]
    · exact fun hread => map_ok_iff.mpr ⟨_, criterionField_eq_ok_iff.mpr ⟨hread, f, hfield⟩, rfl⟩
  simp only [hselects, Lookup.read_eq_iff, true_and]
  exact fun lookup hlookup => Lookup.read_append_eq_iff hlookup

section Underscores

/-- A model with underscores in the names of its fields. -/
def eventLayout : Layout :=
  let id := (Sample.chosenId "id" .text).field
  { tag := ⟨"event", none, []⟩, keys := .ofModel "kvm." "event", identity := id
    fields := [id, (Sample.indexed "created__at" .int64).field, (Sample.indexed "type_" .text).field]
    defaultOrdering := none, versionField := none }

theorem layout_event :
    (⟨eventLayout.tag, eventLayout.fields⟩ : Schema).layout "kvm." = .ok eventLayout := by
  rfl

/-- Events are filtered by their identity under all three keys. -/
theorem filter_iff_events :
    ∃ t : QueryTerms Unit, t.layout = eventLayout ∧ t.Bare ∧
      ∀ key ∈ ["id", "id__in", "id__eq"],
        ((Query.plain t).filterIn key [.text "a"]).construct (fun _ _ _ => .ok []) =
          .ok (.select t.origin "id" [.text "a"]) := by
  let t : QueryTerms Unit := (Query.ofLayout eventLayout 30).terms
  have ht : t.Bare := ⟨rfl, rfl, rfl, rfl⟩
  have hid : eventLayout.identity ∈ eventLayout.fields := List.mem_cons_self
  obtain ⟨hname, hlookups⟩ :=
    filter_iff (t := t) layout_event ht hid rfl (fun _ _ _ => .ok []) (.text "a") []
  refine ⟨t, rfl, ht, ?_⟩
  rw [List.forall_mem_cons]
  refine ⟨hname.mpr (by decide), fun key hkey => ?_⟩
  obtain ⟨lookup, hlookup, rfl⟩ : ∃ lookup ∈ ["in", "eq"], key = "id__" ++ lookup := by
    simpa using hkey
  exact (hlookups lookup hlookup).mpr (by decide)

/-- Events cannot be filtered by the time of their creation, whose name has two underscores in a
row, nor by their type with a lookup behind its name, which ends in one. -/
theorem filter_refused_events :
    ∃ (s : Schema) (l : Layout) (created type : Field) (e e' : Error),
      s.layout "kvm." = .ok l ∧ (created ∈ l.fields ∧ type ∈ l.fields) ∧
      (created.name = "created__at" ∧ type.name = "type_") ∧
      (created.isQueryable = true ∧ type.isQueryable = true) ∧
      ((Query.ofLayout (ε := Unit) l 30).filterIn created.name [.int 1]).construct
        (fun _ _ _ => .ok []) = .error e ∧
      ((Query.ofLayout (ε := Unit) l 30).filterIn (type.name ++ "__in") [.text "a"]).construct
        (fun _ _ _ => .ok []) = .error e' :=
  ⟨_, eventLayout, _, _, _, _, layout_event,
    ⟨List.mem_cons_of_mem _ List.mem_cons_self,
      List.mem_cons_of_mem _ (List.mem_cons_of_mem _ List.mem_cons_self)⟩,
    ⟨rfl, rfl⟩, ⟨rfl, rfl⟩, rfl, rfl⟩

end Underscores

end QueryTerms

end KeyedRecords
