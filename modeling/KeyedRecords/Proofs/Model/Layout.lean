import KeyedRecords.Proofs.Model.Admission

/-!
# What a layout guarantees

A declaration is laid out exactly if it is admissible, and its layout holds what there is to find in
it (`Schema.laidOut_iff`). What a layout guarantees follows from that: no two fields have one name,
no name has a colon, and one field is the identity (`Layout.WellFormed`).
-/

namespace KeyedRecords

/-- What the checks of a declaration have found out. -/
structure Layout.WellFormed (l : Layout) : Prop where
  /-- No two fields have one name. -/
  distinct : (l.fields.map Field.name).Nodup
  /-- No field has a colon in its name. -/
  names : ∀ f ∈ l.fields, ':' ∉ f.name.toList
  /-- The identity is one of the fields. -/
  identity : l.identity ∈ l.fields ∧ l.identity.primaryKey = true
  /-- No other field is the identity. -/
  onlyKey : ∀ f ∈ l.fields, f.primaryKey = true → f = l.identity

namespace Schema

variable {space : String} {s : Schema} {l : Layout}

/-- What a layout takes over from its declaration, and the checks that the declaration has
passed. -/
structure LaidOut (space : String) (s : Schema) (l : Layout) : Prop where
  tag : l.tag = s.toModelTag
  keys : l.keys = .ofModel space s.name
  fields : l.fields = s.fields
  /-- The model can be named in keys. -/
  name : isKeyName s.name = true
  /-- The identity and the version field are those that the checks of the fields have found. -/
  checked : checkFields [] ⟨none, none⟩ s.fields = .ok ⟨some l.identity, l.versionField⟩
  ordering : s.checkOrdering = .ok l.defaultOrdering
  structures : checkStructures [] s.structures = .ok ()

/-- A declaration is laid out if it passes its checks one behind the other. -/
theorem layout_eq_ok_iff : s.layout space = .ok l ↔ LaidOut space s l := by
  unfold layout
  simp only [unless_throw_ok_iff, bind_ok_iff]
  constructor
  · rintro ⟨hname, ⟨identity?, version⟩, hfields, hrest⟩
    cases identity? with
    | none => cases hrest
    | some identity =>
      simp only [bind_ok_iff, pure_ok_iff] at hrest
      obtain ⟨_, rfl, ordering, hordering, ⟨⟩, hstructures, rfl⟩ := hrest
      exact ⟨rfl, rfl, rfl, by simpa using hname, hfields, hordering, hstructures⟩
  · rintro ⟨htag, hkeys, hfields, hname, hchecked, hordering, hstructures⟩
    refine ⟨by simpa using hname, _, hchecked, ?_⟩
    simp only [bind_ok_iff, pure_ok_iff]
    refine ⟨_, rfl, _, hordering, ⟨⟩, hstructures, ?_⟩
    rw [← hkeys, ← htag, ← hfields]

theorem layout_ok (h : s.layout space = .ok l) : LaidOut space s l := layout_eq_ok_iff.mp h

/-- A layout has the name of its declaration. -/
theorem name_of_layout_ok (h : s.layout space = .ok l) : l.name = s.name :=
  congrArg ModelTag.name (layout_ok h).tag

/-- A declaration passes its checks just if it is admissible, and the layout holds what there is to
find in it. -/
theorem laidOut_iff :
    LaidOut space s l ↔ s.Admissible ∧ l.tag = s.toModelTag ∧ l.keys = .ofModel space s.name ∧
      l.fields = s.fields ∧ Found.ofFields s.fields = ⟨some l.identity, l.versionField⟩ ∧
      l.defaultOrdering = s.ordering.map SortOrder.read := by
  have hnone : FieldsAdmissible [] := ⟨by simp, by simp, by simp, by simp⟩
  have hchecks : checkFields [] ⟨none, none⟩ s.fields = .ok ⟨some l.identity, l.versionField⟩ ↔
      FieldsAdmissible s.fields ∧ ⟨some l.identity, l.versionField⟩ = Found.ofFields s.fields :=
    checkFields_eq_ok_iff hnone
  constructor
  · rintro ⟨htag, hkeys, hfields, hname, hchecked, hordering, hstructures⟩
    obtain ⟨hall, hfound⟩ := hchecks.mp hchecked
    obtain ⟨hnumber, horder⟩ := (checkOrdering_eq_ok_iff hall).mp hordering
    obtain ⟨hnames, hdistinct⟩ := checkStructures_eq_ok_iff.mp hstructures
    refine ⟨⟨?_, hall, ?_, hnumber, fun name h => (hnames name h).1, hdistinct⟩, htag, hkeys,
      hfields, hfound.symm, horder⟩
    · rwa [← isKeyName_eq_isIdentifier]
    · -- an identity has been found
      have hsome : ¬s.fields.countP (·.primaryKey) = 0 := by
        rw [← identity_ofFields_eq_none_iff, ← hfound]
        simp
      have hone := hall.oneKey
      omega
  · rintro ⟨h, htag, hkeys, hfields, hfound, horder⟩
    refine ⟨htag, hkeys, hfields, ?_, hchecks.mpr ⟨h.fields, hfound.symm⟩,
      (checkOrdering_eq_ok_iff h.fields).mpr ⟨h.ordering, horder⟩,
      checkStructures_eq_ok_iff.mpr ⟨fun name hmem => ⟨h.structures name hmem, by simp⟩,
        h.distinctStructures⟩⟩
    rw [isKeyName_eq_isIdentifier]
    exact h.name

/-- The identity of a layout is the field that is marked. -/
theorem LaidOut.identity (h : LaidOut space s l) :
    l.identity ∈ s.fields ∧ l.identity.primaryKey = true := by
  obtain ⟨-, -, -, -, hfound, -⟩ := laidOut_iff.mp h
  have hidentity : s.fields.find? (·.primaryKey) = some l.identity :=
    congrArg Found.identity hfound
  exact ⟨List.mem_of_find?_eq_some hidentity, List.find?_some hidentity⟩

/-- The version field of a layout is the one that is marked. -/
theorem LaidOut.versionField_eq_some_iff (h : LaidOut space s l) {name : String} :
    l.versionField = some name ↔ ∃ f ∈ s.fields, f.version = true ∧ f.name = name := by
  obtain ⟨hadmissible, -, -, -, hfound, -⟩ := laidOut_iff.mp h
  have hversion : l.versionField = (s.fields.find? (·.version)).map (·.name) :=
    (congrArg Found.version hfound).symm
  rw [hversion, Option.map_eq_some_iff]
  constructor
  · rintro ⟨f, hf, hname⟩
    exact ⟨f, List.mem_of_find?_eq_some hf, List.find?_some hf, hname⟩
  · rintro ⟨f, hf, hmarked, hname⟩
    obtain ⟨g, hg⟩ := Option.isSome_iff_exists.mp (List.find?_isSome.mpr ⟨f, hf, hmarked⟩)
    refine ⟨g, hg, ?_⟩
    rw [← hname, eq_of_countP_le_one hadmissible.fields.oneVersion (List.mem_of_find?_eq_some hg)
      (List.find?_some hg) hf hmarked]

/-- The default order of a layout is that by one of its numbers. -/
theorem LaidOut.numeric (h : LaidOut space s l) {order : SortOrder}
    (horder : l.defaultOrdering = some order) :
    ∃ f ∈ s.fields, f.kind.isNumeric = true ∧ f.name = order.field := by
  obtain ⟨hadmissible, -, -, -, -, hread⟩ := laidOut_iff.mp h
  rw [hread, Option.map_eq_some_iff] at horder
  obtain ⟨spec, hspec, rfl⟩ := horder
  obtain ⟨f, hf, hnumeric, hby⟩ := hadmissible.ordering spec hspec
  have hminus : '-' ∉ f.name.toList :=
    not_mem_of_isKeyName (hadmissible.fields.each f hf).isKeyName (by decide) (by decide)
  exact ⟨f, hf, hnumeric, ((field_read_eq_iff hminus).mpr hby).symm⟩

/-- A declaration can be laid out just if it is admissible. -/
theorem exists_layout_iff : (∃ l, s.layout space = .ok l) ↔ s.Admissible := by
  simp only [layout_eq_ok_iff, laidOut_iff]
  constructor
  · rintro ⟨l, h, -⟩
    exact h
  · intro h
    -- just one field is the identity, so that one is found
    have hsome : (Found.ofFields s.fields).identity ≠ none := by
      rw [ne_eq, identity_ofFields_eq_none_iff, h.key]
      exact Nat.one_ne_zero
    obtain ⟨identity, hidentity⟩ := Option.ne_none_iff_exists'.mp hsome
    let l : Layout := ⟨s.toModelTag, .ofModel space s.name, identity, s.fields,
      s.ordering.map SortOrder.read, (Found.ofFields s.fields).version⟩
    refine ⟨l, h, rfl, rfl, rfl, ?_, rfl⟩
    rw [← hidentity]

/-- A declaration is laid out just if it is admissible, whichever of its patterns compile. The
layout then has the identity, the default order and the version field that are declared. -/
theorem layout_iff_admissible (space : String) (s : Schema) :
    ((∃ l, s.layout space = .ok l) ↔ s.Admissible) ∧
      ∀ l, s.layout space = .ok l →
        (l.identity ∈ s.fields ∧ l.identity.primaryKey = true) ∧
        l.defaultOrdering.map SortOrder.text = s.ordering ∧
        (∀ order, l.defaultOrdering = some order →
          ∃ f ∈ s.fields, f.kind.isNumeric = true ∧ f.name = order.field) ∧
        ∀ name, l.versionField = some name ↔
          ∃ f ∈ s.fields, f.version = true ∧ f.name = name := by
  refine ⟨exists_layout_iff, fun l h => ?_⟩
  have hlaid := layout_ok h
  refine ⟨hlaid.identity, ?_, fun _ => hlaid.numeric, fun _ => hlaid.versionField_eq_some_iff⟩
  obtain ⟨-, -, -, -, -, horder⟩ := laidOut_iff.mp hlaid
  have htext : SortOrder.text ∘ SortOrder.read = id := funext text_read
  rw [horder, Option.map_map, htext, Option.map_id_apply]

/-- Every layout of a declaration has been checked. -/
theorem layout_wellFormed (h : s.layout space = .ok l) : l.WellFormed := by
  have hlaid := layout_ok h
  obtain ⟨hadmissible, -, -, hfields, -, -⟩ := laidOut_iff.mp hlaid
  have hall := hadmissible.fields
  rw [← hfields] at hall
  obtain ⟨hidentity, hkey⟩ := hlaid.identity
  rw [← hfields] at hidentity
  exact ⟨hall.distinct, fun f hf => colon_not_mem_of_isKeyName (hall.each f hf).isKeyName,
    ⟨hidentity, hkey⟩, fun f hf hf' => eq_of_countP_le_one hall.oneKey hf hf' hidentity hkey⟩

/-- The identity of a layout is an integer or a text, and one that the store assigns is an
integer. -/
theorem layout_identity (h : s.layout space = .ok l) :
    (l.identity.kind = .int ∨ l.identity.kind = .text) ∧
      (l.autoId = true → l.identity.kind = .int) := by
  obtain ⟨hmem, hkey⟩ := (layout_ok h).identity
  obtain ⟨hadmissible, -⟩ := laidOut_iff.mp (layout_ok h)
  have hidentity := hadmissible.fields.each _ hmem
  exact ⟨hidentity.key hkey, fun hauto => (hidentity.auto hauto).2⟩

/-- The field found to count versions is the one that is marked, an integer beside the identity. -/
structure VersionChecked (fields : List Field) (found : Found) : Prop where
  /-- A marked field is the one found. -/
  marked : ∀ f ∈ fields, f.version = true →
    found.version = some f.name ∧ f.kind = .int ∧ f.primaryKey = false
  /-- The one found is marked. -/
  found : ∀ name, found.version = some name → ∃ f ∈ fields, f.name = name ∧ f.version = true

/-- The version field of a layout is the one that is marked, an integer beside the identity. -/
theorem layout_version (h : s.layout space = .ok l) :
    VersionChecked l.fields ⟨some l.identity, l.versionField⟩ := by
  have hlaid := layout_ok h
  obtain ⟨hadmissible, -⟩ := laidOut_iff.mp hlaid
  rw [hlaid.fields]
  constructor
  case marked =>
    intro f hf hmarked
    exact ⟨hlaid.versionField_eq_some_iff.mpr ⟨f, hf, hmarked, rfl⟩,
      (hadmissible.fields.each f hf).version hmarked⟩
  case found =>
    intro name hname
    obtain ⟨f, hf, hmarked, hname⟩ := hlaid.versionField_eq_some_iff.mp hname
    exact ⟨f, hf, hname, hmarked⟩

/-- The field of the default order of a layout is a number. -/
theorem layout_ordering (h : s.layout space = .ok l) {order : SortOrder}
    (horder : l.defaultOrdering = some order) {f : Field}
    (hf : l.field? order.field = some f) : f.kind.isNumeric = true := by
  obtain ⟨g, hg, hnumeric, hname⟩ := (layout_ok h).numeric horder
  rw [← (layout_ok h).fields] at hg
  have hfound : l.field? order.field = some g :=
    (find?_eq_some_iff_of_nodup (layout_wellFormed h).distinct).mpr ⟨hg, hname⟩
  cases hf.symm.trans hfound
  exact hnumeric

/-- The containers of a layout have no colons in their names. -/
theorem layout_structures (h : s.layout space = .ok l) :
    ∀ name ∈ l.structures, ':' ∉ name.toList := by
  obtain ⟨hadmissible, htag, -⟩ := laidOut_iff.mp (layout_ok h)
  intro name hname
  rw [Layout.structures, htag] at hname
  apply colon_not_mem_of_isKeyName
  rw [isKeyName_eq_isIdentifier]
  exact hadmissible.structures name hname

end Schema

/-- What is found under a name is a field of that name. -/
theorem Layout.of_field? {l : Layout} {name : String} {f : Field} (h : l.field? name = some f) :
    f ∈ l.fields ∧ f.name = name :=
  ⟨List.mem_of_find?_eq_some h, by simpa using List.find?_some h⟩

namespace Layout.WellFormed

variable {l : Layout} (hl : l.WellFormed)
include hl

/-- No field besides the identity has its name. -/
theorem name_ne {f : Field} (hf : f ∈ l.fields) (hkey : f.primaryKey = false) :
    f.name ≠ l.identity.name := by
  intro hname
  rw [List.inj_on_of_nodup_map hl.distinct hf hl.identity.1 hname, hl.identity.2] at hkey
  cases hkey

/-- A field is found under its name, and under no other. -/
theorem field?_eq_some_iff {name : String} {f : Field} :
    l.field? name = some f ↔ f ∈ l.fields ∧ f.name = name :=
  find?_eq_some_iff_of_nodup hl.distinct

/-- The field that counts versions is one besides the identity. -/
theorem versionField_ne
    (hversion : Schema.VersionChecked l.fields ⟨some l.identity, l.versionField⟩) :
    l.versionField ≠ some l.identity.name := by
  intro heq
  obtain ⟨f, hf, hname, hmarked⟩ := hversion.found _ heq
  exact hl.name_ne hf (hversion.marked f hf hmarked).2.2 hname

end Layout.WellFormed

end KeyedRecords
