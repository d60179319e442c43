import KeyedRecords.Declaration.Check
import KeyedRecords.Proofs.Model.Layout

/-!
# Names that are misspelt

The names of a model and of its containers are checked twice: when the model is defined, character
by character, and when it is laid out, by a pattern. The two checks find fault with the same names
(`Definition.spelling_agrees`). A name is refused later for another reason than its spelling only
where two containers share it.
-/

namespace KeyedRecords

variable {name : String}

/-- A fault is found where its rule is broken. -/
theorem mem_faultIf {broken : Bool} {fault found : DefinitionFault} :
    found ∈ faultIf broken fault ↔ broken = true ∧ found = fault := by
  unfold faultIf
  split
  next h => simp [h]
  next h => simp [h]

namespace Definition

variable {d : Definition}

/-- What tells the model from others. -/
def tag (d : Definition) : ModelTag := ⟨d.name, d.ordering, d.structures⟩

/-- The declaration that a definition makes, once it is known what its stored fields hold. -/
def schema (d : Definition) (fields : List Field) : Schema := ⟨d.tag, fields⟩

/-- Only the check of its name finds fault with the name of a model. -/
theorem modelName_mem_faults_iff :
    .modelName name ∈ d.faults ↔ d.name = name ∧ Text.isIdentifier name = false := by
  have hordering : .modelName name ∉ d.orderingFaults := by
    unfold orderingFaults
    split <;> simp [mem_faultIf]
  have hname : .modelName name ∈ d.faults ↔ Text.isIdentifier d.name = false ∧ name = d.name := by
    simp [faults, repeatedFaults, FieldDefinition.faults, mem_faultIf, hordering]
  rw [hname]
  constructor
  · rintro ⟨hspelt, rfl⟩
    exact ⟨rfl, hspelt⟩
  · rintro ⟨rfl, hspelt⟩
    exact ⟨hspelt, rfl⟩

/-- Only the check of its name finds fault with the name of a container. -/
theorem structureName_mem_faults_iff :
    .structureName name ∈ d.faults ↔ name ∈ d.structures ∧ Text.isIdentifier name = false := by
  have hordering : .structureName name ∉ d.orderingFaults := by
    unfold orderingFaults
    split <;> simp [mem_faultIf]
  simp [faults, repeatedFaults, FieldDefinition.faults, mem_faultIf, hordering]

end Definition

/-- Whether a fault is one of the name of a model or of a container. -/
def SchemaFault.isOfTag : SchemaFault → Bool
  | .modelName _ | .badStructure _ => true
  | _ => false

namespace Schema

variable {space : String} {s : Schema} {fault : SchemaFault} {before fields : List Field}
  {found : Found} {f : Field}

section Fields

theorem checkKey_error (h : checkKey found f = .error fault) : fault.isOfTag = false := by
  unfold checkKey at h
  split_ifs at h <;> cases h <;> rfl

theorem checkVersion_error (h : checkVersion found f = .error fault) :
    fault.isOfTag = false := by
  unfold checkVersion at h
  split_ifs at h <;> cases h <;> rfl

/-- The checks of a field are about the field. -/
theorem checkField_error (h : checkField before found f = .error fault) :
    fault.isOfTag = false := by
  unfold checkField at h
  simp only [unless_throw_error_iff, bind_error_iff] at h
  -- first the name of the field, then its marks in the order of the checks
  obtain ⟨-, rfl⟩ | ⟨-, ⟨-, rfl⟩ | ⟨-, h⟩⟩ := h
  · rfl
  · rfl
  obtain hkey | ⟨_, -, ⟨-, rfl⟩ | ⟨-, h⟩⟩ := h
  · exact checkKey_error hkey
  · rfl
  obtain hversion | ⟨_, -, ⟨-, rfl⟩ | ⟨-, h⟩⟩ := h
  · exact checkVersion_error hversion
  · rfl
  · cases h

theorem checkFields_error (h : checkFields before found fields = .error fault) :
    fault.isOfTag = false := by
  induction fields generalizing before found with
  | nil => cases h
  | cons f rest ih =>
    rw [checkFields, bind_error_iff] at h
    obtain hfirst | ⟨_, -, hrest⟩ := h
    · exact checkField_error hfirst
    · exact ih hrest

theorem checkOrdering_error (h : s.checkOrdering = .error fault) : fault.isOfTag = false := by
  unfold checkOrdering at h
  split at h
  next => cases h
  next =>
    dsimp only at h
    split at h
    next =>
      cases h
      rfl
    next =>
      split at h
      next => cases h
      next =>
        cases h
        rfl

end Fields

/-- A container is refused for its spelling, or because another one has its name. -/
theorem checkStructures_error {before names : List String}
    (h : checkStructures before names = .error fault) :
    ∃ name ∈ names, fault = .badStructure name ∧
      (isKeyName name = false ∨ 1 < (before ++ names).count name) := by
  induction names generalizing before with
  | nil => cases h
  | cons first rest ih =>
    unfold checkStructures at h
    split at h
    next hbad =>
      cases h
      refine ⟨first, List.mem_cons_self, rfl, ?_⟩
      rw [Bool.or_eq_true, Bool.not_eq_true', List.contains_iff_mem] at hbad
      refine hbad.imp_right fun hbefore => ?_
      have hcount := List.count_pos_iff.mpr hbefore
      rw [List.count_append, List.count_cons_self]
      omega
    next =>
      obtain ⟨name, hname, hfault, hwhy⟩ := ih h
      rw [List.append_assoc, List.singleton_append] at hwhy
      exact ⟨name, List.mem_cons_of_mem _ hname, hfault, hwhy⟩

/-- Where a fault of the names of a declaration comes from. -/
theorem layout_error (h : s.layout space = .error fault) (hfault : fault.isOfTag = true) :
    isKeyName s.name = false ∧ fault = .modelName s.name ∨
      checkStructures [] s.structures = .error fault := by
  unfold layout at h
  simp only [unless_throw_error_iff, bind_error_iff] at h
  obtain ⟨hname, rfl⟩ | ⟨-, hrest⟩ := h
  · exact .inl ⟨by simpa using hname, rfl⟩
  obtain hfields | ⟨⟨identity?, version⟩, -, hrest⟩ := hrest
  · rw [checkFields_error hfields] at hfault
    cases hfault
  cases identity? with
  | none =>
    cases hrest
    cases hfault
  | some identity =>
    simp only [bind_error_iff] at hrest
    obtain hidentity | ⟨_, -, hordering | ⟨_, -, hstructures | ⟨_, -, hdone⟩⟩⟩ := hrest
    · cases hidentity
    · rw [checkOrdering_error hordering] at hfault
      cases hfault
    · exact .inr hstructures
    · cases hdone

/-- A declaration is refused with the name of its model just if that is misspelt. -/
theorem layout_eq_modelName_iff :
    s.layout space = .error (.modelName name) ↔ s.name = name ∧ isKeyName name = false := by
  constructor
  · intro h
    obtain ⟨hspelt, hfault⟩ | hstructures := layout_error h rfl
    · cases hfault
      exact ⟨rfl, hspelt⟩
    · obtain ⟨_, -, hfault, -⟩ := checkStructures_error hstructures
      cases hfault
  · rintro ⟨rfl, hspelt⟩
    unfold layout
    rw [unless_throw_error_iff]
    exact .inl ⟨by simpa using hspelt, rfl⟩

/-- A declaration that is refused with the name of a container has a misspelt one, or two of that
name. -/
theorem layout_badStructure (h : s.layout space = .error (.badStructure name)) :
    name ∈ s.structures ∧ (isKeyName name = false ∨ 1 < s.structures.count name) := by
  obtain ⟨-, hfault⟩ | hstructures := layout_error h rfl
  · cases hfault
  · obtain ⟨_, hmem, hfault, hwhy⟩ := checkStructures_error hstructures
    cases hfault
    exact ⟨hmem, hwhy⟩

/-- The containers of a declaration that is laid out are not misspelt. -/
theorem isKeyName_of_layout {l : Layout} (h : s.layout space = .ok l)
    (hname : name ∈ s.structures) : isKeyName name = true := by
  rw [isKeyName_eq_isIdentifier]
  exact ((checkStructures_eq_ok_iff.mp (layout_ok h).structures).1 name hname).1

end Schema

namespace Definition

/-- The pattern of names matches just the identifiers. So a definition has a fault in the name of
its model just if its declaration is refused for that name. A declaration is refused for the
spelling of a container only where the definition has that fault, and where the definition has it,
the declaration is not laid out. -/
theorem spelling_agrees (name : String) :
    (isKeyName name = true ↔ Text.isIdentifier name = true) ∧
    ∀ (d : Definition) (fields : List Field) (space : String),
      (.modelName name ∈ d.faults ↔ d.name = name ∧ isKeyName name = false) ∧
      (.structureName name ∈ d.faults ↔ name ∈ d.structures ∧ isKeyName name = false) ∧
      ((d.schema fields).layout space = .error (.modelName name) ↔ .modelName name ∈ d.faults) ∧
      ((d.schema fields).layout space = .error (.badStructure name) →
        .structureName name ∈ d.faults ∨ 1 < d.structures.count name) ∧
      (.structureName name ∈ d.faults → ∀ l, (d.schema fields).layout space ≠ .ok l) := by
  refine ⟨by rw [isKeyName_eq_isIdentifier], fun d fields space => ?_⟩
  rw [modelName_mem_faults_iff, structureName_mem_faults_iff, ← isKeyName_eq_isIdentifier]
  refine ⟨Iff.rfl, Iff.rfl, Schema.layout_eq_modelName_iff, fun hrefused => ?_, ?_⟩
  · obtain ⟨hmem, hwhy⟩ := Schema.layout_badStructure hrefused
    exact hwhy.imp_left fun hspelt => ⟨hmem, hspelt⟩
  · rintro ⟨hmem, hspelt⟩ l hl
    have hname : isKeyName name = true := Schema.isKeyName_of_layout hl hmem
    rw [hspelt] at hname
    cases hname

/-- Neither check takes a name without characters, nor one with a line end behind it. -/
example : ["hero", "_2", "", "hero\n", "2nd", "héro"].map isKeyName =
    [true, true, false, false, false, false] := by
  decide +kernel

end Definition

end KeyedRecords
