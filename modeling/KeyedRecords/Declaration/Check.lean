import KeyedRecords.Declaration.Definition
import KeyedRecords.Model.SortOrder
import KeyedRecords.Text.Quoted

/-!
# Checks of definitions

The rules that the parts of a definition have to keep together. All of them are checked, so that
the author of a declaration sees every fault at once; the order of the faults is the order of the
rules, and within a rule the order of the fields.
-/

namespace KeyedRecords

/-- A rule that a definition breaks. -/
inductive DefinitionFault where
  /-- The name of the model is no identifier. -/
  | modelName (name : String)
  /-- The name of a container is no identifier. -/
  | structureName (name : String)
  /-- No field is the identity. -/
  | noKey
  /-- No field holds the lifecycle. -/
  | noState
  /-- A second field has a mark that one field may have. -/
  | repeated (mark : Mark)
  /-- The field of the default order is not stored. -/
  | orderingField (field : String)
  /-- The lifecycle has other marks or rules. -/
  | markedState
  /-- A field that is not stored has marks or rules of a stored one. -/
  | markedSkip
  /-- A field besides the identity is to be assigned. -/
  | autoField
  /-- The version is the identity, or may be missing. -/
  | versionType
  /-- An assigned identity cannot be missing. -/
  | autoType
  /-- A value may be missing in two ways. -/
  | twiceOptional
deriving DecidableEq

/-- What the author of a declaration is told. -/
def DefinitionFault.message : DefinitionFault → String
  | .modelName name =>
    s!"model name {Text.quoted name} must be an identifier (letters, digits, underscores)"
  | .structureName name =>
    s!"structure name {Text.quoted name} must be an identifier (letters, digits, underscores)"
  | .noKey => "Model requires exactly one #[kvmodel(primary_key)] field"
  | .noState => "Model requires a #[kvmodel(state)] field of type InstanceState"
  | .repeated mark => s!"only one field may be marked #[kvmodel({mark.name})]"
  | .orderingField field =>
    s!"ordering field {Text.quoted field} is not a stored field of this model"
  | .markedState => "state field cannot carry other kvmodel attributes"
  | .markedSkip => "skipped field cannot carry storage attributes"
  | .autoField => "auto requires primary_key; add #[kvmodel(primary_key)] to this field"
  | .versionType => "version field must be a non-optional integer"
  | .autoType => "auto primary key must be an Option so new instances can have no id"
  | .twiceOptional => "nested Option<Option<T>> is not supported"

def faultIf (broken : Bool) (fault : DefinitionFault) : List DefinitionFault :=
  if broken then [fault] else []

/-- The rules that a field breaks by itself. -/
def FieldDefinition.faults (f : FieldDefinition) : List DefinitionFault :=
  faultIf (f.has .state && (f.has .skip || f.hasStorageMarks)) .markedState ++
  faultIf (f.has .skip && f.hasStorageMarks) .markedSkip ++
  faultIf (f.has .auto && !f.has .primaryKey) .autoField ++
  faultIf (f.has .version && (f.has .primaryKey || f.type.isOptional)) .versionType ++
  faultIf (f.has .primaryKey && f.has .auto && !f.type.isOptional) .autoType ++
  faultIf f.type.isTwiceOptional .twiceOptional

namespace Definition

/-- One fault for each field after the first with a mark. -/
def repeatedFaults (d : Definition) (m : Mark) : List DefinitionFault :=
  ((d.fields.filter (·.has m)).drop 1).map fun _ => .repeated m

/-- A default order is that of a stored field. -/
def orderingFaults (d : Definition) : List DefinitionFault :=
  match d.ordering with
  | none => []
  | some spec =>
    let field := (SortOrder.read spec).field
    faultIf (!d.storedFields.any (·.name == field)) (.orderingField field)

/-- The rules that a definition breaks. -/
def faults (d : Definition) : List DefinitionFault :=
  faultIf (!Text.isIdentifier d.name) (.modelName d.name) ++
  faultIf (d.marked? .primaryKey).isNone .noKey ++ d.repeatedFaults .primaryKey ++
  faultIf (d.marked? .state).isNone .noState ++ d.repeatedFaults .state ++
  d.repeatedFaults .version ++
  d.orderingFaults ++
  d.structures.flatMap (fun s => faultIf (!Text.isIdentifier s) (.structureName s)) ++
  d.fields.flatMap FieldDefinition.faults

end Definition

end KeyedRecords
