import KeyedRecords.Field.Basic
import KeyedRecords.Model.Config
import KeyedRecords.Model.Keys
import KeyedRecords.Model.SortOrder
import KeyedRecords.Pattern.Reading

/-!
# Schemas and layouts

A `Schema` is what the author of a model declares; a `Layout` is what a catalog makes of it: the
identity field, the default order, the version field, and the keys. `Schema.layout` refuses
declarations that are not well formed, with the first fault it meets.
-/

namespace KeyedRecords

/-- What tells two models apart. -/
structure ModelTag where
  /-- The name, used in every key. -/
  name : String
  /-- The default order, as declared. -/
  ordering : Option String
  /-- The structured containers of an instance. -/
  structures : List String
deriving DecidableEq

/-- The declaration of a model. -/
structure Schema extends ModelTag where
  /-- The fields, in the order of declaration. -/
  fields : List Field

/-- What a catalog knows of a registered model. -/
structure Layout where
  /-- What tells the model from others. -/
  tag : ModelTag
  keys : ModelKeys
  identity : Field
  /-- The fields, in the order of declaration. -/
  fields : List Field
  /-- The order of the collections in the store. -/
  defaultOrdering : Option SortOrder
  /-- The field that counts versions. -/
  versionField : Option String

namespace Layout

def name (l : Layout) : String := l.tag.name

/-- The structured containers of an instance. -/
def structures (l : Layout) : List String := l.tag.structures

/-- Whether the store assigns ids. -/
def autoId (l : Layout) : Bool := l.identity.auto

def field? (l : Layout) (name : String) : Option Field := l.fields.find? (·.name == name)

/-- The fields that can be sorted on. -/
def scalarFields (l : Layout) : List Field := l.fields.filter (·.kind.isScalar)

/-- The fields besides the identity that an index is kept of. -/
def indexedFields (l : Layout) : List Field := l.fields.filter fun f => !f.primaryKey && f.index

/-- Whether the collections of the model are sorted. -/
def isOrdered (l : Layout) : Bool := l.defaultOrdering.isSome

end Layout

/-- The pattern of names that may become parts of keys. -/
def namePattern : String := "^[A-Za-z_][A-Za-z0-9_]*$"

/-- Whether a name may become part of a key. -/
def isKeyName (name : String) : Bool := Pattern.matchesText namePattern name

/-- What is wrong with a declaration. -/
inductive SchemaFault where
  /-- The name of the model is no identifier. -/
  | modelName (name : String)
  /-- The name of a field is no identifier. -/
  | fieldName (name : String)
  /-- Two fields have one name. -/
  | declaredTwice (field : String)
  /-- Two fields are the identity. -/
  | secondKey
  /-- The identity is neither an integer nor a text. -/
  | keyKind (field : String)
  /-- An assigned identity is no integer. -/
  | autoKind (field : String)
  /-- A field besides the identity is to be assigned. -/
  | autoField (field : String)
  /-- A field of this kind cannot be indexed. -/
  | unindexable (kind : FieldKind) (field : String)
  /-- The version is no integer, or is the identity. -/
  | versionKind (field : String)
  /-- Two fields count versions. -/
  | secondVersion
  /-- A pattern does not compile. -/
  | badPattern (field : String)
  /-- No field is the identity. -/
  | noKey
  /-- The field of the default order does not exist. -/
  | orderingField (field : String)
  /-- The field of the default order is no number. -/
  | orderingKind (field : String)
  /-- A container has no identifier for a name, or the name of another. -/
  | badStructure (name : String)
deriving DecidableEq

/-- What the caller is told about a fault. -/
def SchemaFault.message : SchemaFault → String
  | .modelName name => s!"model name {Text.quoted name} is not an identifier"
  | .fieldName name => s!"field name {Text.quoted name} is not an identifier"
  | .declaredTwice field => s!"field {Text.quoted field} declared twice"
  | .secondKey => "more than one primary_key field"
  | .keyKind field => s!"primary key {Text.quoted field} must be an integer or text field"
  | .autoKind field => s!"auto primary key {Text.quoted field} must be an integer field"
  | .autoField field => s!"auto on non-identity field {Text.quoted field}"
  | .unindexable kind field => s!"{kind.name} field {Text.quoted field} cannot be indexed"
  | .versionKind field => s!"version field {Text.quoted field} must be a non-identity integer"
  | .secondVersion => "more than one version field"
  | .badPattern field => s!"field {Text.quoted field}: invalid regex pattern"
  | .noKey => "no primary_key field"
  | .orderingField field => s!"ordering field {Text.quoted field} does not exist"
  | .orderingKind field =>
    s!"ordering field {Text.quoted field} must be numeric to score a sorted set"
  | .badStructure name => s!"invalid or duplicate structure {Text.quoted name}"

namespace Schema

/-- What the checks of the fields have found so far. -/
structure Found where
  identity : Option Field
  /-- The version field. -/
  version : Option String

/-- Checks of a field that is the identity, or claims to be assigned like one. -/
def checkKey (found : Found) (f : Field) : Except SchemaFault Unit :=
  if f.primaryKey then
    if found.identity.isSome then .error .secondKey
    else if f.kind ≠ .int ∧ f.kind ≠ .text then .error (.keyKind f.name)
    else if f.auto ∧ f.kind ≠ .int then .error (.autoKind f.name)
    else .ok ()
  else if f.auto then .error (.autoField f.name)
  else .ok ()

/-- Checks of a field that counts versions. -/
def checkVersion (found : Found) (f : Field) : Except SchemaFault Unit :=
  if !f.version then .ok ()
  else if f.kind ≠ .int ∨ f.primaryKey then .error (.versionKind f.name)
  else if found.version.isSome then .error .secondVersion
  else .ok ()

/-- Checks of one field behind the fields before it. -/
def checkField (before : List Field) (found : Found) (f : Field) : Except SchemaFault Found := do
  if !isKeyName f.name then throw (.fieldName f.name)
  if before.any (·.name == f.name) then throw (.declaredTwice f.name)
  checkKey found f
  if f.index && !f.kind.isScalar then throw (.unindexable f.kind f.name)
  checkVersion found f
  if f.pattern.any fun p => !p.compiles then throw (.badPattern f.name)
  return { identity := if f.primaryKey then some f else found.identity
           version := if f.version then some f.name else found.version }

/-- Checks of the fields behind `before`, in order. -/
def checkFields (before : List Field) (found : Found) :
    List Field → Except SchemaFault Found
  | [] => .ok found
  | f :: rest => do
    let found ← checkField before found f
    checkFields (before ++ [f]) found rest

/-- The default order of a declaration. -/
def checkOrdering (s : Schema) : Except SchemaFault (Option SortOrder) :=
  match s.ordering with
  | none => .ok none
  | some spec =>
    let order := SortOrder.read spec
    match s.fields.find? (·.name == order.field) with
    | none => .error (.orderingField order.field)
    | some f => if f.kind.isNumeric then .ok (some order) else .error (.orderingKind order.field)

/-- Checks of the containers behind `before`, in order. -/
def checkStructures (before : List String) : List String → Except SchemaFault Unit
  | [] => .ok ()
  | name :: rest =>
    if !isKeyName name || before.contains name then .error (.badStructure name)
    else checkStructures (before ++ [name]) rest

/-- The layout of a declaration in a namespace, or its first fault. -/
def layout (space : String) (s : Schema) : Except SchemaFault Layout := do
  if !isKeyName s.name then throw (.modelName s.name)
  let found ← checkFields [] ⟨none, none⟩ s.fields
  let identity ← match found.identity with
    | some f => pure f
    | none => throw .noKey
  let defaultOrdering ← s.checkOrdering
  checkStructures [] s.structures
  return { tag := s.toModelTag, keys := .ofModel space s.name, identity, fields := s.fields
           defaultOrdering, versionField := found.version }

end Schema

end KeyedRecords
