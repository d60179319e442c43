import KeyedRecords.Declaration.Basic
import KeyedRecords.Number.Integer
import KeyedRecords.Text.Identifier

/-!
# Definitions of models

What the attributes of a declaration mean. A `Definition` has the name of the model, its order, its
containers, and for each field the marks and rules that its attributes give it. Reading stops at the
first attribute that cannot be understood; whether the parts fit together is checked later.
-/

namespace KeyedRecords

/-- What a field can be marked as. -/
inductive Mark where
  /-- The identity. -/
  | primaryKey
  /-- The store assigns the identity. -/
  | auto
  /-- An index is kept. -/
  | index
  /-- A value belongs to one instance at most. -/
  | unique
  /-- An empty text is allowed. -/
  | blank
  /-- The field counts versions. -/
  | version
  /-- The field is not stored. -/
  | skip
  /-- The field holds the lifecycle of its instance. -/
  | state
deriving DecidableEq

namespace Mark

/-- How a mark is written. -/
def name : Mark → String
  | .primaryKey => "primary_key"
  | .auto => "auto"
  | .index => "index"
  | .unique => "unique"
  | .blank => "blank"
  | .version => "version"
  | .skip => "skip"
  | .state => "state"

def all : List Mark := [.primaryKey, .auto, .index, .unique, .blank, .version, .skip, .state]

/-- The mark that a key stands for. -/
def ofName? (key : String) : Option Mark := all.find? (·.name == key)

/-- Whether the mark says how a field is stored. -/
def isStorage : Mark → Bool
  | .skip | .state => false
  | _ => true

end Mark

/-- Why a declaration does not define a model. -/
inductive DeclarationFault where
  /-- The type has parameters. -/
  | generic
  /-- The type has variants. -/
  | variants
  /-- The fields of the type share their place. -/
  | overlay
  /-- The fields of the type have no names. -/
  | unnamedFields
  /-- The type has no fields. -/
  | noFields
  /-- A key has no meaning for a type. -/
  | unknownForType
  /-- A key has no meaning for a field. -/
  | unknownForField (key : String)
  /-- An equals sign is missing behind a key. -/
  | noValue
  /-- A list is missing behind a key, which may be the last of its attribute. -/
  | noNames (last : Bool)
  /-- A mark is followed by something else than the next entry. -/
  | notSeparated
  /-- The value of a key is no text. -/
  | notText
  | patternNotText
  | lengthNotInteger
  /-- A length is below zero. -/
  | lengthNegative
  /-- A length is beyond 64 bits. -/
  | lengthTooLarge
deriving DecidableEq

/-- What the author of a declaration is told. -/
def DeclarationFault.message : DeclarationFault → String
  | .generic => "Model cannot be derived for generic structs"
  | .variants => "Model can only be derived for structs, not enums"
  | .overlay => "Model can only be derived for structs, not unions"
  | .unnamedFields => "Model requires a struct with named fields, not a tuple struct"
  | .noFields => "Model requires a struct with fields, not a unit struct"
  | .unknownForType => "unknown kvmodel struct attribute (expected name, ordering or structures)"
  | .unknownForField key => s!"unknown kvmodel field attribute `{key}`"
  | .noValue => "expected `=`"
  | .noNames false => "expected parentheses"
  | .noNames true => "unexpected end of input, expected parentheses"
  | .notSeparated => "expected `,`"
  | .notText => "expected string literal"
  | .patternNotText => "expected string literal for pattern"
  | .lengthNotInteger => "expected integer literal for max_length"
  | .lengthNegative => "invalid digit found in string"
  | .lengthTooLarge => "number too large to fit in target type"

namespace Declaration

/-- The constant behind a key. -/
def Argument.literal : Argument → Except DeclarationFault Literal
  | .value literal => .ok literal
  | _ => .error .noValue

/-- The text behind a key. -/
def Argument.text (a : Argument) (otherwise : DeclarationFault) :
    Except DeclarationFault String := do
  match ← a.literal with
  | .text s => .ok s
  | .integer _ => .error otherwise

/-- The length behind a key. -/
def Argument.length (a : Argument) : Except DeclarationFault Nat := do
  match ← a.literal with
  | .text _ => .error .lengthNotInteger
  | .integer n =>
    if n < 0 then .error .lengthNegative
    else if n.toNat < Nat.pow 2 64 then .ok n.toNat
    else .error .lengthTooLarge

/-- The list behind a key. -/
def Argument.list (a : Argument) (last : Bool) : Except DeclarationFault (List String) :=
  match a with
  | .names texts => .ok texts
  | .absent => .error (.noNames last)
  | .value _ => .error (.noNames false)

end Declaration

/-- What the attributes of a type say. -/
structure TypeSettings where
  /-- The name of the model, if it is given; the last one counts. -/
  name : Option String
  /-- The default order; the last one counts. -/
  ordering : Option String
  /-- The structured containers of an instance, from all lists. -/
  structures : List String
deriving DecidableEq

namespace TypeSettings

/-- Takes in one entry, which may be the last of its attribute. -/
def add (s : TypeSettings) (item : Declaration.Item) (last : Bool) :
    Except DeclarationFault TypeSettings :=
  match item.key with
  | "name" => do return { s with name := some (← item.argument.text .notText) }
  | "ordering" => do return { s with ordering := some (← item.argument.text .notText) }
  | "structures" => do
    return { s with structures := s.structures ++ (← item.argument.list last) }
  | _ => .error .unknownForType

/-- Takes in the entries of an attribute, in order. -/
def addAll (s : TypeSettings) : Declaration.Attribute → Except DeclarationFault TypeSettings
  | [] => .ok s
  | item :: rest => do (← s.add item rest.isEmpty).addAll rest

/-- What the attributes of a type say. -/
def ofAttributes (attributes : List Declaration.Attribute) :
    Except DeclarationFault TypeSettings :=
  attributes.foldlM addAll ⟨none, none, []⟩

end TypeSettings

/-- What a declaration says of one field. -/
structure FieldDefinition where
  /-- The name of the field. -/
  name : String
  /-- The type of its values. -/
  type : Declaration.FieldType
  /-- Its marks, in the order in which they are written. -/
  marks : List Mark
  /-- The greatest length of a text; the last one counts. -/
  maxLength : Option Nat
  /-- The pattern that a text has to match; the last one counts. -/
  pattern : Option String
deriving DecidableEq

namespace FieldDefinition

/-- Whether the field has a mark. -/
def has (f : FieldDefinition) (m : Mark) : Bool := f.marks.contains m

/-- Whether the field is part of the stored record. -/
def isStored (f : FieldDefinition) : Bool := !f.has .skip && !f.has .state

/-- Whether anything is said of how the field is stored. -/
def hasStorageMarks (f : FieldDefinition) : Bool :=
  f.marks.any Mark.isStorage || f.maxLength.isSome || f.pattern.isSome

/-- Takes in one entry. A mark stands alone. -/
def add (f : FieldDefinition) (item : Declaration.Item) :
    Except DeclarationFault FieldDefinition :=
  match Mark.ofName? item.key, item.argument with
  | some m, .absent => .ok { f with marks := f.marks ++ [m] }
  | some _, _ => .error .notSeparated
  | none, argument =>
    match item.key with
    | "max_length" => do return { f with maxLength := some (← argument.length) }
    | "pattern" => do return { f with pattern := some (← argument.text .patternNotText) }
    | key => .error (.unknownForField key)

/-- What a declaration says of one of its fields. -/
def ofMember (m : Declaration.Member) : Except DeclarationFault FieldDefinition :=
  m.attributes.flatten.foldlM add ⟨m.name, m.type, [], none, none⟩

end FieldDefinition

/-- What a declaration says of a model. -/
structure Definition where
  /-- The name of the declared type. -/
  typeName : String
  /-- The name of the model. -/
  name : String
  /-- The default order. -/
  ordering : Option String
  /-- The structured containers of an instance. -/
  structures : List String
  /-- The fields, in the order of declaration. -/
  fields : List FieldDefinition
deriving DecidableEq

namespace Definition

/-- The fields that are part of the stored record. -/
def storedFields (d : Definition) : List FieldDefinition := d.fields.filter (·.isStored)

/-- The first field with a mark. -/
def marked? (d : Definition) (m : Mark) : Option FieldDefinition := d.fields.find? (·.has m)

/-- The definitions of the fields of a declaration, which has to have named ones. -/
def fieldsOf (d : Declaration) : Except DeclarationFault (List FieldDefinition) :=
  match d.form with
  | .record => d.members.mapM FieldDefinition.ofMember
  | .tuple => .error .unnamedFields
  | .unit => .error .noFields
  | .variants => .error .variants
  | .overlay => .error .overlay

/-- What a declaration says, or its first fault: parameters come before the attributes of the type,
these before its form, and this before the fields. A model that is not named takes the name of its
type in words of lower-case letters. -/
def ofDeclaration (d : Declaration) : Except DeclarationFault Definition := do
  if d.generic then throw .generic
  let settings ← TypeSettings.ofAttributes d.attributes
  let fields ← fieldsOf d
  return { typeName := d.name, name := settings.name.getD (Text.snakeCase d.name)
           ordering := settings.ordering, structures := settings.structures, fields }

end Definition

end KeyedRecords
