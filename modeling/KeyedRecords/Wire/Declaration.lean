import KeyedRecords.Declaration.Check
import KeyedRecords.Json.Access

/-!
# Documents of declarations

How declarations of types are read, and how definitions and their faults are written.
-/

namespace KeyedRecords

namespace Declaration

/-- The argument of an entry whose document has no more than two items. -/
def Argument.ofJson : Option Json → Argument
  | some (.text s) => .value (.text s)
  | some (.int n) => .value (.integer n)
  | some (.list texts) => .names (texts.map (·.asText))
  | _ => .absent

def attributesOfJson (j : Json) : List Attribute :=
  j.items.map fun entries =>
    entries.items.map fun item => ⟨(item.item 0).asText, .ofJson item.items[1]?⟩

/-- The type that a document describes. -/
def FieldType.ofJson : Json → FieldType
  | .object [(name, value)] =>
    if name == "option" || name == "std_option" then .optional (ofJson value)
    else .container name (ofJson value)
  | j => .named j.asText

/-- The field that a document declares. -/
def Member.ofJson (j : Json) : Member :=
  ⟨(j.get "ident").asText, .ofJson (j.get "type"), attributesOfJson (j.get "attrs")⟩

def Form.ofName : String → Form
  | "enum" => .variants
  | "tuple" => .tuple
  | "unit" => .unit
  | "union" => .overlay
  | _ => .record

/-- The declaration that a document makes. A type is generic if its brackets hold something. -/
def ofJson (j : Json) : Declaration :=
  { name := (j.get "ident").asText
    generic := (j.get "generics").asText.toList.any fun c => c != '<' && c != '>' && c != ' '
    form := .ofName (j.get "kind").asText
    attributes := attributesOfJson (j.get "attrs")
    members := (j.get "fields").items.map .ofJson }

end Declaration

def faultsToJson (kind : String) (messages : List String) : Json :=
  .ofMembers [("error", .text kind), ("messages", .ofTexts messages)]

def FieldDefinition.toJson (f : FieldDefinition) : Json :=
  .ofMembers (Mark.all.map (fun m => (m.name, .bool (f.has m))) ++ [
    ("name", .text f.name), ("stored", .bool f.isStored),
    ("storage_attrs", .bool f.hasStorageMarks), ("max_length", .ofNat? f.maxLength),
    ("pattern", .ofText? f.pattern)])

/-- The document of a definition and of the rules that it breaks. -/
def Definition.toJson (d : Definition) : Json :=
  let marked (m : Mark) : Json := .ofText? ((d.marked? m).map (·.name))
  .ofMembers [
    ("name", .text d.typeName), ("model_name", .text d.name), ("ordering", .ofText? d.ordering),
    ("structures", .ofTexts d.structures), ("stored", .ofTexts (d.storedFields.map (·.name))),
    ("primary_key", marked .primaryKey), ("state", marked .state), ("version", marked .version),
    ("fields", .ofList FieldDefinition.toJson d.fields),
    ("check", match d.faults with
      | [] => .text "ok"
      | faults => faultsToJson "Validate" (faults.map (·.message)))]

/-- The document of a declaration: of its definition, or of its fault. -/
def Declaration.toJson (d : Declaration) : Json :=
  match Definition.ofDeclaration d with
  | .ok definition => definition.toJson
  | .error fault => faultsToJson "Parse" [fault.message]

end KeyedRecords
