import KeyedRecords.Json.Access
import KeyedRecords.Model.Layout
import KeyedRecords.Field.Shape
import KeyedRecords.Pattern.Compiled

/-!
# Documents of declarations

How declarations of models and configurations are read, and how layouts are written.
-/

namespace KeyedRecords

def FieldKind.ofName : String → FieldKind
  | "bool" => .bool
  | "int" => .int
  | "float" => .float
  | "bytes" => .bytes
  | "json" => .json
  | _ => .text

/-- The shape of a name that says nothing of missing values. -/
def FieldShape.ofPlainName : String → FieldShape
  | "bool" => .bool
  | "i64" => .int64
  | "i32" => .int32
  | "u32" => .nat32
  | "f64" => .float64
  | "f32" => .float32
  | "Bytes" => .bytes
  | "Json" => .json
  | _ => .text

def FieldShape.ofName (name : String) : FieldShape :=
  match Text.cut? "Option<" name with
  | some ("", rest) => .optional (ofPlainName (String.ofList rest.toList.dropLast))
  | _ => ofPlainName name

/-- The field that a document declares. -/
def Field.ofJson (j : Json) : Field :=
  let f := { Field.plain (j.get "name").asText (.ofName (j.get "type").asText) with
    nullable := (j.get "nullable").isTrue, primaryKey := (j.get "primary_key").isTrue
    auto := (j.get "auto").isTrue, index := (j.get "index").isTrue }
  { f.withUnique (j.get "unique").isTrue with
    blank := (j.get "blank").isTrue, version := (j.get "version").isTrue
    maxLength := (j.get "max_length").asNat?, pattern := (j.get "pattern").asText?.map .compile }

def Field.toJson (f : Field) : Json := .ofMembers [
  ("name", .text f.name), ("type", .text f.kind.name), ("nullable", .bool f.nullable),
  ("primary_key", .bool f.primaryKey), ("auto", .bool f.auto), ("index", .bool f.index),
  ("unique", .bool f.unique), ("blank", .bool f.blank), ("version", .bool f.version),
  ("max_length", .ofNat? f.maxLength), ("pattern", .ofText? (f.pattern.map (·.source))),
  ("queryable", .bool f.isQueryable)]

/-- The declaration that a document makes. -/
def Schema.ofJson (j : Json) : Schema :=
  { name := (j.get "name").asText, ordering := (j.get "ordering").asText?
    structures := (j.get "structures").asTexts, fields := (j.get "fields").items.map .ofJson }

/-- The configuration that a document describes; what it does not mention is standard. -/
def Config.ofJson (j : Json) : Config :=
  { space := (j.get "namespace").asText?.getD Config.standard.space
    queryLifetime := (j.get "ttl_ms").asNat?.getD Config.standard.queryLifetime }

/-- What a layout tells of a model. -/
def Layout.members (l : Layout) : List (String × Json) := [
  ("name", .text l.name), ("base", .text l.keys.base), ("identity", .text l.identity.name),
  ("fields", .ofList Field.toJson l.fields),
  ("default_ordering", .ofText? (l.defaultOrdering.map SortOrder.text)),
  ("ordered", .bool l.isOrdered), ("auto_id", .bool l.autoId),
  ("version_field", .ofText? l.versionField), ("structures", .ofTexts l.structures),
  ("scalar", .ofTexts (l.scalarFields.map (·.name))),
  ("indexed", .ofTexts (l.indexedFields.map (·.name)))]

end KeyedRecords
