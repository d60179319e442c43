import KeyedRecords.Model.Shaped
import KeyedRecords.Pattern.Compiled

/-!
# Sample models

A handful of small models that between them use every kind of field, every rule and both kinds of
collections. Examples and trials of the library are written over them.
-/

namespace KeyedRecords.Sample

/-- An identity that the store assigns. -/
def assignedId (shape : FieldShape) : ShapedField :=
  let f := ShapedField.plain "id" (.optional shape)
  { f with field := { f.field with primaryKey := true, auto := true } }

/-- An identity that the application chooses. -/
def chosenId (name : String) (shape : FieldShape) : ShapedField :=
  let f := ShapedField.plain name shape
  { f with field := { f.field with primaryKey := true } }

/-- A field of which an index is kept. -/
def indexed (name : String) (shape : FieldShape) : ShapedField :=
  let f := ShapedField.plain name shape
  { f with field := { f.field with index := true } }

/-- A field whose values belong to one id each. -/
def uniqueField (name : String) (shape : FieldShape) : ShapedField :=
  let f := ShapedField.plain name shape
  { f with field := f.field.withUnique true }

/-- A field that counts versions. -/
def versionField (name : String) (shape : FieldShape) : ShapedField :=
  let f := ShapedField.plain name shape
  { f with field := { f.field with version := true } }

/-- A text that may be empty. -/
def blankText (name : String) : ShapedField :=
  let f := ShapedField.plain name .text
  { f with field := { f.field with blank := true } }

/-- A text of limited length. -/
def shortText (name : String) (max : Nat) : ShapedField :=
  let f := ShapedField.plain name .text
  { f with field := { f.field with maxLength := some max } }

/-- No rules of its own. -/
def noRules (_ : Record) : ValidationFailures := []

/-- Planets, in the order of their scores, with containers for moons and a log. -/
def planet : ShapedModel where
  tag := ⟨"planet", some "score", ["moons", "log"]⟩
  fields := [assignedId .int64, .plain "name" .text, indexed "group" .text,
    uniqueField "code" (.optional .text), .plain "score" .int64, blankText "notes"]
  ownFailures := noRules

/-- Satellites, known by their call signs. -/
def satellite : ShapedModel where
  tag := ⟨"satellite", none, []⟩
  fields :=
    let target := shortText "target" 8
    [chosenId "callsign" .text,
      { target with field := { target.field with pattern := some (.compile "^[a-z]+$") } },
      indexed "active" .bool]
  ownFailures := noRules

/-- Heroes, with versions. -/
def hero : ShapedModel where
  tag := ⟨"hero", none, []⟩
  fields := [assignedId .int64, shortText "name" 12, indexed "team" .text,
    uniqueField "handle" (.optional .text), versionField "version" .int64]
  ownFailures := noRules

/-- Documents about stars, with a field of every shape, the highest rank first. -/
def starDoc : ShapedModel where
  tag := ⟨"star_doc", some "-rank", []⟩
  fields := [chosenId "slug" .text, .plain "rank" .float64, indexed "flag" .bool,
    indexed "blob" (.optional .bytes), .plain "meta" .json, .plain "size" .float32,
    uniqueField "serial" .nat32, indexed "weight" (.optional .float64), versionField "rev" .int32]
  ownFailures := noRules

/-- A model with small ids. -/
def tiny : ShapedModel where
  tag := ⟨"tiny", none, []⟩
  fields := [assignedId .int32, indexed "type" .nat32, uniqueField "a" (.optional .text),
    uniqueField "b" (.optional .int64)]
  ownFailures := noRules

/-- Notes, with ids that the application may leave out. -/
def note : ShapedModel where
  tag := ⟨"note", none, []⟩
  fields :=
    let text := indexed "text" .text
    [chosenId "id" (.optional .int64),
      { text with field := { text.field with
          blank := true, maxLength := some 5, pattern := some (.compile "^[a-c]*$") } }]
  ownFailures := noRules

/-- The rules of the model `checked`: low is at most high, and one title is taken. -/
def checkedRules (r : Record) : ValidationFailures :=
  let range := match r.get? "low", r.get? "high" with
    | some (.int low), some (.int high) =>
      if high < low then [ValidationFailure.whole "low exceeds high"] else []
    | _, _ => []
  let title := match r.get? "title" with
    | some (.text "custom") => [ValidationFailure.custom "title" "is reserved"]
    | _ => []
  range ++ title

/-- A model with rules of its own. -/
def checked : ShapedModel where
  tag := ⟨"checked", none, []⟩
  fields := [chosenId "key" .text, .plain "low" .int64, indexed "high" .int64,
    .plain "title" .text]
  ownFailures := checkedRules

/-- A model that no one registers. -/
def ghost : ShapedModel where
  tag := ⟨"ghost", none, []⟩
  fields := [chosenId "id" .text]
  ownFailures := noRules

/-- All sample models; the last is meant to stay unregistered. -/
def all : List ShapedModel := [planet, satellite, hero, starDoc, tiny, note, checked, ghost]

/-- The sample model of a name. -/
def byName? (name : String) : Option ShapedModel := all.find? (·.tag.name == name)

end KeyedRecords.Sample
