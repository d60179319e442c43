import KeyedRecords.Field.Kind

/-!
# Fields

What a model declares about one of its fields. The library that compiles regular expressions is no
part of a field: a `TextPattern` holds what that library makes of an expression, whatever that is.
-/

namespace KeyedRecords

/-- A regular expression that texts have to match. -/
structure TextPattern where
  /-- The expression as it is written. -/
  source : String
  /-- Which texts match, unless the expression does not compile. -/
  matcher : Option (String → Bool)

namespace TextPattern

/-- Whether the expression compiles. -/
def compiles (p : TextPattern) : Bool := p.matcher.isSome

/-- Whether a text matches. An expression that does not compile matches nothing. -/
def isMatch (p : TextPattern) (s : String) : Bool := p.matcher.any (· s)

end TextPattern

/-- A field of a model. -/
structure Field where
  /-- The name, in records and in the store. -/
  name : String
  /-- How values are stored. -/
  kind : FieldKind
  /-- Whether null is a value of the field. -/
  nullable : Bool
  /-- Whether the field is the identity. -/
  primaryKey : Bool
  /-- Whether the store assigns the identity. -/
  auto : Bool
  /-- Whether an index is kept of the ids with each value. -/
  index : Bool
  /-- Whether a value belongs to one id at most. -/
  unique : Bool
  /-- Whether an empty text is a value of the field. -/
  blank : Bool
  /-- Whether the field counts the versions of its instance. -/
  version : Bool
  /-- The greatest length of a text, in characters. -/
  maxLength : Option Nat
  /-- The pattern that a text has to match. -/
  pattern : Option TextPattern

namespace Field

/-- A field with nothing but a name and a kind. -/
def plain (name : String) (kind : FieldKind) : Field :=
  { name, kind, nullable := false, primaryKey := false, auto := false, index := false
    unique := false, blank := false, version := false, maxLength := none, pattern := none }

/-- Sets or clears uniqueness. A unique field is always indexed. -/
def withUnique (f : Field) (unique : Bool) : Field :=
  { f with unique, index := f.index || unique }

/-- Whether criteria can name the field: it is the identity, or an index is kept. -/
def isQueryable (f : Field) : Bool := f.primaryKey || f.index || f.unique

end Field

end KeyedRecords
