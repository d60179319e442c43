/-!
# Declarations of types

An application describes a model by the declaration of a type: fields with their types, and
attributes that say what the type and its fields are for. A `Declaration` is such a text after it
has been taken apart, with no meaning given yet to the keys of the attributes.
-/

namespace KeyedRecords

namespace Declaration

/-- A constant in an attribute. -/
inductive Literal where
  | text (s : String)
  | integer (n : Int)
deriving DecidableEq

/-- What follows the key of an item. -/
inductive Argument where
  /-- Nothing. -/
  | absent
  /-- An equals sign and a constant. -/
  | value (literal : Literal)
  /-- Texts between parentheses. -/
  | names (texts : List String)
deriving DecidableEq

/-- One entry of an attribute. -/
structure Item where
  /-- What the entry is about. -/
  key : String
  /-- What it says of that. -/
  argument : Argument
deriving DecidableEq

/-- The entries of one attribute, in order. -/
abbrev Attribute := List Item

inductive FieldType where
  /-- A type that is only named. -/
  | named (name : String)
  /-- A type with one more value, for a value that is missing. -/
  | optional (value : FieldType)
  | container (name : String) (value : FieldType)
deriving DecidableEq

namespace FieldType

/-- Whether a value of the type may be missing. -/
def isOptional : FieldType → Bool
  | .optional _ => true
  | _ => false

/-- Whether a value of the type may be missing in two ways. -/
def isTwiceOptional : FieldType → Bool
  | .optional value => value.isOptional
  | _ => false

end FieldType

/-- A field of a declared type. -/
structure Member where
  /-- The name of the field. -/
  name : String
  /-- The type of its values. -/
  type : FieldType
  attributes : List Attribute
deriving DecidableEq

/-- The forms that a declared type can have. -/
inductive Form where
  /-- Fields with names. -/
  | record
  /-- Fields without names. -/
  | tuple
  /-- No fields at all. -/
  | unit
  /-- One of several variants. -/
  | variants
  /-- Fields that share their place. -/
  | overlay
deriving DecidableEq

end Declaration

/-- The declaration of a type that is to be a model. -/
structure Declaration where
  /-- The name of the type. -/
  name : String
  /-- Whether the type has parameters. -/
  generic : Bool
  /-- The form of the type. -/
  form : Declaration.Form
  /-- The attributes of the type. -/
  attributes : List Declaration.Attribute
  /-- The fields, in order. -/
  members : List Declaration.Member
deriving DecidableEq

end KeyedRecords
