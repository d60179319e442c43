import KeyedRecords.Text.Split
import KeyedRecords.Number.Integer

/-!
# Failed rules

A `ValidationFailures` collects the rules that the fields of one instance broke, in the order of the
checks.
-/

namespace KeyedRecords

/-- The rules that a field or an instance can break. -/
inductive Rule where
  /-- The text is too long. -/
  | maxLength
  /-- The text does not match its pattern. -/
  | pattern
  /-- A value is missing or blank. -/
  | required
  /-- A rule of the application about one field. -/
  | custom
  /-- A rule of the application about the whole instance. -/
  | model
deriving DecidableEq

/-- What a rule is called. -/
def Rule.name : Rule → String
  | .maxLength => "MaxLength"
  | .pattern => "Pattern"
  | .required => "Required"
  | .custom => "Custom"
  | .model => "Model"

/-- One broken rule. -/
structure ValidationFailure where
  /-- The field it is about. -/
  field : String
  rule : Rule
  /-- What the caller is told. -/
  message : String
deriving DecidableEq

/-- The field that failures about a whole instance are filed under. -/
def wholeInstance : String := "_model"

namespace ValidationFailure

/-- A value is missing. -/
def required (field : String) : ValidationFailure :=
  ⟨field, .required, s!"'{field}' is required"⟩

/-- A text is longer than allowed. -/
def tooLong (field : String) (max actual : Nat) : ValidationFailure :=
  let most := Number.intText max
  let got := Number.intText actual
  ⟨field, .maxLength, s!"'{field}' must be at most {most} characters (got {got})"⟩

/-- A text does not match its pattern. -/
def mismatch (field pattern : String) : ValidationFailure :=
  ⟨field, .pattern, s!"'{field}' must match pattern {pattern}"⟩

/-- A rule of the application about one field. -/
def custom (field message : String) : ValidationFailure := ⟨field, .custom, message⟩

/-- A rule of the application about the whole instance. -/
def whole (message : String) : ValidationFailure := ⟨wholeInstance, .model, message⟩

end ValidationFailure

/-- Broken rules in the order of the checks. -/
abbrev ValidationFailures := List ValidationFailure

/-- What a caller is told about broken rules. -/
def ValidationFailures.message : ValidationFailures → String
  | [] => "validation passed"
  | [failure] => s!"validation error on '{failure.field}': {failure.message}"
  | failures =>
    "validation errors:\n" ++
      String.join (failures.map fun failure => s!"  - {failure.field}: {failure.message}\n")

end KeyedRecords
