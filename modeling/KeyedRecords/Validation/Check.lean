import KeyedRecords.Model.Record

/-!
# Checks of records

The rules that a field lays down for its values. An assigned identity is never checked; text rules
apply to texts in text fields only.
-/

namespace KeyedRecords

/-- The rules that a text breaks. -/
def Field.checkText (f : Field) (s : String) : ValidationFailures :=
  if s.isEmpty && !f.blank then [.required f.name]
  else
    let length := s.toList.length
    let tooLong := match f.maxLength with
      | some max => if max < length then [ValidationFailure.tooLong f.name max length] else []
      | none => []
    let mismatch := match f.pattern with
      | some p => if p.isMatch s then [] else [ValidationFailure.mismatch f.name p.source]
      | none => []
    tooLong ++ mismatch

/-- The rules that a value breaks. -/
def Field.check (f : Field) (value : Value) : ValidationFailures :=
  if f.primaryKey && f.auto then []
  else
    match value with
    | .null => if f.nullable || f.primaryKey then [] else [.required f.name]
    | .text s => if f.kind = .text then f.checkText s else []
    | _ => []

/-- The rules that the fields of a record break; a field that is not set counts as null. -/
def Record.check (fields : List Field) (r : Record) : ValidationFailures :=
  fields.flatMap fun f => f.check ((r.get? f.name).getD .null)

/-- The rules that a record breaks, and then those of the application. -/
def Record.validate (fields : List Field) (own : ValidationFailures) (r : Record) :
    Except ValidationFailures Unit :=
  match r.check fields ++ own with
  | [] => .ok ()
  | failures => .error failures

end KeyedRecords
