/-!
# Sort orders

An order names a field, with a minus sign in front if it descends.
-/

namespace KeyedRecords

/-- An order by one field. -/
structure SortOrder where
  field : String
  /-- Whether greater values come first. -/
  descending : Bool
deriving DecidableEq

namespace SortOrder

/-- The order that a text stands for. -/
def read (spec : String) : SortOrder :=
  match spec.toList with
  | '-' :: field => ⟨String.ofList field, true⟩
  | _ => ⟨spec, false⟩

def text (o : SortOrder) : String := if o.descending then "-" ++ o.field else o.field

end SortOrder

end KeyedRecords
