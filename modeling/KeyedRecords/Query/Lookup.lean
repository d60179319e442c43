import KeyedRecords.Text.Split

/-!
# Keys of criteria

A criterion names a field, and behind two underscores how its value is looked up. The only lookup is
whether the value is among given ones; it may be left out.
-/

namespace KeyedRecords

/-- What the key of a criterion says. -/
structure Lookup where
  field : String
  /-- The lookup that was asked for, if it is none that exists. -/
  unsupported : Option String
deriving DecidableEq

/-- Reads the key of a criterion. -/
def Lookup.read (key : String) : Lookup :=
  match Text.cut? "__" key with
  | none => ⟨key, none⟩
  | some (field, lookup) =>
    if lookup = "in" ∨ lookup = "eq" then ⟨field, none⟩ else ⟨field, some lookup⟩

end KeyedRecords
