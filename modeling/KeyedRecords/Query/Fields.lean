import KeyedRecords.Model.Record

/-!
# Fields in queries

Which fields of a model a query can name: identity and indexed fields in criteria, scalar fields in
an order, any field in a projection. Anything else is an error that names model and field.
-/

namespace KeyedRecords

/-- A query error about a field of a model. -/
def Layout.queryError (l : Layout) (problem : QueryProblem) (field : Option String)
    (message : String) : Error :=
  .query ⟨problem, some l.name, field, message⟩

/-- The field of a name, if criteria can name it. -/
def Layout.queryableField (l : Layout) (name : String) : Except Error Field :=
  match l.field? name with
  | none => .error (l.queryError .unknownField (some name) s!"unknown field '{name}'")
  | some f =>
    if f.isQueryable then .ok f
    else .error (l.queryError .notIndexed (some name) s!"field '{name}' is not indexed")

/-- Refuses orders by a field that cannot be sorted on. -/
def Layout.checkOrdering (l : Layout) (order : SortOrder) : Except Error Unit :=
  match l.field? order.field with
  | some f =>
    if f.kind.isScalar then .ok ()
    else
      .error (l.queryError .ordering (some order.field)
        s!"cannot sort on non-scalar field '{order.field}'")
  | none =>
    .error (l.queryError .ordering (some order.field)
      s!"cannot sort on unknown field '{order.field}'")

/-- Refuses projections onto a field that does not exist. -/
def Layout.checkProjection (l : Layout) (field : String) : Except Error Unit :=
  match l.field? field with
  | some _ => .ok ()
  | none =>
    .error (l.queryError .noProjection (some field) s!"cannot project unknown field '{field}'")

end KeyedRecords
