import KeyedRecords.Model.Layout

/-!
# Catalogs

A catalog holds the layouts of the models that one application uses, in the order of registration.
A model is registered once; two models cannot share a name.
-/

namespace KeyedRecords

/-- The registered models of one application. -/
structure Catalog where
  config : Config
  /-- The layouts, in the order of registration. -/
  layouts : List Layout

namespace Catalog

/-- A catalog without models. -/
def empty (config : Config) : Except Error Catalog := do
  config.validate
  return ⟨config, []⟩

/-- The layout of a model, if it is registered. -/
def find? (c : Catalog) (tag : ModelTag) : Option Layout := c.layouts.find? (·.tag == tag)

def byName? (c : Catalog) (name : String) : Option Layout := c.layouts.find? (·.name == name)

/-- A model cannot be registered. -/
def invalid (model message : String) : Error := .schema ⟨.invalid, model, message⟩

/-- The layout of a registered model. -/
def layout (c : Catalog) (tag : ModelTag) : Except Error Layout :=
  match c.find? tag with
  | some l => .ok l
  | none =>
    .error (.schema ⟨.notRegistered, tag.name, "model is not registered with this catalog"⟩)

/-- Registers a model. A model that is registered already keeps its layout. -/
def register (c : Catalog) (s : Schema) : Except Error (Layout × Catalog) :=
  match c.find? s.toModelTag with
  | some l => .ok (l, c)
  | none =>
    match s.layout c.config.space with
    | .error fault => .error (invalid s.name fault.message)
    | .ok l =>
      if (c.byName? s.name).isSome then
        .error (invalid s.name "another model is registered under this name")
      else .ok (l, { c with layouts := c.layouts ++ [l] })

end Catalog

end KeyedRecords
