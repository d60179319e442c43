import KeyedRecords.Model.Catalog
import Std.Data.HashMap

/-!
# Registries

A registry keeps the layouts of the registered models three times: by the type that declares a
model, by the name of the model, and in the order of registration. A type is registered once; two
types cannot share a name. What tells two types apart (`τ`) need not be part of what they declare.
-/

namespace KeyedRecords

deriving instance Hashable for ModelTag

/-- The registered models of one application, by the types that declare them. -/
structure Registry (τ : Type) [DecidableEq τ] [Hashable τ] where
  config : Config
  byType : Std.HashMap τ Layout
  byName : Std.HashMap String Layout
  /-- The layouts, in the order of registration. -/
  order : List Layout

namespace Registry

variable {τ : Type} [DecidableEq τ] [Hashable τ]

/-- A registry before any model is registered. -/
def start (config : Config) : Registry τ := ⟨config, ∅, ∅, []⟩

/-- A registry without models. -/
def empty (config : Config) : Except Error (Registry τ) := do
  config.validate
  return start config

/-- The registry with one more layout, in all three indexes. -/
def insert (r : Registry τ) (type : τ) (l : Layout) : Registry τ :=
  { r with byType := r.byType.insert type l
           byName := r.byName.insert l.name l
           order := r.order ++ [l] }

/-- Takes up the layout of a type, unless the type or the name is taken by now. -/
def enter (type : τ) (l : Layout) : ExceptT Error (StateM (Registry τ)) Layout := do
  let r ← get
  match r.byType[type]? with
  | some existing => return existing
  | none =>
    if r.byName.contains l.name then
      throw (Catalog.invalid l.name "another model is registered under this name")
    else
      set (r.insert type l)
      return l

/-- Registers the model that a type declares. A type that is registered already keeps its layout. -/
def register (type : τ) (s : Schema) : ExceptT Error (StateM (Registry τ)) Layout := do
  match (← get).byType[type]? with
  | some l => return l
  | none =>
    match s.layout (← get).config.space with
    | .error fault => throw (Catalog.invalid s.name fault.message)
    | .ok l => enter type l

/-- No type is registered with the model of this name. -/
def notRegistered (name : String) : Error :=
  .schema ⟨.notRegistered, name, "model is not registered with this catalog"⟩

/-- The layout of a type that declares the model called `name`, if the type is registered. -/
def layout (r : Registry τ) (type : τ) (name : String) : Except Error Layout :=
  match r.byType[type]? with
  | some l => .ok l
  | none => .error (notRegistered name)

def byName? (r : Registry τ) (name : String) : Option Layout := r.byName[name]?

/-- The registered models, in the order of registration. -/
def models (r : Registry τ) : List Layout := r.order

end Registry

end KeyedRecords
