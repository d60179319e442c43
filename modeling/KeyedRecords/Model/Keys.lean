import KeyedRecords.Text.Hex

/-!
# Keys of a model

Every key that a model uses in the store begins with the namespace and the name of the model.
-/

namespace KeyedRecords

structure ModelKeys where
  /-- What all of them begin with. -/
  base : String
deriving DecidableEq

namespace ModelKeys

/-- The keys of a model in a namespace. -/
def ofModel (space model : String) : ModelKeys := ⟨space ++ model⟩

/-- The collection of all ids. -/
def ids (k : ModelKeys) : String := k.base ++ ":ids"

/-- The counter that ids are assigned from. -/
def counter (k : ModelKeys) : String := k.base ++ ":id"

/-- The record of an instance. -/
def object (k : ModelKeys) (id : String) : String := k.base ++ ":obj:" ++ id

/-- The ids whose field has a stored value. -/
def index (k : ModelKeys) (field value : String) : String :=
  k.base ++ ":idx:" ++ field ++ ":" ++ value

/-- The ids by the values of a unique field. -/
def unique (k : ModelKeys) (field : String) : String := k.base ++ ":uni:" ++ field

/-- What temporary keys begin with. -/
def temporaryStart (k : ModelKeys) : String := k.base ++ ":tmp:"

/-- The `n`-th temporary key. -/
def temporary (k : ModelKeys) (n : Nat) : String :=
  k.temporaryStart ++ String.ofList (Text.Hex.digits 32 n)

/-- A structured container that belongs to one instance. -/
def container (k : ModelKeys) (id name : String) : String :=
  k.base ++ ":obj:" ++ id ++ ":" ++ name

/-- The pattern that leads a sort from ids to a field of their records. -/
def sortPattern (k : ModelKeys) (field : String) : String := k.base ++ ":obj:*->" ++ field

end ModelKeys

end KeyedRecords
