import KeyedRecords.Store.Command

/-!
# Plans

A plan is what the store has to do for a query: commands that leave the result under a key, and how
the ids are read from there.
-/

namespace KeyedRecords

/-- How the ids of a result are read. -/
inductive Reader where
  /-- There is nothing to read. -/
  | empty
  /-- From a set. -/
  | set (key : String)
  /-- From a sorted set, from its end if so asked. -/
  | sorted (key : String) (reversed : Bool)
  /-- From a list. -/
  | list (key : String)
deriving DecidableEq

/-- What the store has to do for a query. -/
structure Plan where
  /-- The commands that create the result. -/
  commands : List Command
  /-- The temporary keys that they create. -/
  temporaries : List String
  /-- Where the result is before any sort; nowhere if nothing can match. -/
  source : Option String
  /-- How the ids are read. -/
  reader : Reader
  /-- Whether the result is a sorted set. -/
  ordered : Bool
  /-- Whether the sort asked for is the order of the collections. -/
  sortElided : Bool

/-- Whether nothing can match. -/
def Plan.isEmpty (p : Plan) : Bool := p.source.isNone

end KeyedRecords
