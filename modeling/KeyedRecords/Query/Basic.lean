import KeyedRecords.Query.Fields
import KeyedRecords.Query.Lookup
import KeyedRecords.Query.Tree

/-!
# Queries

A query collects criteria over one model. Criteria on one field widen each other, and criteria on
different fields narrow the result; excluded values take away from it. Queries can be combined, and
what is said of the combination is said of it as a whole. `Query.construct` makes a tree of a query,
and finds everything that is wrong with it.

A query may name a search engine of type `ε`; what engines answer is told by the argument `consult`.
-/

namespace KeyedRecords

/-- How queries are combined. -/
inductive Compound where
  /-- Ids that match any of them. -/
  | union
  /-- Ids that match all of them. -/
  | intersect
deriving DecidableEq

/-- Keys and the values that they are compared with. -/
abbrev Criteria := List (String × List Value)

namespace Criteria

/-- Values with more values; those that are there already are not repeated. -/
def addMissing (values more : List Value) : List Value :=
  more.foldl (fun all v => if all.contains v then all else all ++ [v]) values

/-- Criteria with more values for a key. -/
def merge (key : String) (values : List Value) : Criteria → Criteria
  | [] => [(key, values)]
  | (k, vs) :: rest =>
    if k = key then (k, addMissing vs values) :: rest else (k, vs) :: merge key values rest

end Criteria

/-- What a query says, besides the queries that it combines. -/
structure QueryTerms (ε : Type) where
  layout : Layout
  /-- The session that asks. -/
  session : Option SessionId
  /-- How long temporary keys live, in seconds. -/
  lifetime : Nat
  /-- What must hold. -/
  filters : Criteria
  /-- What must not hold. -/
  excludes : Criteria
  /-- The order of the results. -/
  ordering : Option String
  /-- The field that the results are projected onto. -/
  projection : Option String
  /-- The fields of the records that are read. -/
  loadOnly : Option (List String)
  /-- The text to search for. -/
  search : Option String
  /-- The engine to search with. -/
  engine : Option ε

/-- A question for instances of one model. -/
inductive Query (ε : Type) where
  /-- Criteria alone. -/
  | plain (terms : QueryTerms ε)
  /-- Criteria on a combination of queries. -/
  | combined (how : Compound) (operands : List (Query ε)) (terms : QueryTerms ε)

/-- What engines answer: the ids of the instances of a model that match a text. -/
abbrev Consult (ε : Type) := ε → Layout → String → Except Error (List String)

namespace Query

variable {ε : Type}

/-- All instances of a model. -/
def ofLayout (layout : Layout) (lifetime : Nat) : Query ε :=
  .plain
    { layout, session := none, lifetime, filters := [], excludes := [], ordering := none
      projection := none, loadOnly := none, search := none, engine := none }

/-- What a query says besides the queries that it combines. -/
def terms : Query ε → QueryTerms ε
  | .plain t => t
  | .combined _ _ t => t

/-- Changes what a query says. -/
def mapTerms (f : QueryTerms ε → QueryTerms ε) : Query ε → Query ε
  | .plain t => .plain (f t)
  | .combined how operands t => .combined how operands (f t)

def layout (q : Query ε) : Layout := q.terms.layout

/-- The session that asks. -/
def session (q : Query ε) : Option SessionId := q.terms.session

/-- Marks the query as one of a session. -/
def withSession (q : Query ε) (session : SessionId) : Query ε :=
  q.mapTerms fun t => { t with session := some session }

/-- Keeps instances whose field has one of the values. -/
def filterIn (q : Query ε) (key : String) (values : List Value) : Query ε :=
  q.mapTerms fun t => { t with filters := t.filters.merge key values }

/-- Keeps instances whose field has the value. -/
def filter (q : Query ε) (key : String) (value : Value) : Query ε := q.filterIn key [value]

/-- Drops instances whose field has one of the values. -/
def excludeIn (q : Query ε) (key : String) (values : List Value) : Query ε :=
  q.mapTerms fun t => { t with excludes := t.excludes.merge key values }

/-- Drops instances whose field has the value. -/
def exclude (q : Query ε) (key : String) (value : Value) : Query ε := q.excludeIn key [value]

/-- Orders the results. -/
def sortBy (q : Query ε) (ordering : String) : Query ε :=
  q.mapTerms fun t => { t with ordering := some ordering }

/-- Projects the results onto a field. -/
def getField (q : Query ε) (field : String) : Query ε :=
  q.mapTerms fun t => { t with projection := some field }

/-- Restricts the records that are read to some fields. -/
def loadOnly (q : Query ε) (fields : List String) : Query ε :=
  q.mapTerms fun t => { t with loadOnly := some fields }

/-- Keeps instances that an engine finds for a text. -/
def search (q : Query ε) (text : String) : Query ε :=
  q.mapTerms fun t => { t with search := some text }

/-- Names the engine to search with. -/
def withEngine (q : Query ε) (engine : ε) : Query ε :=
  q.mapTerms fun t => { t with engine := some engine }

/-- Combines queries; order, projection and engine are those of the first. -/
def combine (how : Compound) (q : Query ε) (others : List (Query ε)) : Query ε :=
  .combined how (q :: others) { q.terms with filters := [], excludes := [], search := none }

/-- Instances that the query or any of the others matches. -/
def union (q : Query ε) (others : List (Query ε)) : Query ε := q.combine .union others

/-- Instances that the query and all others match. -/
def intersect (q : Query ε) (others : List (Query ε)) : Query ε := q.combine .intersect others

end Query

namespace QueryTerms

variable {ε : Type} (t : QueryTerms ε)

/-- What the nodes of the tree belong to. -/
def origin : Origin := ⟨t.layout, t.session⟩

/-- Refuses an order or a projection that the model does not allow. -/
def check : Except Error Unit := do
  match t.ordering with
  | some spec => t.layout.checkOrdering (SortOrder.read spec)
  | none => pure ()
  match t.projection with
  | some field => t.layout.checkProjection field
  | none => pure ()
  (t.loadOnly.getD []).forM t.layout.checkProjection

/-- The field that the key of a criterion names. -/
def criterionField (key : String) : Except Error String :=
  let found := Lookup.read key
  match found.unsupported with
  | some lookup =>
    .error (t.layout.queryError .unsupportedLookup (some found.field)
      s!"unsupported lookup '{lookup}' in '{key}'")
  | none => (t.layout.queryableField found.field).map fun _ => found.field

/-- Criteria by field instead of by key, behind those grouped already. -/
def group (grouped : Criteria) : Criteria → Except Error Criteria
  | [] => .ok grouped
  | (key, values) :: rest => do
    let field ← t.criterionField key
    group (grouped.merge field values) rest

/-- One selection for each field that criteria name. -/
def selections (criteria : Criteria) : Except Error (List Tree) := do
  return (← t.group [] criteria).map fun (field, values) => .selection t.origin field values

/-- The selection of what an engine finds, if there is a text to search for. -/
def searchSelection (consult : Consult ε) : Except Error (List Tree) :=
  match t.search with
  | none => .ok []
  | some text =>
    match t.engine with
    | none =>
      .error (t.layout.queryError .noSearchEngine none "search() needs a search engine")
    | some engine => do
      let ids ← consult engine t.layout text
      return [.selection t.origin t.layout.identity.name (ids.map Value.text)]

/-- The tree of the criteria, narrowed to what the given trees match. -/
def tree (consult : Consult ε) (given : List Tree) : Except Error Tree := do
  let kept ← t.selections t.filters
  let found ← t.searchSelection consult
  let base := Tree.intersection t.origin (given ++ kept ++ found)
  return .differenceOf base (← t.selections t.excludes)

/-- Refuses to combine queries over two models. -/
def checkOperand (operand : Query ε) : Except Error Unit :=
  if operand.layout.keys = t.layout.keys then .ok ()
  else
    .error (t.layout.queryError .modelMismatch none
      s!"cannot combine queries over {t.layout.keys.base} and {operand.layout.keys.base}")

def combineTrees (how : Compound) (trees : List Tree) : Tree :=
  match how with
  | .union => .unionOf t.origin trees
  | .intersect => .intersection t.origin trees

end QueryTerms

namespace Query

variable {ε : Type}

mutual

/-- The tree of a query. Everything that is wrong with the query is found here. -/
def construct (consult : Consult ε) : Query ε → Except Error Tree
  | .plain t => do
    t.check
    t.tree consult []
  | .combined how operands t => do
    t.check
    let trees ← constructAll consult t operands
    t.tree consult [t.combineTrees how trees]

/-- The trees of the operands of a combination. -/
def constructAll (consult : Consult ε) (t : QueryTerms ε) :
    List (Query ε) → Except Error (List Tree)
  | [] => .ok []
  | q :: rest => do
    t.checkOperand q
    let first ← construct consult q
    let others ← constructAll consult t rest
    return first :: others

end

end Query

end KeyedRecords
