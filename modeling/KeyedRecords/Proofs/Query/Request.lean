import KeyedRecords.Proofs.Query.Criteria
import KeyedRecords.Proofs.Query.Denotation

/-!
# Requests and what they describe

A `Request` says how a query has been built, call by call; `Request.query` is the query. Which
instances a request describes is said in terms of stored records alone (`Request.Describes`): no
merging of criteria, no tree and no index has a part in it.
-/

namespace KeyedRecords

/-- A call on a query that is being built. Single values are lists of one. -/
inductive QueryStep (ε : Type) where
  | filterIn (key : String) (values : List Value)
  | excludeIn (key : String) (values : List Value)
  | search (text : String)
  | withEngine (engine : ε)
  | withSession (session : SessionId)

/-- How a query has been built: from all instances of a model or by combining other queries, and
then by further calls. -/
inductive Request (ε : Type) where
  | all (steps : List (QueryStep ε))
  | combined (how : Compound) (first : Request ε) (others : List (Request ε))
      (steps : List (QueryStep ε))

/-- One of a first thing and others has a property, or all of them have it. -/
def Compound.Joins {α : Type} (how : Compound) (P : α → Prop) (first : α) (others : List α) :
    Prop :=
  match how with
  | .union => P first ∨ ∃ a ∈ others, P a
  | .intersect => P first ∧ ∀ a ∈ others, P a

namespace QueryStep

variable {ε : Type}

/-- The query behind a call. -/
def apply : QueryStep ε → Query ε → Query ε
  | .filterIn key values, q => q.filterIn key values
  | .excludeIn key values, q => q.excludeIn key values
  | .search text, q => q.search text
  | .withEngine engine, q => q.withEngine engine
  | .withSession session, q => q.withSession session

/-- The query behind several calls. -/
def applyAll (steps : List (QueryStep ε)) (q : Query ε) : Query ε :=
  steps.foldl (fun q step => step.apply q) q

/-- The filter of a call. -/
def filter? : QueryStep ε → Option (String × List Value)
  | .filterIn key values => some (key, values)
  | _ => none

/-- The exclusion of a call. -/
def exclude? : QueryStep ε → Option (String × List Value)
  | .excludeIn key values => some (key, values)
  | _ => none

/-- The text that a call searches for. -/
def search? : QueryStep ε → Option String
  | .search text => some text
  | _ => none

/-- The engine that a call names. -/
def engine? : QueryStep ε → Option ε
  | .withEngine engine => some engine
  | _ => none

/-- What has been filtered by, as it was asked for. -/
def filters (steps : List (QueryStep ε)) : Criteria := steps.filterMap filter?

/-- What has been excluded, as it was asked for. -/
def excludes (steps : List (QueryStep ε)) : Criteria := steps.filterMap exclude?

/-- The text to search for: the last one counts. -/
def searched (steps : List (QueryStep ε)) : Option String := (steps.filterMap search?).getLast?

/-- The engine to search with: the last one counts. -/
def engine (steps : List (QueryStep ε)) : Option ε := (steps.filterMap engine?).getLast?

end QueryStep

namespace Layout

variable (l : Layout) (ks : Keyspace)

/-- The ids, the indexes and the owners of unique values agree with the stored records. -/
structure Agrees : Prop extends Readable l ks where
  /-- The ids are those of records. -/
  ids_iff : ∀ id, ks.Has l.keys.ids id ↔ (ks.data? (l.keys.object id)).isSome = true
  /-- An id is entered under the value that its record holds. -/
  index_iff : ∀ f ∈ l.indexedFields, f.unique = false → ∀ id v,
    ks.Has (l.keys.index f.name v) id ↔ ks.field? (l.keys.object id) f.name = some v
  /-- A unique value belongs to the id whose record holds it. -/
  unique_iff : ∀ f ∈ l.fields, f.primaryKey = false → f.unique = true → ∀ id v,
    ks.field? (l.keys.unique f.name) v = some id ↔ ks.field? (l.keys.object id) f.name = some v

/-- The stored text of a field of an instance. The identity is the id itself. -/
def textOf (f : Field) (id : String) : Option String :=
  if f.primaryKey then some id else ks.field? (l.keys.object id) f.name

/-- The stored text of a field is that of a value which criteria list for the field, under any of
the keys that mean it. -/
def Matches (c : Criteria) (field id : String) : Prop :=
  ∃ f, l.field? field = some f ∧ ∃ raw, l.textOf ks f id = some raw ∧
    ∃ v, c.byField.Lists field v ∧ f.kind.encode v = some raw

variable {ε : Type} (consult : Consult ε)

/-- An instance has what calls have asked for: for every field that was filtered by one of the
values, if a text was searched for a place among the matches, and for no field that was excluded by
one of the values. -/
structure Meets (engine : Option ε) (steps : List (QueryStep ε)) (id : String) : Prop where
  filters : ∀ field ∈ (QueryStep.filters steps).byField.keys,
    l.Matches ks (QueryStep.filters steps) field id
  search : ∀ text, QueryStep.searched steps = some text →
    ∃ e found, engine = some e ∧ consult e l text = .ok found ∧ id ∈ found
  excludes : ∀ field ∈ (QueryStep.excludes steps).byField.keys,
    ¬l.Matches ks (QueryStep.excludes steps) field id

end Layout

namespace Request

variable {ε : Type}

section Query

variable (l : Layout) (lifetime : Nat)

mutual

/-- The query that a request builds. -/
def query : Request ε → Query ε
  | .all steps => QueryStep.applyAll steps (.ofLayout l lifetime)
  | .combined how first others steps =>
    QueryStep.applyAll steps (.combine how (query first) (queries others))

/-- The queries that requests build. -/
def queries : List (Request ε) → List (Query ε)
  | [] => []
  | r :: rest => query r :: queries rest

end

end Query

/-- The engine that a request searches with. A combination has the engine of its first query. -/
def engine : Request ε → Option ε
  | .all steps => QueryStep.engine steps
  | .combined _ first _ steps => (QueryStep.engine steps).or first.engine

section Meaning

variable (l : Layout) (ks : Keyspace) (consult : Consult ε) (id : String)

mutual

/-- A record is stored under an id, and it is what a request asks for. -/
def Describes : Request ε → Prop
  | .all steps =>
    (ks.data? (l.keys.object id)).isSome = true ∧
      l.Meets ks consult (QueryStep.engine steps) steps id
  | .combined .union first others steps =>
    (Describes first ∨ DescribesAny others) ∧
      l.Meets ks consult ((QueryStep.engine steps).or first.engine) steps id
  | .combined .intersect first others steps =>
    (Describes first ∧ DescribesAll others) ∧
      l.Meets ks consult ((QueryStep.engine steps).or first.engine) steps id

/-- Some request of a list describes an id. -/
def DescribesAny : List (Request ε) → Prop
  | [] => False
  | r :: rest => Describes r ∨ DescribesAny rest

/-- Every request of a list describes an id. -/
def DescribesAll : List (Request ε) → Prop
  | [] => True
  | r :: rest => Describes r ∧ DescribesAll rest

end

mutual

/-- Within each list of calls, equal values that one field is filtered by are stored alike or in the
first call that filters by the field, and so with those that it is excluded by. -/
def StoredAlike : Request ε → Prop
  | .all steps =>
    (QueryStep.filters steps).StoredAlike l ∧ (QueryStep.excludes steps).StoredAlike l
  | .combined _ first others steps =>
    (StoredAlike first ∧ StoredAlikeAll others) ∧
      (QueryStep.filters steps).StoredAlike l ∧ (QueryStep.excludes steps).StoredAlike l

/-- The requests of a list filter and exclude by values that are stored alike. -/
def StoredAlikeAll : List (Request ε) → Prop
  | [] => True
  | r :: rest => StoredAlike r ∧ StoredAlikeAll rest

end

end Meaning

end Request

end KeyedRecords
