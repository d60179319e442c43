import KeyedRecords.Instance.Basic
import KeyedRecords.Query.Basic
import KeyedRecords.Query.ResultSet

/-!
# Queries that are being asked

A query is turned into a tree at most once, and its plan is made at most once, so that all its
results come from the same temporary keys. A `LiveQuery` is a query with what has been made of it so
far.
-/

namespace KeyedRecords

/-- A query and what has been made of it. -/
structure LiveQuery (ε : Type) where
  query : Query ε
  tree : Option Tree
  /-- Its plan. -/
  results : Option ResultSet

namespace LiveQuery

variable {ε α : Type} (consult : Consult ε)

/-- A query of which nothing has been made. -/
def ofQuery (q : Query ε) : LiveQuery ε := ⟨q, none, none⟩

/-- An operation on a query and a client. -/
abbrev Asking (ε α : Type) := Operation (LiveQuery ε × Client) α

/-- An operation on the client alone. -/
def viaClient (op : Operation Client α) : Asking ε α :=
  Operation.on Prod.snd (fun c s => (s.1, c)) op

def construct : Asking ε Tree := do
  let (live, client) ← get
  match live.tree with
  | some tree => return tree
  | none =>
    let tree ← Operation.ofExcept (live.query.construct consult)
    set ({ live with tree := some tree }, client)
    return tree

/-- The results, planned if they are not yet. -/
def prepare : Asking ε ResultSet := do
  match (← get).1.results with
  | some results => return results
  | none =>
    let tree ← construct consult
    let (live, client) ← get
    let terms := live.query.terms
    let plan ← Operation.ofExcept
      (tree.lower (terms.ordering.map SortOrder.read) terms.lifetime client.supply.name)
    discard (viaClient (ε := ε) (Client.reserveNames plan.temporaries.length))
    let results : ResultSet := ⟨terms.layout, plan, false⟩
    modify fun (live, client) => ({ live with results := some results }, client)
    return results

/-- An operation on the results. -/
def viaResults (op : ResultSet.Reading α) : Asking ε α := do
  let r ← prepare consult
  Operation.on (fun s => (s.1.results.getD r, s.2))
    (fun (r, c) s => ({ s.1 with results := some r }, c)) op

/-- The stored text of an id. -/
def encodeId (id : Value) : Asking ε (Option String) := do
  return (← get).1.query.layout.identity.kind.encode id

/-- The instances of records, as read from the store. -/
def instantiate (m : Model α) (rows : List (String × Record)) : Asking ε (List (Instance α)) := do
  let first ← viaClient (Client.reserveNames rows.length)
  let values ← Operation.ofExcept (rows.mapM fun (id, record) => m.ofRecord id record)
  return values.zipIdx.map fun (value, i) => ⟨value, .loaded (.placeholder (first + i))⟩

/-- The records of ids. -/
def fetch (ids : List String) (fields : Option (List String)) :
    Asking ε (List (String × Record)) := do
  viaClient (ResultSet.records (← get).1.query.layout ids fields)

/-- The number of matching instances. -/
def count : Asking ε Nat := viaResults consult ResultSet.count

/-- Whether the instance of an id matches. -/
def contains (id : Value) : Asking ε Bool := do
  discard (prepare consult)
  match ← encodeId id with
  | some id => viaResults consult (ResultSet.contains id)
  | none => return false

/-- The matching ids, in order. -/
def ids : Asking ε (List String) := viaResults consult (ResultSet.ids 0 none)

/-- The instances of a half-open slice. -/
def slice (m : Model α) (start : Int) (stop : Option Int) : Asking ε (List (Instance α)) := do
  let ids ← viaResults consult (ResultSet.ids start stop)
  instantiate m (← fetch ids none)

/-- All matching instances. -/
def all (m : Model α) : Asking ε (List (Instance α)) := slice consult m 0 none

/-- The first matching instance. -/
def first (m : Model α) : Asking ε (Option (Instance α)) := do
  return (← slice consult m 0 (some 1)).head?

/-- The matching instance of an id. -/
def get? (m : Model α) (id : Value) : Asking ε (Option (Instance α)) := do
  discard (prepare consult)
  match ← encodeId id with
  | none => return none
  | some id =>
    let tree ← construct consult
    let found ← if tree.isEverything then pure true
      else viaResults consult (ResultSet.contains id)
    if found then return (← instantiate m (← fetch [id] none)).head? else return none

/-- The values of the field that the query is projected onto, in order. -/
def values : Asking ε (List Value) := do
  let terms := (← get).1.query.terms
  match terms.projection with
  | none =>
    throw (.failed (terms.layout.queryError .noProjection none "values() needs get_field()"))
  | some field =>
    let found ← ids consult
    let rows ← fetch found (some [field])
    return rows.map fun (_, record) => (record.get? field).getD .null

/-- The matching records, in order. -/
def records : Asking ε (List Record) := do
  let found ← ids consult
  let rows ← fetch found (← get).1.query.terms.loadOnly
  return rows.map Prod.snd

end LiveQuery

end KeyedRecords
