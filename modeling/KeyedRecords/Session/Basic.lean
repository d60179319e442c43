import KeyedRecords.Model.Catalog
import KeyedRecords.Query.Live
import KeyedRecords.Session.Event
import KeyedRecords.Session.Tracker
import KeyedRecords.Session.Transaction

/-!
# Sessions

A session holds the instances that one unit of work is about, in one tracker for each model that it
has touched. Nothing reaches the store before a commit. All instances of a session are of one type
`α`; its handlers may change a state of the application of type `σ`.
-/

namespace KeyedRecords

structure SessionConfig where
  /-- Whether a commit opens a transaction if there is none. -/
  autoBegin : Bool
  /-- Whether instances are checked before they are written. -/
  validate : Bool
deriving DecidableEq

/-- The configuration if nothing is said. -/
def SessionConfig.standard : SessionConfig := ⟨true, true⟩

/-- A unit of work. -/
structure Session (α σ : Type) where
  /-- Its number. -/
  id : SessionId
  /-- The registered models. -/
  catalog : Catalog
  /-- What it holds, model by model in the order in which they were touched. -/
  trackers : List (Tracker α)
  /-- The open transaction. -/
  transaction : Option Transaction
  /-- The handlers that run around commits. -/
  handlers : Handlers σ
  config : SessionConfig

/-- A session, the client that it works with, and the state of the application. -/
structure Work (α σ : Type) where
  session : Session α σ
  client : Client
  /-- The state of the application. -/
  app : σ

namespace Session

variable {α σ β : Type}

/-- A session that holds nothing. -/
def start (id : SessionId) (catalog : Catalog) (config : SessionConfig) : Session α σ :=
  { id, catalog, trackers := [], transaction := none, handlers := .empty, config }

/-- What the session holds of a model, if it has touched it. -/
def tracker? (s : Session α σ) (m : Model α) : Option (Tracker α) :=
  s.trackers.find? (·.layout.tag == m.tag)

def instance? (s : Session α σ) (m : Model α) (key : IdentityKey) : Option (Instance α) :=
  (s.tracker? m).bind (·.get? key)

def instances (s : Session α σ) (m : Model α) : List (Instance α) :=
  ((s.tracker? m).map fun t => t.instances.map Prod.snd).getD []

/-- The number of instances that are to be written. -/
def dirtyCount (s : Session α σ) : Nat := (s.trackers.map Tracker.dirtyCount).foldr (· + ·) 0

/-- The number of deletes that are to be sent. -/
def pendingDeletes (s : Session α σ) : Nat :=
  (s.trackers.map Tracker.pendingDeletes).foldr (· + ·) 0

/-- The number of instances. -/
def size (s : Session α σ) : Nat := (s.trackers.map Tracker.size).foldr (· + ·) 0

/-- Whether there is anything to commit. -/
def hasPending (s : Session α σ) : Bool := 0 < s.dirtyCount + s.pendingDeletes

/-- Forgets everything that the session holds; an open transaction stays open. -/
def expungeAll (s : Session α σ) : Session α σ := { s with trackers := [] }

/-- Drops all pending changes and the open transaction. -/
def rollback (s : Session α σ) : Session α σ := { s.expungeAll with transaction := none }

def addHandler (s : Session α σ) (kind : EventKind) (handler : Handler σ) : Session α σ :=
  { s with handlers := s.handlers.register kind handler }

/-- A query over a model, as a query of the session. -/
def query {ε : Type} (s : Session α σ) (m : Model α) : Except Error (Query ε) := do
  let l ← s.catalog.layout m.tag
  return (Query.ofLayout l s.catalog.config.lifetimeSeconds).withSession s.id

/-- The stored text of the id of an instance of a model. -/
def encodeId (s : Session α σ) (m : Model α) (id : Value) : Except Error String := do
  let l ← s.catalog.layout m.tag
  match l.identity.kind.encode id with
  | some id => return id
  | none =>
    throw (l.queryError .malformed (some l.identity.name) "identity value cannot be null")

/-- An operation of a session. -/
abbrev Working (α σ β : Type) := Operation (Work α σ) β

def current : Working α σ (Session α σ) := do return (← get).session

/-- Replaces the session. -/
def put (s : Session α σ) : Working α σ Unit := modify fun w => { w with session := s }

/-- An operation on the client alone. -/
def viaClient (op : Operation Client β) : Working α σ β :=
  Operation.on Work.client (fun client w => { w with client }) op

/-- Replaces the tracker of the model that has a tag. -/
def replaceTracker (tag : ModelTag) (t : Tracker α) : List (Tracker α) → List (Tracker α)
  | [] => []
  | first :: rest =>
    if first.layout.tag = tag then t :: rest else first :: replaceTracker tag t rest

/-- What the session holds of a model, which it touches now. -/
def touch (m : Model α) : Working α σ (Tracker α) := do
  let s ← current
  match s.tracker? m with
  | some t => return t
  | none =>
    let l ← Operation.ofExcept (s.catalog.layout m.tag)
    let t := Tracker.empty m l
    put { s with trackers := s.trackers ++ [t] }
    return t

/-- An operation on what the session holds of a model. -/
def viaTracker (m : Model α) (op : Tracker.Tracking α β) : Working α σ β := do
  let t ← touch m
  Operation.on (fun w => (w.session.tracker? m).getD t)
    (fun t w =>
      { w with session := { w.session with
          trackers := replaceTracker m.tag t w.session.trackers } }) op

/-- Claims an instance for the session. -/
def claim (i : Instance α) : Working α σ (Instance α) := do
  let state ← Operation.ofExcept (i.state.bind (← current).id)
  return { i with state }

/-- Plans to write an instance. -/
def add (m : Model α) (i : Instance α) : Working α σ IdentityKey := do
  let i ← claim i
  viaTracker m (Tracker.add i)

/-- Plans to write instances, up to the first that cannot be claimed. -/
def addAll (m : Model α) : List (Instance α) → Working α σ (List IdentityKey)
  | [] => return []
  | i :: rest => do
    let key ← add m i
    return key :: (← addAll m rest)

/-- Plans to delete an instance. Answers whether there is something to delete. -/
def delete (m : Model α) (i : Instance α) : Working α σ Bool := do
  let i ← claim i
  viaTracker m (Tracker.delete i)

/-- Plans to delete what is stored under an id. -/
def deleteKey (m : Model α) (id : Value) : Working α σ Unit := do
  let id ← Operation.ofExcept ((← current).encodeId m id)
  viaTracker m (Tracker.deleteId id)

/-- Plans to delete what a tree matches when the commit is sent. -/
def deleteMatching (m : Model α) (tree : Tree) : Working α σ Unit :=
  viaTracker m (Tracker.deleteMatching tree)

/-- Forgets an instance and its pending changes. -/
def expunge (m : Model α) (i : Instance α) : Working α σ (Option (Instance α)) :=
  viaTracker m (Tracker.expunge (i.identityKey m))

/-- Holds an instance that was read. -/
def hold (m : Model α) (i : Instance α) : Working α σ (Instance α) := do
  let i ← claim i
  viaTracker m (Tracker.markLoaded i)

/-- Holds instances that were read. -/
def holdAll (m : Model α) : List (Instance α) → Working α σ (List (Instance α))
  | [] => return []
  | i :: rest => do
    let held ← hold m i
    return held :: (← holdAll m rest)

/-- An operation of a session that also asks a query. -/
abbrev AskingIn (α σ ε β : Type) := Operation (Work α σ × LiveQuery ε) β

/-- An operation of the session alone. -/
def viaWork {ε : Type} (op : Working α σ β) : AskingIn α σ ε β :=
  Operation.on Prod.fst (fun w s => (w, s.2)) op

/-- An operation on the query, by the client of the session. -/
def viaQuery {ε : Type} (op : LiveQuery.Asking ε β) : AskingIn α σ ε β :=
  Operation.on (fun (w, live) => (live, w.client))
    (fun (live, client) (w, _) => ({ w with client }, live)) op

/-- Plans to delete what a query matches when the commit is sent. -/
def deleteQuery {ε : Type} (consult : Consult ε) (m : Model α) : AskingIn α σ ε Unit := do
  let (w, live) ← get
  match live.query.session with
  | some owner =>
    if owner ≠ w.session.id then
      throw (.failed (.transaction ⟨.foreignSession,
        s!"query belongs to {owner.text}, not {w.session.id.text}"⟩))
  | none => pure ()
  let tree ← viaQuery (LiveQuery.construct consult)
  viaWork (deleteMatching m tree)

/-- The instances that a query matches. Those that the session holds already are the held ones. -/
def fetch {ε : Type} (consult : Consult ε) (m : Model α) : AskingIn α σ ε (List (Instance α)) := do
  let found ← viaQuery (LiveQuery.all consult m)
  viaWork do
    discard (touch m)
    holdAll m found

/-- No engine answers, as there is none. -/
def consultNone : Consult Empty := fun engine => nomatch engine

/-- Reads the stored instance of an id. -/
def read (m : Model α) (id : String) : Working α σ (Option (Instance α)) := do
  let q ← Operation.ofExcept ((← current).query (ε := Empty) m)
  let found ← Operation.on (fun w => (LiveQuery.ofQuery q, w.client))
    (fun (_, client) w => { w with client }) (LiveQuery.get? consultNone m (.text id))
  match found with
  | some i => return some (← hold m i)
  | none => return none

/-- The instance of an id: the one that the session holds, or else the stored one. An instance that
is to be deleted counts as absent. -/
def get? (m : Model α) (id : Value) : Working α σ (Option (Instance α)) := do
  let s ← current
  let id ← Operation.ofExcept (s.encodeId m id)
  match (s.tracker? m).bind fun t => (t.partitionOf id).map (t, ·) with
  -- the store is not asked for what the session holds
  | some (_, .deleted) => return none
  | some (t, _) => return t.get? id
  | none => read m id

end Session

end KeyedRecords
