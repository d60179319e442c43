import KeyedRecords.Session.Basic

/-!
# Stores

A store is a catalog of registered models and the configuration of its sessions. It is where an
application starts: `Store.build` registers the models, `Store.newSession` and `Store.query` use
them.
-/

namespace KeyedRecords

/-- Registered models and the configuration of sessions. -/
structure Store where
  /-- The models. -/
  catalog : Catalog
  /-- How sessions are configured if nothing is said. -/
  sessionConfig : SessionConfig

namespace Store

variable {α σ ε : Type}

/-- Registers declarations in order. -/
def registerAll (c : Catalog) : List Schema → Except Error Catalog
  | [] => .ok c
  | s :: rest => do
    let (_, c) ← c.register s
    registerAll c rest

/-- A store of the declared models. -/
def build (config : Config) (sessionConfig : SessionConfig) (schemas : List Schema) :
    Except Error Store := do
  let c ← registerAll (← Catalog.empty config) schemas
  return ⟨c, sessionConfig⟩

def newSession (store : Store) (config : SessionConfig) : Operation Client (Session α σ) := do
  return .start (← Client.newSession) store.catalog config

/-- A query of a catalog that belongs to no session. -/
def queryOf (c : Catalog) (m : Model α) : Except Error (Query ε) := do
  return .ofLayout (← c.layout m.tag) c.config.lifetimeSeconds

/-- A query that belongs to no session. -/
def query (store : Store) (m : Model α) : Except Error (Query ε) := queryOf store.catalog m

end Store

end KeyedRecords
