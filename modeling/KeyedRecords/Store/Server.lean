import KeyedRecords.Store.Execute

/-!
# Servers

A server holds a key space, a clock and counters of what it was asked. Every pipeline first drops
the keys that have expired.
-/

namespace KeyedRecords

/-- The clock of a server, in milliseconds since the server was started. -/
inductive Clock where
  /-- A clock that is moved by hand. -/
  | manual (now : Nat)
  /-- A clock that runs by itself and cannot be moved. -/
  | system (elapsed : Nat)
deriving DecidableEq

/-- The time of a clock. -/
def Clock.now : Clock → Nat
  | .manual now => now
  | .system elapsed => elapsed

/-- What a server was asked. -/
structure ServerStats where
  /-- The number of pipelines. -/
  roundTrips : Nat
  /-- The number of commands. -/
  commands : Nat
  /-- The number of keys that expired. -/
  expired : Nat
deriving DecidableEq

/-- A store in this process. -/
structure Server where
  space : Keyspace
  clock : Clock
  /-- What it was asked. -/
  stats : ServerStats

namespace Server

/-- A server without keys. -/
def empty (clock : Clock) : Server := ⟨.empty, clock, ⟨0, 0, 0⟩⟩

/-- Drops the keys that have expired, and counts them. -/
def sweep (s : Server) : Server :=
  let space := s.space.sweep s.clock.now
  let expired := s.space.entries.size - space.entries.size
  { s with space, stats := { s.stats with expired := s.stats.expired + expired } }

def pipeline (s : Server) (commands : List Command) : List Reply × Server :=
  let s := s.sweep
  let (replies, space) := s.space.executeAll commands
  let stats := { s.stats with
    roundTrips := s.stats.roundTrips + 1, commands := s.stats.commands + commands.length }
  (replies, { s with space, stats })

def execute (s : Server) (c : Command) : Except Error Reply × Server :=
  match s.pipeline [c] with
  | (replies, s) =>
    match replies.getLast? with
    | some reply => (.ok reply, s)
    | none => (.error (.protocol "empty reply"), s)

/-- Looks at the keys that have not expired. -/
def look {α : Type} (s : Server) (f : Keyspace → α) : α × Server :=
  let s := s.sweep
  (f s.space, s)

/-- The keys that begin with a text and have not expired. -/
def keys (s : Server) (start : String) : List String × Server := s.look (·.scan start)

/-- Moves the clock forward. -/
def advance (s : Server) (milliseconds : Nat) : Except Error Server :=
  match s.clock with
  | .manual now => .ok { s with clock := .manual (now + milliseconds) }
  | .system _ => .error (.config "cannot advance the system clock")

/-- Time passes by itself, unless the clock is one that is moved by hand. -/
def elapse (s : Server) (milliseconds : Nat) : Server :=
  match s.clock with
  | .manual _ => s
  | .system elapsed => { s with clock := .system (elapsed + milliseconds) }

/-- Deletes all keys. -/
def flush (s : Server) : Server := { s with space := { s.space with entries := ∅ } }

/-- Sets the counters to zero. -/
def resetStats (s : Server) : Server := { s with stats := ⟨0, 0, 0⟩ }

end Server

end KeyedRecords
