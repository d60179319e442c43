import KeyedRecords.Error.Basic
import KeyedRecords.Text.Quoted

/-!
# Configuration

The namespace that keys begin with, and how long temporary keys live.
-/

namespace KeyedRecords

/-- What a catalog is configured with. -/
structure Config where
  /-- What every key begins with. -/
  space : String
  /-- How long a temporary key lives, in milliseconds. -/
  queryLifetime : Nat
deriving DecidableEq

namespace Config

/-- The configuration if nothing is said. -/
def standard : Config := ⟨"kvm.", 30000⟩

/-- How long a temporary key lives, in whole seconds, one at least. -/
def lifetimeSeconds (c : Config) : Nat := max (c.queryLifetime / 1000) 1

/-- A time shorter than a second as messages show it. -/
def shortTime (milliseconds : Nat) : String :=
  if milliseconds = 0 then "0ns" else s!"{Number.intText milliseconds}ms"

/-- Refuses lifetimes under a second, and namespaces with blanks or a star. -/
def validate (c : Config) : Except Error Unit :=
  if c.queryLifetime < 1000 then
    .error (.config s!"query_ttl must be at least one second, got {shortTime c.queryLifetime}")
  else if c.space.toList.any fun ch => Text.isBlank ch || ch == '*' then
    .error (.config s!"namespace {Text.quoted c.space} contains a reserved character")
  else .ok ()

end Config

end KeyedRecords
