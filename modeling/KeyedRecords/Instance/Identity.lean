import KeyedRecords.Number.Integer
import KeyedRecords.Text.Hex
import KeyedRecords.Text.Split

/-!
# Sessions, transactions and identity keys

A session and a transaction have numbers. An instance is known in its session by its identity key:
the id under which it is stored, or a placeholder as long as it is not stored.
-/

namespace KeyedRecords

/-- The number of a session. -/
structure SessionId where
  number : Nat
deriving DecidableEq

/-- A session as messages call it. -/
def SessionId.text (s : SessionId) : String := s!"session-{Number.intText s.number}"

/-- The number of a transaction. -/
structure TransactionId where
  number : Nat
deriving DecidableEq

/-- A transaction as messages call it. -/
def TransactionId.text (t : TransactionId) : String := s!"tx-{Number.intText t.number}"

/-- The key under which a session knows an instance. -/
abbrev IdentityKey := String

namespace IdentityKey

/-- What placeholders begin with. -/
def placeholderStart : String := "new:"

/-- The `n`-th placeholder; later ones are greater. -/
def placeholder (n : Nat) : IdentityKey :=
  placeholderStart ++ String.ofList (Text.Hex.digits 12 n)

/-- Whether a key looks like a placeholder. -/
def isPlaceholder (key : IdentityKey) : Bool := Text.startsWith key placeholderStart

end IdentityKey

end KeyedRecords
