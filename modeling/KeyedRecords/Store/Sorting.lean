import KeyedRecords.Number.FloatText
import KeyedRecords.Store.Keyspace

/-!
# Sorting

Sorts the members of a key by weights that a pattern leads to. A pattern names a key with a star in
the place of the member, and behind an arrow a field of the hash there. Weights are compared as
texts or as numbers; a missing weight is the empty text or zero; equal weights go by member.
-/

namespace KeyedRecords

namespace Keyspace

/-- What a pattern leads to for one member. -/
def lookUp (ks : Keyspace) (pattern member : String) : Option String :=
  match Text.cut? "->" pattern with
  | some (keyPattern, field) =>
    match ks.data? (Text.replaceFirst '*' member keyPattern) with
    | some (.hash h) => h[field]?
    | _ => none
  | none =>
    match ks.data? (Text.replaceFirst '*' member pattern) with
    | some (.string s) => some s
    | _ => none

/-- The weight of one member: what the pattern leads to, or the member itself without one. -/
def weight (ks : Keyspace) (pattern? : Option String) (member : String) : Option String :=
  match pattern? with
  | some pattern => ks.lookUp pattern member
  | none => some member

/-- The order of members with weights that are texts. -/
def textLE (a b : String × String) : Bool := a.1 < b.1 || (a.1 == b.1 && a.2 ≤ b.2)

/-- The order of members with weights that are numbers. -/
def numberLE (a b : Double × String) : Bool := scoredLE (a.2, a.1) (b.2, b.1)

/-- The number that a weight is; a missing one is zero. -/
def numericWeight : Option String → Except CommandFault Double
  | none => .ok .zero
  | some raw =>
    match Number.readDouble? raw with
    | some x => .ok x
    | none => .error .notDouble

/-- The members in the order of their weights. -/
def sortMembers (ks : Keyspace) (pattern? : Option String) (alpha : Bool) (members : List String) :
    Except CommandFault (List String) :=
  if alpha then
    let keyed := members.map fun m => ((ks.weight pattern? m).getD "", m)
    .ok ((keyed.mergeSort textLE).map Prod.snd)
  else do
    let keyed ← members.mapM fun m => do return (← numericWeight (ks.weight pattern? m), m)
    return (keyed.mergeSort numberLE).map Prod.snd

/-- The members of a key, sorted. -/
def sorted (ks : Keyspace) (key : String) (pattern? : Option String) (descending alpha : Bool) :
    Except CommandFault (List String) := do
  let items ← ks.sortMembers pattern? alpha (← ks.members key)
  return if descending then items.reverse else items

end Keyspace

end KeyedRecords
