import KeyedRecords.Store.Command
import KeyedRecords.Store.Keyspace

/-!
# Set algebra

Union, intersection and difference of sets and of sorted sets, and the lookup of unique values. Each
replaces its destination; an empty result removes it. All sources are read before anything changes.
-/

namespace KeyedRecords

namespace Members

/-- The members that are in all sets; none without any set. -/
def interAll : List Members → Members
  | [] => ∅
  | s :: rest => s.filter fun m => rest.all (·.contains m)

/-- The members that are in any set. -/
def unionAll (sets : List Members) : Members :=
  sets.foldl (fun all s => Members.insertAll all s.toList) ∅

/-- The members of the first set that are in no other. -/
def diffAll : List Members → Members
  | [] => ∅
  | s :: rest => s.filter fun m => !rest.any (·.contains m)

end Members

/-- The score made of two. -/
def Aggregate.combine : Aggregate → Double → Double → Double
  | .sum => .add
  | .min => .min
  | .max => .max

namespace Table

/-- The scores of a member in all sorted sets behind the first, combined with its score there. -/
def combineAll (aggregate : Aggregate) (m : String) (score : Double) :
    List (Table Double) → Option Double
  | [] => some score
  | z :: rest => do
    let other ← z[m]?
    combineAll aggregate m (aggregate.combine score other) rest

/-- The members that are in all sorted sets, with combined scores; none without any. -/
def interAll (aggregate : Aggregate) : List (Table Double) → Table Double
  | [] => ∅
  | z :: rest => z.filterMap fun m score => combineAll aggregate m score rest

/-- One more member of a union. -/
def addCombined (aggregate : Aggregate) (z : Table Double) (m : String) (score : Double) :
    Table Double :=
  match z[m]? with
  | some before => z.insert m (aggregate.combine before score)
  | none => z.insert m score

/-- The members that are in any sorted set, with combined scores. -/
def unionAll (aggregate : Aggregate) (sets : List (Table Double)) : Table Double :=
  sets.foldl (fun all z => z.toList.foldl (fun all (m, s) => addCombined aggregate all m s) all) ∅

/-- The members of the first sorted set that are in no other, with their scores. -/
def diffAll : List (Table Double) → Table Double
  | [] => ∅
  | z :: rest => z.filter fun m _ => !rest.any (·.contains m)

end Table

namespace Keyspace

/-- The sets that keys hold. -/
def sets (ks : Keyspace) (keys : List String) : Except CommandFault (List Members) :=
  keys.mapM fun key => do return (← ks.set? key).getD ∅

/-- The sorted sets that keys hold, their scores multiplied by the weights. -/
def weighted (ks : Keyspace) (keys : List (String × Double)) :
    Except CommandFault (List (Table Double)) :=
  keys.mapM fun (key, weight) => do return (← ks.scored key).map fun _ score => score.mul weight

/-- The owners of the values of a unique field that are known. -/
def owners (ks : Keyspace) (hash : String) (values : List String) :
    Except CommandFault (List String) := do
  match ← ks.hash? hash with
  | some h => return values.filterMap fun v => h[v]?
  | none => return []

end Keyspace

namespace Step

/-- Puts a collection under a key and answers how many members it has. -/
def store (dest : String) (data : Data) (size : Nat) : Step Nat := do
  modify (·.replace dest data)
  return size

/-- Stores what an operation makes of the sets of keys. -/
def storeSets (dest : String) (keys : List String) (f : List Members → Members) : Step Nat := do
  let result := f (← read (·.sets keys))
  store dest (.set result) result.size

/-- Every key with its weight; all weights are one if none are given. -/
def pairWeights (keys : List String) : Option (List Double) → Step (List (String × Double))
  | none => return keys.map fun key => (key, .one)
  | some weights =>
    if weights.length = keys.length then return keys.zip weights else throw .badWeights

/-- Stores what an operation makes of the weighted sorted sets of keys. -/
def storeSorted (dest : String) (keys : List String) (weights : Option (List Double))
    (f : List (Table Double) → Table Double) : Step Nat := do
  let pairs ← pairWeights keys weights
  let result := f (← read (·.weighted pairs))
  store dest (.sortedSet result) result.size

/-- Stores the members of the first sorted set that are in no other. -/
def storeSortedDiff (dest : String) (keys : List String) : Step Nat := do
  let result := Table.diffAll (← read fun ks => keys.mapM ks.scored)
  store dest (.sortedSet result) result.size

/-- Stores the owners of the values of a unique field; with `ids`, those of them in that sorted
set. -/
def resolveUnique (hash : String) (values : List String) (dest : String) (ids : Option String) :
    Step Nat := do
  let found ← read (·.owners hash values)
  match ids with
  | some ids =>
    let all := (← read (·.sortedSet? ids)).getD ∅
    let result := Table.insertAll ∅ (found.filterMap fun id => (all[id]?).map fun s => (id, s))
    store dest (.sortedSet result) result.size
  | none =>
    let result := Members.insertAll ∅ found
    store dest (.set result) result.size

end Step

end KeyedRecords
