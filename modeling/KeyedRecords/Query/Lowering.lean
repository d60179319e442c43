import KeyedRecords.Query.Fields
import KeyedRecords.Query.Plan
import KeyedRecords.Query.Tree

/-!
# Lowering of trees

Turns a tree into commands, bottom up. Each node becomes a `Fragment`: commands that leave the ids
of the node under a key. The collections of an ordered model are sorted sets, and so are all results
of its fragments, with the scores of the ids; the last one is in storage order already.
-/

namespace KeyedRecords

/-- Commands that leave the ids of a node under a key. -/
structure Fragment where
  /-- The key; none if the node matches nothing. -/
  source : Option String
  commands : List Command
  /-- The temporary keys that the commands create. -/
  temporaries : List String

/-- The fragments of several nodes, one behind the other. -/
structure Fragments where
  /-- The keys of those nodes that match something. -/
  keys : List String
  commands : List Command
  /-- The temporary keys that the commands create. -/
  temporaries : List String

namespace Fragments

def empty : Fragments := ⟨[], [], []⟩

/-- Fragments with one more in front. -/
def cons (first : Fragment) (rest : Fragments) : Fragments :=
  ⟨first.source.toList ++ rest.keys, first.commands ++ rest.commands,
    first.temporaries ++ rest.temporaries⟩

/-- The fragment of a node none of whose ids are left. -/
def nothing (parts : Fragments) : Fragment := ⟨none, parts.commands, parts.temporaries⟩

/-- The fragment whose ids are under a key already. -/
def atKey (parts : Fragments) (key : String) : Fragment :=
  ⟨some key, parts.commands, parts.temporaries⟩

end Fragments

namespace Lowering

/-- What the fragments of one plan have in common. -/
structure Target where
  layout : Layout
  /-- How long temporary keys live, in seconds. -/
  lifetime : Nat

namespace Target

variable (t : Target)

/-- The `n`-th temporary key. -/
def temporary (n : Nat) : String := t.layout.keys.temporary n

/-- Behind other fragments, a command that creates a key, which then expires. -/
def create (parts : Fragments) (dest : String) (command : Command) : Fragment :=
  ⟨some dest, parts.commands ++ [command, .expire dest t.lifetime], parts.temporaries ++ [dest]⟩

/-- The command that stores the union of keys. -/
def unionCommand (dest : String) (keys : List String) : Command :=
  if t.layout.isOrdered then .zunionstore dest keys none .max else .sunionstore dest keys

/-- The command that stores the intersection of keys. -/
def intersectCommand (dest : String) (keys : List String) : Command :=
  if t.layout.isOrdered then .zinterstore dest keys none .max else .sinterstore dest keys

/-- The command that stores the difference of keys. -/
def differenceCommand (dest : String) (keys : List String) : Command :=
  if t.layout.isOrdered then .zdiffstore dest keys else .sdiffstore dest keys

/-- The union of nodes, when the next free name is the `n`-th behind theirs. -/
def unionOf (n : Nat) (parts : Fragments) : Fragment :=
  match parts.keys with
  | [] => parts.nothing
  | [key] => parts.atKey key
  | keys =>
    let dest := t.temporary (n + parts.temporaries.length)
    t.create parts dest (t.unionCommand dest keys)

/-- The intersection of nodes that all match something. -/
def intersectionOf (n : Nat) (parts : Fragments) : Fragment :=
  match parts.keys with
  | [key] => parts.atKey key
  | keys =>
    let dest := t.temporary (n + parts.temporaries.length)
    t.create parts dest (t.intersectCommand dest keys)

/-- The first of some nodes without the others. -/
def differenceOf (n : Nat) (parts : Fragments) : Fragment :=
  match parts.keys with
  | [key] => parts.atKey key
  | keys =>
    let dest := t.temporary (n + parts.temporaries.length)
    t.create parts dest (t.differenceCommand dest keys)

/-- The given ids that the collection of all ids has. -/
def idSelection (n : Nat) (ids : List String) : Fragment :=
  let dest := t.temporary n
  let all := t.layout.keys.ids
  -- with the weight zero for the given ids, the scores stay those of the model
  let restrict :=
    if t.layout.isOrdered then Command.zinterstore dest [all, dest] (some [.one, .zero]) .sum
    else .sinterstore dest [dest, all]
  t.create ⟨[], [.sadd dest ids], []⟩ dest restrict

/-- The owners of values of a unique field. -/
def uniqueSelection (n : Nat) (field : String) (values : List String) : Fragment :=
  let dest := t.temporary n
  let ids := if t.layout.isOrdered then some t.layout.keys.ids else none
  t.create .empty dest (.eval (.resolveUnique (t.layout.keys.unique field) values dest ids))

/-- The ids with one of the values of an indexed field. -/
def indexSelection (n : Nat) (field : String) (values : List String) : Fragment :=
  t.unionOf n ⟨values.map (t.layout.keys.index field), [], []⟩

end Target

/-- Values without repetitions; the first of equal ones stays. -/
def distinct (values : List String) : List String :=
  values.foldl (fun seen v => if seen.contains v then seen else seen ++ [v]) []

/-- The ids whose field has one of the values. Null is the value of no stored field. -/
def selection (t : Target) (n : Nat) (field : String) (values : List Value) :
    Except Error Fragment := do
  let f ← t.layout.queryableField field
  match distinct (values.filterMap f.kind.encode) with
  | [] => return Fragments.empty.nothing
  | raw =>
    if f.primaryKey then return t.idSelection n raw
    else if f.unique then return t.uniqueSelection n f.name raw
    else return t.indexSelection n f.name raw

/-- Refuses nodes over other models. -/
def checkOrigin (t : Target) (o : Origin) : Except Error Unit :=
  if o.layout.name = t.layout.name then .ok ()
  else .error (.consistency s!"{o.layout.name} node inside a {t.layout.name} query")

mutual

/-- The fragment of a node, with temporary names from the `n`-th on. -/
def lowerNode (t : Target) : Nat → Tree → Except Error Fragment
  | _, .empty o => do
    checkOrigin t o
    return Fragments.empty.nothing
  | n, .select o field values => do
    checkOrigin t o
    selection t n field values
  | n, .union o operands => do
    checkOrigin t o
    return t.unionOf n (← lowerEach t n operands)
  | _, .intersect o [] => do
    checkOrigin t o
    -- no operand restricts the collection of all ids
    return Fragments.empty.atKey t.layout.keys.ids
  | n, .intersect o (first :: rest) => do
    checkOrigin t o
    let (parts, complete) ← lowerWhile t n (first :: rest)
    return if complete then t.intersectionOf n parts else parts.nothing
  | n, .difference o (head :: second :: rest) => do
    checkOrigin t o
    let first ← lowerNode t n head
    match first.source with
    -- nothing can be taken away from nothing, so the others are not lowered
    | none => return first
    | some _ =>
      let others ← lowerEach t (n + first.temporaries.length) (second :: rest)
      return t.differenceOf n (.cons first others)
  | _, .difference o operands => do
    checkOrigin t o
    let count := Number.intText operands.length
    throw (.consistency s!"difference needs at least two operands, got {count}")

/-- The fragments of nodes. -/
def lowerEach (t : Target) : Nat → List Tree → Except Error Fragments
  | _, [] => .ok .empty
  | n, node :: rest => do
    let first ← lowerNode t n node
    let others ← lowerEach t (n + first.temporaries.length) rest
    return .cons first others

/-- The fragments of nodes up to the first that matches nothing, and whether there was none. -/
def lowerWhile (t : Target) : Nat → List Tree → Except Error (Fragments × Bool)
  | _, [] => .ok (.empty, true)
  | n, node :: rest => do
    let first ← lowerNode t n node
    match first.source with
    -- the intersection is empty, whatever the other nodes match
    | none => return (.cons first .empty, false)
    | some _ =>
      let (others, complete) ← lowerWhile t (n + first.temporaries.length) rest
      return (.cons first others, complete)

end

/-- The command that sorts ids by a field and stores the list. -/
def sortCommand (l : Layout) (f : Field) (descending : Bool) (key dest : String) : Command :=
  -- ids are sorted as they are, and other fields are looked up in the records
  let pattern? := if f.primaryKey then none else some (l.keys.sortPattern f.name)
  .sort key pattern? descending (!f.kind.isNumeric) (some dest)

/-- The plan of a fragment that is read in storage order. -/
def storagePlan (l : Layout) (found : Fragment) : Plan :=
  let reader := match found.source, l.defaultOrdering with
    | none, _ => Reader.empty
    | some key, some order => .sorted key order.descending
    | some key, none => .set key
  { commands := found.commands, temporaries := found.temporaries, source := found.source
    reader, ordered := l.isOrdered, sortElided := false }

/-- The plan of a fragment that is read in the order asked for. -/
def sortedPlan (t : Target) (n : Nat) (found : Fragment) (key : String) (order : SortOrder) :
    Except Error Plan := do
  let l := t.layout
  l.checkOrdering order
  if l.defaultOrdering.any (·.field == order.field) then
    return { storagePlan l found with reader := .sorted key order.descending, sortElided := true }
  else
    match l.field? order.field with
    | none => throw (.consistency "checked ordering field vanished")
    | some f =>
      let dest := t.temporary (n + found.temporaries.length)
      let sorted := t.create ⟨[], found.commands, found.temporaries⟩ dest
        (sortCommand l f order.descending key dest)
      return { storagePlan l found with
        commands := sorted.commands, temporaries := sorted.temporaries, reader := .list dest }

end Lowering

/-- The plan of a tree, sorted if so asked, with temporary names from the `n`-th on that live so
many seconds. -/
def Tree.lower (tree : Tree) (sort : Option SortOrder) (lifetime n : Nat) : Except Error Plan := do
  let t : Lowering.Target := ⟨tree.origin.layout, lifetime⟩
  let found ← Lowering.lowerNode t n tree
  match found.source, sort with
  | some key, some order => Lowering.sortedPlan t n found key order
  | _, _ => return Lowering.storagePlan t.layout found

end KeyedRecords
