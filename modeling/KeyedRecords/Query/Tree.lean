import KeyedRecords.Instance.Identity
import KeyedRecords.Model.Record

/-!
# Query trees

A query is a tree of set operations over selections by field. The constructors in the namespace
`Tree` simplify while they build: what matches nothing is left out of unions and differences, and
empties an intersection; an operation on one operand is the operand.
-/

namespace KeyedRecords

/-- What the nodes of a tree belong to. -/
structure Origin where
  /-- The model whose ids are meant. -/
  layout : Layout
  /-- The session that asks. -/
  session : Option SessionId

/-- A set of ids, described by operations. -/
inductive Tree where
  /-- No ids. -/
  | empty (origin : Origin)
  /-- The ids whose field has one of the values. -/
  | select (origin : Origin) (field : String) (values : List Value)
  /-- The ids that any operand has. -/
  | union (origin : Origin) (operands : List Tree)
  /-- The ids that all operands have; all ids of the model without operands. -/
  | intersect (origin : Origin) (operands : List Tree)
  /-- The ids that the first operand has and no other. -/
  | difference (origin : Origin) (operands : List Tree)

/-- Two origins count as the same if the models have one name and the sessions agree. -/
def Origin.same (a b : Origin) : Bool :=
  a.layout.name == b.layout.name && a.session == b.session

namespace Tree

mutual

/-- Equality of trees; not-a-number differs from itself. -/
def equal : Tree → Tree → Bool
  | .empty o, .empty p => o.same p
  | .select o f vs, .select p g ws => o.same p && f == g && vs == ws
  | .union o as, .union p bs => o.same p && equalAll as bs
  | .intersect o as, .intersect p bs => o.same p && equalAll as bs
  | .difference o as, .difference p bs => o.same p && equalAll as bs
  | _, _ => false

/-- Equality of lists of trees. -/
def equalAll : List Tree → List Tree → Bool
  | [], [] => true
  | a :: as, b :: bs => equal a b && equalAll as bs
  | _, _ => false

end

instance : BEq Tree := ⟨equal⟩

/-- What a node belongs to. -/
def origin : Tree → Origin
  | .empty o => o
  | .select o _ _ => o
  | .union o _ => o
  | .intersect o _ => o
  | .difference o _ => o

/-- The operands of a node. -/
def operands : Tree → List Tree
  | .empty _ => []
  | .select _ _ _ => []
  | .union _ ts => ts
  | .intersect _ ts => ts
  | .difference _ ts => ts

/-- Whether a tree plainly matches nothing. -/
def isEmpty : Tree → Bool
  | .empty _ => true
  | _ => false

/-- Whether a tree plainly matches all ids. -/
def isEverything : Tree → Bool
  | .intersect _ [] => true
  | _ => false

/-- All ids of the model. -/
def everything (o : Origin) : Tree := .intersect o []

/-- The ids whose field has one of the values. -/
def selection (o : Origin) (field : String) (values : List Value) : Tree :=
  if values.isEmpty then .empty o else .select o field values

/-- The ids that all trees match. -/
def intersection (o : Origin) (trees : List Tree) : Tree :=
  if trees.any isEmpty then .empty o
  else
    match trees with
    | [only] => only
    | trees => .intersect o trees

/-- The ids that any of the trees matches. -/
def unionOf (o : Origin) (trees : List Tree) : Tree :=
  match trees.filter (!·.isEmpty) with
  | [] => .empty o
  | [only] => only
  | trees => .union o trees

/-- The ids that the first tree matches and none of the others. -/
def differenceOf (head : Tree) (tails : List Tree) : Tree :=
  if head.isEmpty then head
  else
    match tails.filter (!·.isEmpty) with
    | [] => head
    | tails => .difference head.origin (head :: tails)

end Tree

end KeyedRecords
