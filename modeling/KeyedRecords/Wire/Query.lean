import KeyedRecords.Query.Plan
import KeyedRecords.Query.Tree
import KeyedRecords.Wire.Command
import KeyedRecords.Wire.Value

/-!
# Documents of trees and plans

In the document of a plan, temporary keys are numbered in the order in which they are created.
-/

namespace KeyedRecords

/-- A field and values. -/
def selectionOfJson (j : Json) : String × List Value :=
  ((j.item 0).asText, (j.item 1).items.map .ofJson)

namespace Tree

mutual

def toJson : Tree → Json
  | .empty _ => .text "empty"
  | .select _ field values => .object [("sel", .list [.text field, .ofList Value.toJson values])]
  | .union _ operands => .object [("union", .list (allToJson operands))]
  | .intersect _ operands => .object [("intersect", .list (allToJson operands))]
  | .difference _ operands => .object [("difference", .list (allToJson operands))]

/-- The documents of trees. -/
def allToJson : List Tree → List Json
  | [] => []
  | t :: rest => t.toJson :: allToJson rest

end

/-- The tree of one operation on operands; names that begin with `raw` build nodes as they are. -/
def ofOperation (o : Origin) (operation : String) (operands : List Tree) : Tree :=
  match operation, operands with
  | "union", ts => .unionOf o ts
  | "intersect", ts => .intersection o ts
  | "difference", head :: tails => .differenceOf head tails
  | "raw_union", ts => .union o ts
  | "raw_intersect", ts => .intersect o ts
  | "raw_difference", ts => .difference o ts
  | _, _ => .everything o

mutual

/-- The tree that a document describes. A node names its model by position; without a name, it is
over the first of them. -/
def ofJson (first : Layout) (others : List Layout) : Json → Tree
  | .object members =>
    let model := (members.lookup "m").bind fun m => (first :: others)[m.asNat]?
    ofMembers first others ⟨model.getD first, none⟩ members
  | .text "universe" => .everything ⟨first, none⟩
  | _ => .empty ⟨first, none⟩

/-- The tree of the first operation that an object names. -/
def ofMembers (first : Layout) (others : List Layout) (o : Origin) :
    List (String × Json) → Tree
  | [] => .empty o
  | ("empty", _) :: _ => .empty o
  | ("m", _) :: rest => ofMembers first others o rest
  | ("sel", j) :: _ => .selection o (selectionOfJson j).1 (selectionOfJson j).2
  | ("raw_sel", j) :: _ => .select o (selectionOfJson j).1 (selectionOfJson j).2
  | (operation, .list operands) :: _ => ofOperation o operation (ofItems first others operands)
  | (_, _) :: _ => .everything o

/-- The trees of documents. -/
def ofItems (first : Layout) (others : List Layout) : List Json → List Tree
  | [] => []
  | j :: rest => ofJson first others j :: ofItems first others rest

end

end Tree

def Reader.toJson : Reader → Json
  | .empty => .tagged "empty" []
  | .set key => .tagged "set" [.text key]
  | .sorted key reversed => .tagged "zset" [.text key, .bool reversed]
  | .list key => .tagged "list" [.text key]

namespace Json

mutual

/-- A document with all its texts changed. -/
def mapTexts (f : String → String) : Json → Json
  | .text s => .text (f s)
  | .list items => .list (mapItems f items)
  | .object members => .object (mapMembers f members)
  | j => j

/-- Documents with all their texts changed. -/
def mapItems (f : String → String) : List Json → List Json
  | [] => []
  | j :: rest => mapTexts f j :: mapItems f rest

/-- Members with all texts of their documents changed. -/
def mapMembers (f : String → String) : List (String × Json) → List (String × Json)
  | [] => []
  | (name, j) :: rest => (name, mapTexts f j) :: mapMembers f rest

end

end Json

def Plan.toJson (p : Plan) : Json :=
  let numbered (s : String) : String :=
    match p.temporaries.idxOf? s with
    | some i => "tmp#" ++ Number.intText (i + 1)
    | none => s
  let document := Json.ofMembers [
    ("commands", .ofList Command.toJson p.commands), ("temp_keys", .ofTexts p.temporaries),
    ("source", .ofText? p.source), ("reader", p.reader.toJson), ("ordered", .bool p.ordered),
    ("sort_elided", .bool p.sortElided), ("is_empty", .bool p.isEmpty)]
  document.mapTexts numbered

end KeyedRecords
