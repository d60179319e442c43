import KeyedRecords.Json.Access
import KeyedRecords.Model.Record

/-!
# Documents of values

How values and records are written for other programs. Doubles, bytes and documents are objects with
one member, which says what they are; a record is a list of pairs in its order.
-/

namespace KeyedRecords

def Value.toJson : Value → Json
  | .null => .null
  | .bool b => .bool b
  | .int n => .int n.toInt
  | .float x => .object [("float", .ofDouble x)]
  | .text s => .text s
  | .bytes data => .object [("bytes", .text (Text.Hex.encode data))]
  | .json document => .object [("json", .text document.write)]

/-- The value that a document stands for. -/
def Value.ofJson : Json → Value
  | .bool b => .bool b
  | .int n => .int (Int64.ofInt n)
  | .text s => .text s
  | .object [("float", x)] => .float x.asDouble
  | .object [("bytes", .text s)] => .bytes ((Text.Hex.decode? s).getD [])
  | .object [("json", .text s)] => .json ((Json.read? s).getD .null)
  | _ => .null

def Record.toJson (r : Record) : Json :=
  .ofList (fun (name, value) => .list [.text name, value.toJson]) r.entries

/-- The fields that a document sets, in order. -/
def Record.entriesOfJson (j : Json) : List (String × Value) :=
  j.items.map fun p => ((p.item 0).asText, .ofJson (p.item 1))

/-- The record that a document stands for. -/
def Record.ofJson (j : Json) : Record := .ofList (entriesOfJson j)

end KeyedRecords
