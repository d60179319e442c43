import KeyedRecords.Json.Reading
import KeyedRecords.Json.Writing
import KeyedRecords.Text.Utf8

/-!
# Values

The dynamic values that records, criteria and projections are made of. The views (`asBool?` and the
like) answer what a value can count as, without an error.
-/

namespace KeyedRecords

/-- A value of a field. -/
inductive Value where
  /-- No value. -/
  | null
  | bool (b : Bool)
  | int (n : Int64)
  | float (x : Double)
  | text (s : String)
  | bytes (data : List UInt8)
  | json (document : Json)
deriving BEq

namespace Value

/-- What a kind of value is called in messages. -/
def kindName : Value → String
  | .null => "NULL"
  | .bool _ => "BOOL"
  | .int _ => "INT"
  | .float _ => "FLOAT"
  | .text _ => "TEXT"
  | .bytes _ => "BYTES"
  | .json _ => "JSON"

/-- Whether there is no value. -/
def isNull : Value → Bool
  | .null => true
  | _ => false

/-- One for true, zero for false. -/
def ofFlag (b : Bool) : Int64 := if b then 1 else 0

/-- The truth value of a flag or an integer. -/
def asBool? : Value → Option Bool
  | .bool b => some b
  | .int n => some (n != 0)
  | _ => none

/-- The integer of an integer or a flag. -/
def asInt? : Value → Option Int64
  | .int n => some n
  | .bool b => some (ofFlag b)
  | _ => none

/-- The double of a number or a flag. -/
def asDouble? : Value → Option Double
  | .float x => some x
  | .int n => some (.ofInt n.toInt)
  | .bool b => some (if b then .one else .zero)
  | _ => none

def asText? : Value → Option String
  | .text s => some s
  | _ => none

/-- The bytes of bytes or of a text. -/
def asBytes? : Value → Option (List UInt8)
  | .bytes data => some data
  | .text s => some (Text.Utf8.encode s)
  | _ => none

end Value

end KeyedRecords
