import QueryShape.Value
import QueryShape.Number.Layout

/-!
# JSON

JSON texts as trees. Objects keep the order of their fields and may repeat a name.
-/

set_option autoImplicit false

namespace QueryShape

inductive Json where
  | null
  | bool (b : Bool)
  /-- A number, as it is written. -/
  | number (text : String)
  | string (s : String)
  | array (items : List Json)
  | object (fields : List (String × Json))
  /-- A string, or an object with a name, in which an escape leaves one half of a surrogate pair alone:
  JSON allows it, but it holds no text. -/
  | unreadable
deriving Repr, Inhabited

mutual

/-- The JSON form of a value: an enum is its name, and a float without a number is null. -/
def Value.toJson : Value → Json
  | .null => .null
  | .bool b => .bool b
  | .int i => .number (toString i.toInt)
  | .float x =>
    match x.jsonChars? with
    | some cs => .number (String.ofList cs)
    | none => .null
  | .string s => .string s
  | .enum name => .string name
  | .list items => .array (Value.toJsonItems items)
  | .object fields => .object (Value.toJsonFields fields)

def Value.toJsonItems : List Value → List Json
  | [] => []
  | v :: vs => v.toJson :: Value.toJsonItems vs

def Value.toJsonFields : List (String × Value) → List (String × Json)
  | [] => []
  | (k, v) :: fs => (k, v.toJson) :: Value.toJsonFields fs

end

end QueryShape
