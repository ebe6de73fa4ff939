import QueryShape.Data.OrderedMap
import QueryShape.Number.Binary64

/-!
# Input values

The values that arguments and variable defaults take: the input values of GraphQL. An object keeps its
fields in the order in which they were first given.
-/

set_option autoImplicit false

namespace QueryShape

inductive Value where
  | null
  | bool (b : Bool)
  | int (i : Int64)
  | float (x : Binary64)
  | string (s : String)
  /-- A bare name, written as it is. -/
  | enum (name : String)
  | list (items : List Value)
  | object (fields : List (String × Value))
deriving Repr, Inhabited

namespace Value

/-- An object of the given fields; a repeated name keeps its first place and takes the last value. -/
def ofFields (fields : List (String × Value)) : Value := object (OrderedMap.ofList fields)

mutual

/-- Equality of the values meant: floats by their numbers, objects without regard to order. -/
def same : Value → Value → Bool
  | null, null => true
  | bool a, bool b => a == b
  | int a, int b => a == b
  | float a, float b => a.same b
  | string a, string b => a == b
  | enum a, enum b => a == b
  | list as, list bs => sameItems as bs
  | object as, object bs => as.length == bs.length && sameFields as bs
  | _, _ => false

def sameItems : List Value → List Value → Bool
  | [], [] => true
  | a :: as, b :: bs => same a b && sameItems as bs
  | _, _ => false

/-- Each of the fields is among `others`, with the same value. -/
def sameFields : List (String × Value) → List (String × Value) → Bool
  | [], _ => true
  | (name, a) :: as, others =>
    (match OrderedMap.find? others name with
      | some b => same a b
      | none => false) && sameFields as others

end

end Value

end QueryShape
