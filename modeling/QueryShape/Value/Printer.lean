import QueryShape.Value
import QueryShape.Number.Layout

/-!
# Values as text

`Value.chars` writes a value as a GraphQL constant. As the literal of an argument, `null` is written
as nothing at all, and an argument without text is left out.
-/

set_option autoImplicit false

namespace QueryShape

namespace Value

/-- A character inside a string constant: quotes and backslashes are escaped, and so is the line feed. -/
def escape (c : Char) : List Char :=
  if c = '"' then ['\\', '"']
  else if c = '\\' then ['\\', '\\']
  else if c = '\n' then ['\\', 'n']
  else [c]

/-- A string constant in quotes. -/
def quote (cs : List Char) : List Char := '"' :: cs.flatMap escape ++ ['"']

def intChars (i : Int64) : List Char :=
  let n := i.toInt
  if n < 0 then '-' :: Nat.toDigits 10 n.natAbs else Nat.toDigits 10 n.natAbs

mutual

/-- The text of a value as a GraphQL constant. -/
def chars : Value → List Char
  | null => ['n', 'u', 'l', 'l']
  | bool true => ['t', 'r', 'u', 'e']
  | bool false => ['f', 'a', 'l', 's', 'e']
  | int i => intChars i
  | float x => x.literalChars
  | string s => quote s.toList
  | enum name => name.toList
  | list [] => ['[', ']']
  | list (v :: vs) => '[' :: chars v ++ itemsChars vs
  | object [] => ['{', '}']
  | object ((k, v) :: fs) => '{' :: k.toList ++ [':', ' '] ++ chars v ++ fieldsChars fs

/-- The rest of a list after its first item. -/
def itemsChars : List Value → List Char
  | [] => [']']
  | v :: vs => ',' :: ' ' :: chars v ++ itemsChars vs

/-- The rest of an object after its first field. -/
def fieldsChars : List (String × Value) → List Char
  | [] => ['}']
  | (k, v) :: fs => ',' :: ' ' :: k.toList ++ [':', ' '] ++ chars v ++ fieldsChars fs

end

/-- The text as a default of a variable. -/
def defaultText (v : Value) : String := String.ofList v.chars

/-- The text as the literal of an argument: nothing for `null`. -/
def literalText : Value → String
  | null => ""
  | v => v.defaultText

end Value

end QueryShape
