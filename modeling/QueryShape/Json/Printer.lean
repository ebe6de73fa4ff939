import QueryShape.Json

/-!
# JSON as text

`Json.compact` writes a tree without white space, `Json.pretty` with two spaces for each level.
-/

set_option autoImplicit false

namespace QueryShape

namespace Json

def hexDigit (n : Nat) : Char := Nat.digitChar n

/-- A character inside a string: quotes, backslashes and control characters are escaped, the latter by
a letter where JSON has one. -/
def escape (c : Char) : List Char :=
  if c = '"' then ['\\', '"']
  else if c = '\\' then ['\\', '\\']
  else if c = '\x08' then ['\\', 'b']
  else if c = '\x0c' then ['\\', 'f']
  else if c = '\n' then ['\\', 'n']
  else if c = '\r' then ['\\', 'r']
  else if c = '\t' then ['\\', 't']
  else if c.toNat < 0x20 then
    ['\\', 'u', '0', '0', hexDigit (c.toNat / 16), hexDigit (c.toNat % 16)]
  else [c]

def quote (s : String) : List Char := '"' :: s.toList.flatMap escape ++ ['"']

mutual

/-- The text without white space. -/
def compactChars : Json → List Char
  | null => ['n', 'u', 'l', 'l']
  | bool true => ['t', 'r', 'u', 'e']
  | bool false => ['f', 'a', 'l', 's', 'e']
  | number text => text.toList
  | string s => quote s
  | array [] => ['[', ']']
  | array (j :: js) => '[' :: compactChars j ++ compactItems js
  | object [] => ['{', '}']
  | object ((k, j) :: fs) => '{' :: quote k ++ ':' :: compactChars j ++ compactFields fs
  | unreadable => ['n', 'u', 'l', 'l']

/-- The rest of an array after its first item. -/
def compactItems : List Json → List Char
  | [] => [']']
  | j :: js => ',' :: compactChars j ++ compactItems js

/-- The rest of an object after its first field. -/
def compactFields : List (String × Json) → List Char
  | [] => ['}']
  | (k, j) :: fs => ',' :: quote k ++ ':' :: compactChars j ++ compactFields fs

end

/-- A new line at a level. -/
def lineStart (level : Nat) : List Char := '\n' :: List.replicate (2 * level) ' '

mutual

/-- The text with a line for each item and field; `level` is that of the line it starts on. -/
def prettyChars (level : Nat) : Json → List Char
  | array (j :: js) =>
    '[' :: lineStart (level + 1) ++ prettyChars (level + 1) j ++ prettyItems level js
  | object ((k, j) :: fs) =>
    '{' :: lineStart (level + 1) ++ quote k ++ [':', ' '] ++ prettyChars (level + 1) j ++
      prettyFields level fs
  | array [] => ['[', ']']
  | object [] => ['{', '}']
  | null => compactChars null
  | bool b => compactChars (bool b)
  | number text => compactChars (number text)
  | string s => compactChars (string s)
  | unreadable => compactChars unreadable

def prettyItems (level : Nat) : List Json → List Char
  | [] => lineStart level ++ [']']
  | j :: js => ',' :: lineStart (level + 1) ++ prettyChars (level + 1) j ++ prettyItems level js

def prettyFields (level : Nat) : List (String × Json) → List Char
  | [] => lineStart level ++ ['}']
  | (k, j) :: fs =>
    ',' :: lineStart (level + 1) ++ quote k ++ [':', ' '] ++ prettyChars (level + 1) j ++
      prettyFields level fs

end

def compact (j : Json) : String := String.ofList j.compactChars

def pretty (j : Json) : String := String.ofList (j.prettyChars 0)

end Json

end QueryShape
