import QueryShape.Text.Hidden

/-!
# Quoted text

Text in double quotes, in which quotes, backslashes and all characters without a shape of their own are
escaped.
-/

set_option autoImplicit false

namespace QueryShape.Text

/-- A character inside quotes. Where no letter stands for it, its number is written in hexadecimal. -/
def escapeHidden (c : Char) : List Char :=
  if c = '"' then ['\\', '"']
  else if c = '\\' then ['\\', '\\']
  else if c = '\t' then ['\\', 't']
  else if c = '\n' then ['\\', 'n']
  else if c = '\r' then ['\\', 'r']
  else if c = '\x00' then ['\\', '0']
  else if isHidden c then ['\\', 'u', '{'] ++ Nat.toDigits 16 c.toNat ++ ['}']
  else [c]

def quoted (s : String) : String :=
  String.ofList ('"' :: s.toList.flatMap escapeHidden ++ ['"'])

end QueryShape.Text
