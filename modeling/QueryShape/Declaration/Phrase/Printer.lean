import QueryShape.Declaration.Argument
import QueryShape.Declaration.Phrase.Grammar

/-!
# The text of phrases

`PhraseTree.text` writes a phrase without white space between its tokens. In lists of generic arguments and
parameters the lifetimes come first, what says nothing is left out, and verbatim phrases stay as they are.
-/

set_option autoImplicit false

namespace QueryShape

/-- A phrase of a bound or type. -/
abbrev TypeTree := PhraseTree Phrase TypeToken

/-- Whether a phrase comes first among arguments or parameters. -/
def Phrase.isLifetime : Phrase → Bool
  | lifetimeArgument | lifetimeParameter => true
  | _ => false

/-- The value of a digit in bases up to sixteen. -/
def digitValue (c : Char) : Nat :=
  if c.isDigit then c.toNat - '0'.toNat
  else if 'a' ≤ c && c ≤ 'f' then c.toNat - 'a'.toNat + 10
  else if 'A' ≤ c && c ≤ 'F' then c.toNat - 'A'.toNat + 10
  else 0

def numberOfDigits (base : Nat) (digits : List Char) : Nat :=
  digits.foldl (fun n c => n * base + digitValue c) 0

/-- A number in decimal digits, whatever its base was. -/
def decimalText (number : String) : String :=
  match number.toList.filter (· != '_') with
  | '0' :: 'x' :: digits => toString (numberOfDigits 16 digits)
  | '0' :: 'o' :: digits => toString (numberOfDigits 8 digits)
  | '0' :: 'b' :: digits => toString (numberOfDigits 2 digits)
  | digits => if digits.all Char.isDigit then toString (numberOfDigits 10 digits) else number

namespace PhraseTree

/-- The generic arguments that parts of a list stand for, each with its text. -/
def listedArguments : List (TypeTree × String) → List GenericArgument
  | [] => []
  | (node p _, text) :: (leaf (.sign ',' _), _) :: rest =>
    ⟨p.isLifetime, text, true⟩ :: listedArguments rest
  | (node p _, text) :: rest => ⟨p.isLifetime, text, false⟩ :: listedArguments rest
  | (leaf _, _) :: rest => listedArguments rest

mutual

/-- The text of a phrase. -/
def text : TypeTree → String
  | leaf t => t.text
  | node p parts =>
    match p with
    | .verbatim _ => TypeToken.listText (tokensOfList parts)
    | .omitted _ => ""
    | .arguments | .captures | .generics =>
      GenericArgument.listText (listedArguments (parts.zip (textList parts)))
    | .markedBinder =>
      match textList parts with
      | binder :: mark :: rest => mark ++ binder ++ String.join rest
      | texts => String.join texts
    | .oldRangeSign => "..="
    | .unnamedParameter => "_:" ++ String.join (textList parts)
    | .index => ".".intercalate (((String.join (textList parts)).splitOn ".").map decimalText)
    | _ => String.join (textList parts)

def textList : List TypeTree → List String
  | [] => []
  | t :: ts => t.text :: textList ts

end

end PhraseTree

end QueryShape
