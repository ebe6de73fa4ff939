import QueryShape.Number.Shortest

/-!
# How numbers are written

Three layouts of a binary64 number: plain positional text, the text of a float in a GraphQL document,
and JSON text.
-/

set_option autoImplicit false

namespace QueryShape

namespace Decimal

/-- Positional notation without an exponent. -/
def positional (d : Decimal) : List Char :=
  let ds := Nat.toDigits 10 d.digits
  let point : Int := ds.length + d.exponent
  if 0 ≤ d.exponent then ds ++ List.replicate d.exponent.toNat '0'
  else if 0 < point then ds.take point.toNat ++ '.' :: ds.drop point.toNat
  else '0' :: '.' :: List.replicate (-point).toNat '0' ++ ds

/-- One digit, a point if more follow, and the exponent of ten with its sign. -/
def scientific (d : Decimal) : List Char :=
  let ds := Nat.toDigits 10 d.digits
  let x : Int := ds.length - 1 + d.exponent
  let mantissa := if ds.length = 1 then ds else ds.take 1 ++ '.' :: ds.drop 1
  mantissa ++ 'e' :: (if x < 0 then '-' else '+') :: Nat.toDigits 10 x.natAbs

end Decimal

namespace Binary64

def signed (negative : Bool) (cs : List Char) : List Char := if negative then '-' :: cs else cs

/-- Plain text: the shortest digits that read back, a tie going up, never an exponent, and no point
in a whole number. -/
def plainChars : Binary64 → List Char
  | nan => ['N', 'a', 'N']
  | infinite s => signed s ['i', 'n', 'f']
  | finite s m e => signed s (if m = 0 then ['0'] else (Decimal.shortest .up m e).positional)

/-- Text in a document: a whole number is written with all its digits and `.0`, so that it stays a
float; any other number as in `plainChars`. -/
def literalChars : Binary64 → List Char
  | finite s m e =>
    match whole? m e with
    | some n => signed s (Nat.toDigits 10 n ++ ['.', '0'])
    | none => plainChars (finite s m e)
  | x => plainChars x

/-- JSON text: the shortest digits that read back, a tie going to even; positional from `10^-5` up to
below `10^16`, with `.0` after a whole number, and scientific outside. Only finite numbers have one. -/
def jsonChars? : Binary64 → Option (List Char)
  | finite s m e =>
    some <| signed s <|
      if m = 0 then ['0', '.', '0']
      else
        let d := Decimal.shortest .toEven m e
        let x : Int := (decimalLength d.digits : Int) - 1 + d.exponent
        if -5 ≤ x ∧ x ≤ 15 then
          if 0 ≤ d.exponent then d.positional ++ ['.', '0'] else d.positional
        else d.scientific
  | _ => none

def plainText (x : Binary64) : String := String.ofList x.plainChars

end Binary64

end QueryShape
