import QueryShape.Number.Binary64

/-!
# The shortest decimal that reads back

Of all decimals that round to a given binary64 number, `shortest` picks one with the fewest digits,
and among those the nearest. The reals that round to `m · 2^e` are an interval around it, with its
ends exactly when `m` is even. On the grid of decimals with `n` significant digits only the two
neighbours of the number can be nearest, so the search tests these for `n = 1, 2, …`.
-/

set_option autoImplicit false

namespace QueryShape

/-- Stands for `digits · 10^exponent`. -/
structure Decimal where
  digits : Nat
  exponent : Int
deriving DecidableEq, Repr, Inhabited

/-- Which of two equally near decimals is taken. -/
inductive Tie where
  | up
  | toEven
deriving DecidableEq, Repr

namespace Decimal

/-- `2^e` for `0 ≤ e`, else `1`. -/
def twos (e : Int) : Nat := Nat.pow 2 e.toNat

/-- `10^e` for `0 ≤ e`, else `1`. -/
def tens (e : Int) : Nat := Nat.pow 10 e.toNat

/-- The exponent `k` with `10^(k-1) ≤ num / den < 10^k`. -/
def magnitude (num den : Nat) : Int :=
  let k : Int := (Binary64.decimalLength num : Int) - Binary64.decimalLength den
  if num * tens (-k) < den * tens k then k else k + 1

/-- The point `d` of the grid of `n` digits with step `10^p`; the power of ten at its upper end needs
one digit only. -/
def point (d n : Nat) (p : Int) : Decimal := if d = Nat.pow 10 n then ⟨1, p + n⟩ else ⟨d, p⟩

/-- The decimal of `n` digits that is nearest to `m · 2^e` among those that round to it, if any does.
Both sides of each comparison are counted in quarters of `2^e`, so that the ends of the interval are
whole; below a power of two the next number is only half as far away. -/
def onGrid? (tie : Tie) (m : Nat) (e : Int) (n : Nat) (magnitude : Int) : Option Decimal :=
  let p := magnitude - n
  let perStep := tens p * twos (2 - e)
  let perQuarter := twos (e - 2) * tens (-p)
  let value := 4 * m * perQuarter
  let low :=
    (if m = Nat.pow 2 52 && Binary64.minExponent < e then 4 * m - 1 else 4 * m - 2) * perQuarter
  let high := (4 * m + 2) * perQuarter
  let hits (d : Nat) : Bool :=
    if m % 2 = 0 then low ≤ d * perStep && d * perStep ≤ high
    else low < d * perStep && d * perStep < high
  let below := value / perStep
  let above := below + 1
  let twice := 2 * (value % perStep)
  let nearer :=
    if twice < perStep then below
    else if perStep < twice then above
    else match tie with
      | .up => above
      | .toEven => if below % 2 = 0 then below else above
  match hits below, hits above with
  | true, true => some (point nearer n p)
  | true, false => some (point below n p)
  | false, true => some (point above n p)
  | false, false => none

/-- The shortest decimal for `m · 2^e`, for `m` not zero. Seventeen digits always suffice. -/
def shortest (tie : Tie) (m : Nat) (e : Int) : Decimal :=
  let k := magnitude (m * twos e) (twos (-e))
  ((List.range 17).findSome? fun i => onGrid? tie m e (i + 1) k).getD ⟨m, 0⟩

end Decimal

end QueryShape
