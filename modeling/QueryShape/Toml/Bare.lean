import QueryShape.Json
import QueryShape.Number.Binary64

/-!
# Values without quotes

The values of a TOML text that are neither strings nor made up of other values: truth values, integers,
floats, dates and times. Such a value ends where a character follows that none of them has.
-/

set_option autoImplicit false

namespace QueryShape.Toml

/-- The characters of values without quotes. -/
def isBareValueChar (c : Char) : Bool :=
  c.isAlphanum || c = '_' || c = '+' || c = '-' || c = '.' || c = ':'

/-! ## Numbers -/

/-- Digits, with single underscores between them. -/
def isGrouped (isDigit : Char → Bool) : List Char → Bool
  | [] => false
  | [c] => isDigit c
  | c :: '_' :: rest => isDigit c && isGrouped isDigit rest
  | c :: rest => isDigit c && isGrouped isDigit rest

/-- The characters without underscores. -/
def ungroup (cs : List Char) : List Char := cs.filter (· ≠ '_')

/-- The text after a sign, and whether the sign is a minus. -/
def splitSign : List Char → Bool × List Char
  | '-' :: cs => (true, cs)
  | '+' :: cs => (false, cs)
  | cs => (false, cs)

/-- A whole number without a sign: grouped digits, of which the first is zero only if it is alone. -/
def isWhole (cs : List Char) : Bool :=
  isGrouped Char.isDigit cs && (cs.head? != some '0' || cs.length == 1)

/-- Whether a magnitude fits into 64 bits with its sign. -/
def fits (negative : Bool) (n : Nat) : Bool :=
  if negative then n ≤ Nat.pow 2 63 else n < Nat.pow 2 63

def digitValue (c : Char) : Nat :=
  if c.isDigit then c.toNat - '0'.toNat else c.toLower.toNat - 'a'.toNat + 10

/-- A number in a base other than ten, after its mark. -/
def isBased (base : Nat) (isDigit : Char → Bool) (cs : List Char) : Bool :=
  isGrouped isDigit cs && fits false ((ungroup cs).foldl (fun n c => base * n + digitValue c) 0)

def isHexDigit (c : Char) : Bool :=
  c.isDigit || ('a' ≤ c && c ≤ 'f') || ('A' ≤ c && c ≤ 'F')

def isInteger : List Char → Bool
  | '0' :: 'x' :: cs => isBased 16 isHexDigit cs
  | '0' :: 'o' :: cs => isBased 8 (fun c => '0' ≤ c && c ≤ '7') cs
  | '0' :: 'b' :: cs => isBased 2 (fun c => c = '0' || c = '1') cs
  | cs =>
    let (negative, digits) := splitSign cs
    isWhole digits && fits negative (Binary64.digitsValue (ungroup digits))

/-- An exponent after its mark. -/
def isExponent (cs : List Char) : Bool := isGrouped Char.isDigit (splitSign cs).2

/-- What follows the whole part of a float: a fraction, an exponent or both. -/
def isFloatTail : List Char → Bool
  | '.' :: cs =>
    let fraction := cs.takeWhile fun c => c ≠ 'e' && c ≠ 'E'
    isGrouped Char.isDigit fraction &&
      match cs.drop fraction.length with
      | [] => true
      | _ :: exponent => isExponent exponent
  | c :: cs => (c = 'e' || c = 'E') && isExponent cs
  | [] => false

/-- A float. One that is too large for a number is refused, but not one that is too small. -/
def isFloat (cs : List Char) : Bool :=
  let body := (splitSign cs).2
  let whole := body.takeWhile fun c => c ≠ '.' && c ≠ 'e' && c ≠ 'E'
  body = ['i', 'n', 'f'] || body = ['n', 'a', 'n'] ||
    (isWhole whole && isFloatTail (body.drop whole.length) &&
      match Binary64.read? (ungroup cs) with
      | some (.infinite negative) => negative
      | _ => true)

/-! ## Dates and times -/

/-- The number of two digits, if it is not above `high`. -/
def two? (high : Nat) (a b : Char) : Option Nat :=
  if a.isDigit && b.isDigit && Binary64.digitsValue [a, b] ≤ high then
    some (Binary64.digitsValue [a, b])
  else none

def isLeapYear (year : Nat) : Bool := year % 4 == 0 && (year % 100 != 0 || year % 400 == 0)

def daysInMonth (year month : Nat) : Nat :=
  if month = 2 then (if isLeapYear year then 29 else 28)
  else if month = 4 || month = 6 || month = 9 || month = 11 then 30
  else 31

/-- What follows a date. -/
def afterDate? : List Char → Option (List Char)
  | y₁ :: y₂ :: y₃ :: y₄ :: '-' :: m₁ :: m₂ :: '-' :: d₁ :: d₂ :: rest => do
    let year := [y₁, y₂, y₃, y₄]
    let month ← two? 12 m₁ m₂
    let day ← two? 31 d₁ d₂
    if year.all Char.isDigit && 1 ≤ month && 1 ≤ day &&
        day ≤ daysInMonth (Binary64.digitsValue year) month then
      some rest
    else none
  | _ => none

/-- What follows a time: hours, minutes, seconds, and digits after a point. -/
def afterTime? : List Char → Option (List Char)
  | h₁ :: h₂ :: ':' :: m₁ :: m₂ :: ':' :: s₁ :: s₂ :: rest => do
    let _ ← two? 23 h₁ h₂
    let _ ← two? 59 m₁ m₂
    let _ ← two? 60 s₁ s₂
    match rest with
    | '.' :: d :: ds => if d.isDigit then some (ds.dropWhile Char.isDigit) else none
    | rest => some rest
  | _ => none

/-- The offset of a time, or nothing. -/
def isOffset : List Char → Bool
  | [] => true
  | [c] => c = 'Z' || c = 'z'
  | [s, h₁, h₂, ':', m₁, m₂] =>
    (s = '+' || s = '-') && (two? 23 h₁ h₂).isSome && (two? 59 m₁ m₂).isSome
  | _ => false

/-- A time that may have an offset, as it stands after a date. -/
def isTimeOfDate (cs : List Char) : Bool := (afterTime? cs).any isOffset

/-- A date, a date with a time, or a time. -/
def isDateTime (cs : List Char) : Bool :=
  match afterDate? cs with
  | some [] => true
  | some (c :: rest) => (c = 'T' || c = 't') && isTimeOfDate rest
  | none => afterTime? cs = some []

/-! ## Values -/

/-- The value of a date or time: a record with one field, its text. -/
def dateTime (text : List Char) : Json := .object [("datetime", .string (String.ofList text))]

/-- The value of a token. -/
def bareValue? (token : List Char) : Option Json :=
  if token = ['t', 'r', 'u', 'e'] then some (.bool true)
  else if token = ['f', 'a', 'l', 's', 'e'] then some (.bool false)
  else if isInteger token || isFloat token then some (.number (String.ofList token))
  else if isDateTime token then some (dateTime token)
  else none

/-- A value without quotes and what follows it. Between a date and its time a space may stand. -/
def readBare? (cs : List Char) : Option (Json × List Char) :=
  let token := cs.takeWhile isBareValueChar
  let rest := cs.dropWhile isBareValueChar
  match afterDate? token, rest with
  | some [], ' ' :: more =>
    let time := more.takeWhile isBareValueChar
    if time = [] then some (dateTime token, rest)
    else if isTimeOfDate time then
      some (dateTime (token ++ ' ' :: time), more.dropWhile isBareValueChar)
    else none
  | _, _ => (bareValue? token).map (·, rest)

theorem length_readBare? {cs : List Char} {out : Json × List Char} (h : readBare? cs = some out) :
    out.2.length < cs.length := by
  have happ : cs.takeWhile isBareValueChar ++ cs.dropWhile isBareValueChar = cs :=
    List.takeWhile_append_dropWhile
  have hlen := congrArg List.length happ
  rw [List.length_append] at hlen
  unfold readBare? at h
  generalize cs.takeWhile isBareValueChar = token at *
  generalize cs.dropWhile isBareValueChar = rest at *
  have hpos : ∀ {r}, afterDate? token = some r → 0 < token.length := by
    intro r hr
    cases token with
    | nil => simp [afterDate?] at hr
    | cons => simp
  dsimp only at h
  split at h
  · rename_i more hd
    have := hpos hd
    have := (List.dropWhile_sublist isBareValueChar (l := more)).length_le
    simp only [List.length_cons] at hlen
    split at h
    · cases h
      simp only [List.length_cons]
      omega
    · split at h
      · cases h
        simp only
        omega
      · simp at h
  · obtain ⟨j, hj, rfl⟩ := Option.map_eq_some_iff.1 h
    cases token with
    | nil =>
      have : (bareValue? []).isSome = false := by decide
      simp [hj] at this
    | cons => simp only [List.length_cons] at hlen ⊢; omega

end QueryShape.Toml
