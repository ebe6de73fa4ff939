import QueryShape.Text.Name
import QueryShape.Value

/-!
# The grammar of GraphQL constants

`ConstantText s v`: the text `s` is a constant value of GraphQL, and `v` is the value it denotes. As in
the language, the text is first cut into tokens (`Lexes`), and the tokens are then put together to a
value (`Denotes`).

    value  := int | string | 'true' | 'false' | 'null' | name | '[' value* ']' | '{' field* '}'
    field  := name ':' value

Tokens are as long as they can be. White space, line ends, commas, comments and the byte order mark may
stand between them and mean nothing. Floats, block strings, which start with three quotes, and escapes
of surrogates are left out: the constants at hand have none of them.
-/

set_option autoImplicit false

namespace QueryShape.Constant

open Text

/-! ## Tokens -/

inductive Token where
  /-- One of the marks `[`, `]`, `{`, `}` and `:`. -/
  | mark (c : Char)
  | name (n : String)
  | int (n : Int)
  | string (s : String)
deriving DecidableEq, Repr

def isLineEnd (c : Char) : Bool := c = '\n' || c = '\r'

/-- What means nothing between tokens, comments apart. -/
def isIgnored (c : Char) : Bool :=
  c = ' ' || c = '\t' || isLineEnd c || c = ',' || c = Char.ofNat 0xFEFF

/-- Digits without a zero in front. -/
structure IntegerPart (ds : List Char) : Prop where
  digits : ∀ d ∈ ds, d.isDigit = true
  nonempty : ds ≠ []
  leading : ds.head? = some '0' → ds = ['0']

inductive IntText : List Char → Int → Prop where
  | natural {ds : List Char} (h : IntegerPart ds) : IntText ds (Nat.ofDigitChars 10 ds 0)
  | negative {ds : List Char} (h : IntegerPart ds) : IntText ('-' :: ds) (-Nat.ofDigitChars 10 ds 0)

def isHexDigit (c : Char) : Bool :=
  c.isDigit || ('a' ≤ c && c ≤ 'f') || ('A' ≤ c && c ≤ 'F')

def hexDigitValue (c : Char) : Nat :=
  if c.isDigit then c.toNat - '0'.toNat
  else if c ≤ 'F' then c.toNat - 'A'.toNat + 10
  else c.toNat - 'a'.toNat + 10

def hexValue (hs : List Char) : Nat := hs.foldl (fun n h => 16 * n + hexDigitValue h) 0

/-- What follows `\u`: four digits, or any number of them in braces. -/
inductive UnicodeText : List Char → Char → Prop where
  | four {hs : List Char} {c : Char} (hlen : hs.length = 4) (hd : ∀ h ∈ hs, isHexDigit h = true)
      (hv : hexValue hs = c.toNat) : UnicodeText hs c
  | braced {hs : List Char} {c : Char} (hne : hs ≠ []) (hd : ∀ h ∈ hs, isHexDigit h = true)
      (hv : hexValue hs = c.toNat) : UnicodeText ('{' :: (hs ++ ['}'])) c

/-- The characters that a backslash may stand before, and what they mean then. -/
def escapes : List (Char × Char) :=
  [('"', '"'), ('\\', '\\'), ('/', '/'), ('b', Char.ofNat 8), ('f', Char.ofNat 12), ('n', '\n'),
    ('r', '\r'), ('t', '\t')]

/-- What stands between the quotes of a string, and the characters meant. A quote, a backslash or a line
end does not stand for itself. -/
inductive StringChars : List Char → List Char → Prop where
  | nil : StringChars [] []
  | plain {c : Char} {s cs : List Char} (hq : c ≠ '"') (hb : c ≠ '\\') (hl : isLineEnd c = false)
      (h : StringChars s cs) : StringChars (c :: s) (c :: cs)
  | escaped {e c : Char} {s cs : List Char} (he : (e, c) ∈ escapes) (h : StringChars s cs) :
      StringChars ('\\' :: e :: s) (c :: cs)
  | unicode {u s cs : List Char} {c : Char} (hu : UnicodeText u c) (h : StringChars s cs) :
      StringChars ('\\' :: 'u' :: (u ++ s)) (c :: cs)

inductive TokenText : List Char → Token → Prop where
  | mark {c : Char} (hc : c ∈ ['[', ']', '{', '}', ':']) : TokenText [c] (.mark c)
  | name {t : List Char} (ht : isName t = true) : TokenText t (.name (String.ofList t))
  | int {t : List Char} {n : Int} (h : IntText t n) : TokenText t (.int n)
  | string {s cs : List Char} (h : StringChars s cs) :
      TokenText ('"' :: (s ++ ['"'])) (.string (String.ofList cs))

/-- A token does not end before a character that it could go on with. After a number, a point or a
letter is an error, and two quotes are no string where a third one follows. -/
def Token.goesOn : Token → Char → Bool
  | mark _, _ => false
  | name _, c => isNameChar c
  | int _, c => isNameChar c || c = '.'
  | string s, c => s = "" && c = '"'

/-- The text consists of the tokens. -/
inductive Lexes : List Char → List Token → Prop where
  | nil : Lexes [] []
  | ignored {c : Char} {s : List Char} {ts : List Token} (hc : isIgnored c = true) (h : Lexes s ts) :
      Lexes (c :: s) ts
  | comment {cs s : List Char} {ts : List Token} (hcs : ∀ c ∈ cs, isLineEnd c = false)
      (hs : ∀ c ∈ s.head?, isLineEnd c = true) (h : Lexes s ts) : Lexes ('#' :: (cs ++ s)) ts
  | token {t s : List Char} {tok : Token} {ts : List Token} (ht : TokenText t tok)
      (hs : ∀ c ∈ s.head?, tok.goesOn c = false) (h : Lexes s ts) : Lexes (t ++ s) (tok :: ts)

/-! ## Values -/

mutual

/-- The tokens are those of a constant, which denotes the value. -/
inductive Denotes : List Token → Value → Prop where
  | null : Denotes [.name "null"] .null
  | true : Denotes [.name "true"] (.bool true)
  | false : Denotes [.name "false"] (.bool false)
  | enum {n : String} (hn : n ∉ ["true", "false", "null"]) : Denotes [.name n] (.enum n)
  | int {i : Int64} : Denotes [.int i.toInt] (.int i)
  | string {s : String} : Denotes [.string s] (.string s)
  | list {ts : List Token} {items : List Value} (h : DenotesItems ts items) :
      Denotes (.mark '[' :: (ts ++ [.mark ']'])) (.list items)
  | object {ts : List Token} {fields : List (String × Value)} (h : DenotesFields ts fields)
      (hd : (OrderedMap.keys fields).Nodup) :
      Denotes (.mark '{' :: (ts ++ [.mark '}'])) (.object fields)

inductive DenotesItems : List Token → List Value → Prop where
  | nil : DenotesItems [] []
  | cons {ts ts' : List Token} {v : Value} {vs : List Value} (h : Denotes ts v)
      (hs : DenotesItems ts' vs) : DenotesItems (ts ++ ts') (v :: vs)

inductive DenotesFields : List Token → List (String × Value) → Prop where
  | nil : DenotesFields [] []
  | cons {ts ts' : List Token} {k : String} {v : Value} {fs : List (String × Value)}
      (h : Denotes ts v) (hs : DenotesFields ts' fs) :
      DenotesFields (.name k :: .mark ':' :: (ts ++ ts')) ((k, v) :: fs)

end

/-- The text is a constant that denotes the value. -/
def ConstantText (s : List Char) (v : Value) : Prop := ∃ ts, Lexes s ts ∧ Denotes ts v

end QueryShape.Constant
