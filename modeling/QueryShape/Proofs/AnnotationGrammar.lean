import QueryShape.Annotation.Reader

/-!
# The grammar of annotations

`Derives s a`: the text `s` is an annotation, and `a` is what it denotes. The rules say nothing of how
a text is read: each relates a whole text, cut into the texts of its parts, to its meaning.

    annotation := item (',' item)*
    item       := name '(' [argument (',' argument)*] ')'      the first item only
                | name ['=' name]
    argument   := name ':' ( '$' [name] [':' type] ['=' value] | value [':' type] )
    type       := (name | '[' type ']') ['!']
    value      := integer | float | 'true' | 'false' | 'null' | name | '"' characters '"'
                | '[' [value (',' value)*] ']'
                | '{' [name ':' value (',' name ':' value)*] '}'

Blanks may stand before every token, and at the end; the text of a phrase starts with the blanks
before its first token. The name of a variable is the one token before which none stand.
-/

set_option autoImplicit false

namespace QueryShape.Annotation

open Text

variable {α : Type}

/-! ## Tokens -/

def Blanks (w : List Char) : Prop := ∀ c ∈ w, isBlank c = true

/-- The token `x`. -/
inductive Mark (x : Char) : List Char → Prop where
  | mk {w : List Char} (hw : Blanks w) : Mark x (w ++ [x])

/-- The token of a name. -/
inductive NameText : List Char → String → Prop where
  | mk {w t : List Char} (hw : Blanks w) (ht : isName t = true) : NameText (w ++ t) (String.ofList t)

/-- What stands between the quotes of a string, and the characters meant. -/
inductive StringText : List Char → List Char → Prop where
  | nil : StringText [] []
  | plain {c : Char} {s cs : List Char} (hq : c ≠ '"') (hb : c ≠ '\\') (h : StringText s cs) :
      StringText (c :: s) (c :: cs)
  | lineFeed {s cs : List Char} (h : StringText s cs) : StringText ('\\' :: 'n' :: s) ('\n' :: cs)
  | escaped {c : Char} {s cs : List Char} (hc : c ≠ 'n') (h : StringText s cs) :
      StringText ('\\' :: c :: s) (c :: cs)

/-- A point or an exponent mark, which only a float has. -/
def isFloatMark (c : Char) : Bool := c = '.' || c = 'e' || c = 'E'

def isNumberChar (c : Char) : Bool := c.isDigit || c = '+' || c = '-' || isFloatMark c

/-- The token of a number. An integer fits 64 bits; a float has a point or an exponent mark, and is the
binary64 number that its characters read as. -/
inductive NumberText : List Char → Value → Prop where
  | natural {ds : List Char} (hne : ds ≠ []) (hds : ds.all Char.isDigit)
      (hle : Binary64.digitsValue ds < Nat.pow 2 63) :
      NumberText ds (.int (Int64.ofInt (Binary64.digitsValue ds)))
  | negative {ds : List Char} (hne : ds ≠ []) (hds : ds.all Char.isDigit)
      (hle : Binary64.digitsValue ds ≤ Nat.pow 2 63) :
      NumberText ('-' :: ds) (.int (Int64.ofInt (-Binary64.digitsValue ds)))
  | float {c : Char} {run : List Char} {x : Binary64} (hc : (c = '-' || c.isDigit) = true)
      (hrun : run.all isNumberChar) (hmark : run.any isFloatMark)
      (hx : Binary64.read? (c :: run) = some x) : NumberText (c :: run) (.float x)

/-! ## Phrases -/

/-- One or more, divided by commas. -/
inductive Separated (P : List Char → α → Prop) : List Char → List α → Prop where
  | one {s : List Char} {a : α} (h : P s a) : Separated P s [a]
  | cons {s m t : List Char} {a : α} {as : List α} (h : P s a) (hm : Mark ',' m)
      (ht : Separated P t as) : Separated P (s ++ (m ++ t)) (a :: as)

/-- Any number, divided by commas. -/
inductive Listed (P : List Char → α → Prop) : List Char → List α → Prop where
  | nil : Listed P [] []
  | some {s : List Char} {as : List α} (h : Separated P s as) : Listed P s as

/-- A name, a colon and what belongs to the name. -/
inductive Keyed (P : List Char → α → Prop) : List Char → String × α → Prop where
  | mk {k m s : List Char} {key : String} {a : α} (hk : NameText k key) (hm : Mark ':' m) (h : P s a) :
      Keyed P (k ++ (m ++ s)) (key, a)

/-- Nothing, or the mark `x` and what it announces. -/
inductive Optionally (x : Char) (P : List Char → α → Prop) : List Char → Option α → Prop where
  | none : Optionally x P [] none
  | some {m s : List Char} {a : α} (hm : Mark x m) (h : P s a) : Optionally x P (m ++ s) (some a)

/-- At most one `!`, and what it adds to the text of a type. -/
inductive BangText : List Char → String → Prop where
  | absent : BangText [] ""
  | present {m : List Char} (hm : Mark '!' m) : BangText m "!"

/-- A type, and its text without blanks. -/
inductive TypeText : List Char → String → Prop where
  | name {s b : List Char} {n bang : String} (h : NameText s n) (hb : BangText b bang) :
      TypeText (s ++ b) (n ++ bang)
  | list {o s c b : List Char} {t bang : String} (ho : Mark '[' o) (h : TypeText s t)
      (hc : Mark ']' c) (hb : BangText b bang) :
      TypeText (o ++ (s ++ (c ++ b))) ("[" ++ t ++ "]" ++ bang)

/-- The fields of an object that is written with the fields `given`: a repeated name keeps its first
place and takes its last value. -/
structure Merges (given fields : List (String × Value)) : Prop where
  keys : OrderedMap.keys fields = (OrderedMap.keys given).eraseDups
  find? : ∀ k, OrderedMap.find? fields k = OrderedMap.find? given.reverse k

/-- A value. -/
inductive ValueText : List Char → Value → Prop where
  | number {w t : List Char} {v : Value} (hw : Blanks w) (h : NumberText t v) : ValueText (w ++ t) v
  | wordTrue {s : List Char} (h : NameText s "true") : ValueText s (.bool true)
  | wordFalse {s : List Char} (h : NameText s "false") : ValueText s (.bool false)
  | wordNull {s : List Char} (h : NameText s "null") : ValueText s .null
  | enum {s : List Char} {n : String} (h : NameText s n) (hn : n ∉ ["true", "false", "null"]) :
      ValueText s (.enum n)
  | string {q s cs : List Char} (hq : Mark '"' q) (h : StringText s cs) :
      ValueText (q ++ (s ++ ['"'])) (.string (String.ofList cs))
  | list {o s c : List Char} {items : List Value} (ho : Mark '[' o) (h : Listed ValueText s items)
      (hc : Mark ']' c) : ValueText (o ++ (s ++ c)) (.list items)
  | object {o s c : List Char} {given fields : List (String × Value)} (ho : Mark '{' o)
      (h : Listed (Keyed ValueText) s given) (hc : Mark '}' c) (hm : Merges given fields) :
      ValueText (o ++ (s ++ c)) (.object fields)

/-! ## Items -/

/-- The name of a variable, which follows `$` without a blank. -/
inductive VariableName : List Char → Option String → Prop where
  | absent : VariableName [] none
  | present {t : List Char} (ht : isName t = true) : VariableName t (some (String.ofList t))

/-- What an argument is given: a variable or a literal. -/
inductive ArgumentText : List Char → Argument → Prop where
  | ofVariable {d n t v : List Char} {name type : Option String} {default : Option Value}
      (hd : Mark '$' d) (hn : VariableName n name) (ht : Optionally ':' TypeText t type)
      (hv : Optionally '=' ValueText v default) :
      ArgumentText (d ++ (n ++ (t ++ v))) (.variable name type default)
  | ofLiteral {v t : List Char} {value : Value} {type : Option String} (hv : ValueText v value)
      (ht : Optionally ':' TypeText t type) : ArgumentText (v ++ t) (.literal value type)

/-- A call, whose arguments have distinct keys. -/
inductive CallText : List Char → String → List (String × Argument) → Prop where
  | mk {n o s c : List Char} {name : String} {arguments : List (String × Argument)}
      (hn : NameText n name) (ho : Mark '(' o) (h : Listed (Keyed ArgumentText) s arguments)
      (hd : (arguments.map Prod.fst).Nodup) (hc : Mark ')' c) :
      CallText (n ++ (o ++ (s ++ c))) name arguments

inductive FlagText : List Char → Flag → Prop where
  | mk {n v : List Char} {name : String} {value : Option String} (hn : NameText n name)
      (hv : Optionally '=' NameText v value) : FlagText (n ++ v) ⟨name, value⟩

/-- A whole annotation that is not blank. -/
inductive Derives : List Char → Annotation → Prop where
  | flags {s w : List Char} {flags : List Flag} (h : Separated FlagText s flags) (hw : Blanks w) :
      Derives (s ++ w) { flags }
  | call {s w : List Char} {name : String} {arguments : List (String × Argument)}
      (h : CallText s name arguments) (hw : Blanks w) : Derives (s ++ w) { name, arguments }
  | callFlags {s m t w : List Char} {name : String} {arguments : List (String × Argument)}
      {flags : List Flag} (h : CallText s name arguments) (hm : Mark ',' m)
      (hf : Separated FlagText t flags) (hw : Blanks w) :
      Derives (s ++ (m ++ (t ++ w))) { name, arguments, flags }

end QueryShape.Annotation
