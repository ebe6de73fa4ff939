import QueryShape.Text.Blank
import QueryShape.Text.Quoted

/-!
# Tokens of type texts

`TypeToken.scan` cuts the text of a type or bound into tokens. White space and comments part tokens and
are left out, except that a comment which documents something stands for an attribute.
-/

set_option autoImplicit false

namespace QueryShape

inductive TypeToken where
  | word (text : String)
  | lifetime (text : String)
  | literal (text : String)
  | opening (bracket : Char)
  | closing (bracket : Char)
  /-- A single sign; it is joined to another one that follows at once. -/
  | sign (c : Char) (joined : Bool)
deriving DecidableEq, Repr, Inhabited

namespace TypeToken

def text : TypeToken → String
  | word text | lifetime text | literal text => text
  | opening c | closing c | sign c _ => c.toString

/-- The text of tokens without anything between them. -/
def listText (tokens : List TypeToken) : String := String.join (tokens.map text)

/-- White space between tokens, with the marks of direction. -/
def isGap (c : Char) : Bool := Text.isBlank c || c.toNat == 0x200E || c.toNat == 0x200F

/-- Characters of words. All those beyond ASCII that are no white space count, since none has another use
between tokens. -/
def isWordChar (c : Char) : Bool := c.isAlphanum || c == '_' || (0x80 ≤ c.toNat && !isGap c)

def startsWord (c : Char) : Bool := isWordChar c && !c.isDigit

def isSign (c : Char) : Bool := "~!@#$%^&*-=+|;:,<.>/?'".contains c

/-- Whether a sign follows, and not a comment. -/
def signFollows : List Char → Bool
  | '/' :: '/' :: _ => false
  | '/' :: '*' :: _ => false
  | c :: _ => isSign c
  | [] => false

/-- Whether a quote starts a literal, and not the name of a lifetime, before these characters. -/
def startsCharacter : List Char → Bool
  | '\\' :: _ => true
  | _ :: '\'' :: _ => true
  | _ => false

/-! ## How far a token goes -/

def wordLength (cs : List Char) : Nat := (cs.takeWhile isWordChar).length

/-- How many characters of a name follow the word `r`, which with a hash sign makes a name of any word. -/
def rawNameLength : List Char → Nat
  | '#' :: c :: rest => if startsWord c then 2 + wordLength rest else 0
  | _ => 0

/-- The length of a name, together with the mark that makes a keyword a name. -/
def nameLength (cs : List Char) : Nat :=
  let length := wordLength cs
  if cs.take length = ['r'] then length + rawNameLength (cs.drop length) else length

/-- The length of a quoted literal after its first quote, with a suffix. -/
def quotedLength (quote : Char) : List Char → Nat
  | [] => 0
  | '\\' :: _ :: rest => quotedLength quote rest + 2
  | c :: rest => if c = quote then 1 + wordLength rest else quotedLength quote rest + 1

/-- The length of a literal without escapes after its first quote. It ends with a quote and a number of
hash signs. -/
def rawLength (hashes : Nat) : List Char → Nat
  | [] => 0
  | c :: rest =>
    if c = '"' && rest.take hashes = List.replicate hashes '#' then
      hashes + 1 + wordLength (rest.drop hashes)
    else rawLength hashes rest + 1

/-- The length of what makes a literal of the word before it: a quote with all that follows. -/
def literalLength (mark : List Char) (cs : List Char) : Nat :=
  if mark = ['r'] || mark = ['b', 'r'] || mark = ['c', 'r'] then
    let hashes := (cs.takeWhile (· == '#')).length
    match cs.drop hashes with
    | '"' :: rest => hashes + 1 + rawLength hashes rest
    | _ => 0
  else
    match cs with
    | '"' :: rest => if mark = ['b'] || mark = ['c'] then 1 + quotedLength '"' rest else 0
    | '\'' :: rest => if mark = ['b'] then 1 + quotedLength '\'' rest else 0
    | _ => 0

/-- The length of a signed exponent after digits that end with its mark. -/
def exponentLength (digits : List Char) (cs : List Char) : Nat :=
  if (digits.getLast? = some 'e' || digits.getLast? = some 'E') &&
      digits.dropLast.all (fun c => c.isDigit || c == '_') then
    match cs with
    | s :: d :: rest => if (s = '+' || s = '-') && d.isDigit then 2 + wordLength rest else 0
    | _ => 0
  else 0

/-- The length of a number. A point belongs to it unless a name or another point follows. -/
def numberLength (cs : List Char) : Nat :=
  let whole := cs.takeWhile isWordChar
  let rest := cs.drop whole.length
  if whole.all fun c => c.isDigit || c == '_' then
    match rest with
    | '.' :: after =>
      if after.head?.any fun c => c == '.' || startsWord c then whole.length
      else
        let part := after.takeWhile isWordChar
        whole.length + 1 + part.length + exponentLength part (after.drop part.length)
    | _ => whole.length
  else whole.length + exponentLength whole rest

/-- The length of a comment inside a number of others, after its first two characters. -/
def commentLength : (depth : Nat) → List Char → Nat
  | _, [] => 0
  | depth, '*' :: '/' :: rest => if depth = 0 then 2 else commentLength (depth - 1) rest + 2
  | depth, '/' :: '*' :: rest => commentLength (depth + 1) rest + 2
  | depth, _ :: rest => commentLength depth rest + 1

/-! ## Documenting comments -/

/-- The text of a comment inside quotes. A digit must not be taken for a part of the escape before it. -/
def escapeComment : List Char → List Char
  | [] => []
  | c :: rest =>
    (if c = '\x00' && rest.head?.any (fun d => '0' ≤ d && d ≤ '7') then ['\\', 'x', '0', '0']
      else Text.escapeHidden c) ++ escapeComment rest

/-- The attribute that a documenting comment stands for. An inner one is about what it stands in. -/
def documentation (inner : Bool) (text : List Char) : List TypeToken :=
  [sign '#' false] ++ (if inner then [sign '!' false] else []) ++
    [opening '[', word "doc", sign '=' false,
      literal (String.ofList ('"' :: escapeComment text ++ ['"'])), closing ']']

/-- What the rest of a line after two slashes stands for. -/
def ofLineComment (line : List Char) : List TypeToken :=
  let line := if line.getLast? = some '\r' then line.dropLast else line
  match line with
  | '/' :: '/' :: _ => []
  | '/' :: text => documentation false text
  | '!' :: text => documentation true text
  | _ => []

/-- What a comment stands for, given without the slash and star in front of it. -/
def ofBlockComment : List Char → List TypeToken
  | '*' :: '/' :: _ => []
  | '*' :: '*' :: _ => []
  | '*' :: text => documentation false text.dropLast.dropLast
  | '!' :: text => documentation true text.dropLast.dropLast
  | _ => []

/-! ## Scanning -/

/-- The tokens of a text. -/
def scan : List Char → List TypeToken
  | [] => []
  | '/' :: '/' :: rest =>
    let line := rest.takeWhile (· != '\n')
    ofLineComment line ++ scan (rest.drop line.length)
  | '/' :: '*' :: rest =>
    let length := commentLength 0 rest
    ofBlockComment (rest.take length) ++ scan (rest.drop length)
  | '"' :: rest =>
    let length := quotedLength '"' rest
    literal (String.ofList ('"' :: rest.take length)) :: scan (rest.drop length)
  | '\'' :: rest =>
    if startsCharacter rest then
      let length := quotedLength '\'' rest
      literal (String.ofList ('\'' :: rest.take length)) :: scan (rest.drop length)
    else
      let length := nameLength rest
      lifetime (String.ofList ('\'' :: rest.take length)) :: scan (rest.drop length)
  | c :: rest =>
    if isGap c then scan rest
    else if c = '(' || c = '[' || c = '{' then opening c :: scan rest
    else if c = ')' || c = ']' || c = '}' then closing c :: scan rest
    else if c.isDigit then
      let length := numberLength (c :: rest) - 1
      literal (String.ofList (c :: rest.take length)) :: scan (rest.drop length)
    else if isWordChar c then
      let length := wordLength rest
      let more := literalLength (c :: rest.take length) (rest.drop length)
      if 0 < more then
        literal (String.ofList (c :: rest.take (length + more))) :: scan (rest.drop (length + more))
      else
        let length := nameLength (c :: rest) - 1
        word (String.ofList (c :: rest.take length)) :: scan (rest.drop length)
    else sign c (signFollows rest) :: scan rest
termination_by cs => cs.length
decreasing_by all_goals simp only [List.length_cons, List.length_drop]; omega

end TypeToken

end QueryShape
