import QueryShape.Annotation
import QueryShape.Text.Blank
import QueryShape.Text.Name
import QueryShape.Text.Shorter
import QueryShape.Text.Utf8

/-!
# Reading annotations

`Annotation.read` reads a whole annotation. Each reader takes the characters that are left and gives
what it read together with a shorter list of characters, so that repetition ends. White space may stand
between any two tokens, except between `$` and the name of a variable. Where reading stops, `Stop` keeps
what was left, from which the offset of the error is computed at the end.
-/

set_option autoImplicit false

namespace QueryShape

namespace Annotation

open Text

/-- A fault and the characters left where it was found. -/
structure Stop where
  fault : Fault
  rest : List Char
deriving DecidableEq, Repr

/-- A reader's answer on the characters `cs`. -/
abbrev Reading (α : Type) (cs : List Char) := Except Stop (α × Shorter cs)

def skipBlank (cs : List Char) : List Char := cs.dropWhile isBlank

theorem length_lt_of_skipBlank {cs rest : List Char} {c : Char} (h : skipBlank cs = c :: rest) :
    rest.length < cs.length :=
  length_lt_of_dropWhile h

/-- The stop at the next token, which is not what was looked for. -/
def stopAt (what : Expectation) (cs : List Char) : Stop :=
  ⟨.expected what (skipBlank cs).head?, skipBlank cs⟩

/-- The characters after `x`, if that is the next token. -/
def eat? (x : Char) (cs : List Char) : Option (Shorter cs) :=
  match h : skipBlank cs with
  | c :: rest => if c = x then some ⟨rest, length_lt_of_skipBlank h⟩ else none
  | [] => none

theorem eat?_of_nil {x : Char} {cs : List Char} (h : skipBlank cs = []) : eat? x cs = none := by
  unfold eat?
  split
  · rename_i he
    cases h.symm.trans he
  · rfl

theorem eat?_of_cons {x c : Char} {cs rest : List Char} (h : skipBlank cs = c :: rest) :
    eat? x cs = if c = x then some ⟨rest, length_lt_of_skipBlank h⟩ else none := by
  unfold eat?
  split
  · rename_i he
    cases h.symm.trans he
    rfl
  · rename_i he
    cases h.symm.trans he

def expect (x : Char) (cs : List Char) : Except Stop (Shorter cs) :=
  match eat? x cs with
  | some rest => .ok rest
  | none => .error (stopAt (.char x) cs)

/-- A name. -/
def readName (cs : List Char) : Reading String cs :=
  match h : skipBlank cs with
  | c :: rest =>
    if isNameStart c then
      .ok (String.ofList (c :: rest.takeWhile isNameChar), ⟨rest.dropWhile isNameChar,
        Nat.lt_of_le_of_lt (List.dropWhile_sublist _).length_le (length_lt_of_skipBlank h)⟩)
    else .error (stopAt .name cs)
  | [] => .error (stopAt .name cs)

/-- The text of a type: a name or a type in brackets, then at most one `!`. -/
def readType (cs : List Char) : Reading String cs := do
  let (inner, ⟨rest, h⟩) ←
    (match eat? '[' cs with
      | some ⟨r₁, h₁⟩ => do
        let (item, ⟨r₂, h₂⟩) ← readType r₁
        let ⟨r₃, h₃⟩ ← expect ']' r₂
        pure ("[" ++ item ++ "]", ⟨r₃, by omega⟩)
      | none => readName cs : Reading String cs)
  match eat? '!' rest with
  | some ⟨r, hr⟩ => pure (inner ++ "!", ⟨r, by omega⟩)
  | none => pure (inner, ⟨rest, h⟩)
termination_by cs.length

/-! ## Values -/

/-- The characters of a string up to its closing quote, and what follows it. A backslash makes the next
character stand for itself, but before `n` it makes a line feed. -/
def readStringBody : List Char → Option (List Char × List Char)
  | [] => none
  | '"' :: rest => some ([], rest)
  | ['\\'] => none
  | '\\' :: c :: rest =>
    (readStringBody rest).map fun (cs, r) => ((if c = 'n' then '\n' else c) :: cs, r)
  | c :: rest => (readStringBody rest).map fun (cs, r) => (c :: cs, r)

theorem length_readStringBody {cs : List Char} {out : List Char × List Char}
    (h : readStringBody cs = some out) : out.2.length < cs.length := by
  fun_induction readStringBody cs generalizing out with
  | case1 => simp at h
  | case2 rest => cases h; simp
  | case3 => simp at h
  | case4 c rest ih =>
    obtain ⟨p, hp, rfl⟩ := Option.map_eq_some_iff.1 h
    have := ih hp
    simp only [List.length_cons] at *
    omega
  | case5 c rest _ _ _ ih =>
    obtain ⟨p, hp, rfl⟩ := Option.map_eq_some_iff.1 h
    have := ih hp
    simp only [List.length_cons] at *
    omega

/-- The longest run of digits, points and exponent marks; a sign belongs to it once a point or a mark
was seen. Also tells whether one was seen. -/
def numberRun (float : Bool) : List Char → List Char × List Char × Bool
  | [] => ([], [], float)
  | c :: cs =>
    if c.isDigit || ((c = '+' || c = '-') && float) then
      let (run, rest, f) := numberRun float cs
      (c :: run, rest, f)
    else if c = '.' || c = 'e' || c = 'E' then
      let (run, rest, f) := numberRun true cs
      (c :: run, rest, f)
    else ([], c :: cs, float)

theorem length_numberRun_le (float : Bool) (cs : List Char) :
    (numberRun float cs).2.1.length ≤ cs.length := by
  fun_induction numberRun float cs with
  | case1 => simp
  | case2 f c cs _ run rest f' he ih => rw [he] at ih; simp at *; omega
  | case3 f c cs _ _ run rest f' he ih => rw [he] at ih; simp at *; omega
  | case4 => simp

/-- A decimal integer that fits 64 bits. -/
def readInt? (cs : List Char) : Option Int64 :=
  let (negative, ds) :=
    match cs with
    | '-' :: ds => (true, ds)
    | ds => (false, ds)
  let n : Int := if negative then -(Binary64.digitsValue ds : Int) else Binary64.digitsValue ds
  if ds ≠ [] && ds.all Char.isDigit && -Int.pow 2 63 ≤ n && n < Int.pow 2 63 then
    some (Int64.ofInt n)
  else none

def readNumber? (token : List Char) (float : Bool) : Option Value :=
  if float then (Binary64.read? token).map .float else (readInt? token).map .int

/-- What a bare word stands for. -/
def wordValue (word : String) : Value :=
  if word = "true" then .bool true
  else if word = "false" then .bool false
  else if word = "null" then .null
  else .enum word

/-- A value that is neither list nor object; `cs` is what `c` and `rest` were found in after blanks. -/
def readScalar (cs : List Char) (c : Char) (rest : List Char) (h : skipBlank cs = c :: rest) :
    Reading Value cs :=
  if c = '"' then
    match hb : readStringBody rest with
    | some (s, r) =>
      .ok (.string (String.ofList s),
        ⟨r, Nat.lt_trans (length_readStringBody hb) (length_lt_of_skipBlank h)⟩)
    | none => .error ⟨.unterminatedString, c :: rest⟩
  else if c = '-' || c.isDigit then
    let run := numberRun false rest
    match readNumber? (c :: run.1) run.2.2 with
    | some v =>
      .ok (v, ⟨run.2.1, Nat.lt_of_le_of_lt (length_numberRun_le false rest) (length_lt_of_skipBlank h)⟩)
    | none => .error ⟨.invalidNumber (String.ofList (c :: run.1)), c :: rest⟩
  else if isNameStart c then (readName cs).map fun (word, r) => (wordValue word, r)
  else .error (stopAt .value cs)

mutual

/-- A value. -/
def readValue (cs : List Char) : Reading Value cs :=
  match h : skipBlank cs with
  | [] => .error (stopAt .value cs)
  | c :: rest =>
    have hr := length_lt_of_skipBlank h
    if c = '[' then
      match eat? ']' rest with
      | some ⟨r, hc⟩ => .ok (.list [], ⟨r, by omega⟩)
      | none => do
        let (items, ⟨r, hi⟩) ← readItems rest
        pure (.list items, ⟨r, by omega⟩)
    else if c = '{' then
      match eat? '}' rest with
      | some ⟨r, hc⟩ => .ok (.object [], ⟨r, by omega⟩)
      | none => do
        let (fields, ⟨r, hi⟩) ← readFields rest
        pure (.ofFields fields, ⟨r, by omega⟩)
    else readScalar cs c rest h
termination_by (cs.length, 0)

/-- The items of a list and its closing bracket. -/
def readItems (cs : List Char) : Reading (List Value) cs := do
  let (v, ⟨r₁, h₁⟩) ← readValue cs
  match eat? ',' r₁ with
  | some ⟨r₂, h₂⟩ =>
    let (vs, ⟨r₃, h₃⟩) ← readItems r₂
    pure (v :: vs, ⟨r₃, by omega⟩)
  | none =>
    let ⟨r₂, h₂⟩ ← expect ']' r₁
    pure ([v], ⟨r₂, by omega⟩)
termination_by (cs.length, 1)

/-- The fields of an object and its closing brace. -/
def readFields (cs : List Char) : Reading (List (String × Value)) cs := do
  let (key, ⟨r₁, h₁⟩) ← readName cs
  let ⟨r₂, h₂⟩ ← expect ':' r₁
  let (v, ⟨r₃, h₃⟩) ← readValue r₂
  match eat? ',' r₃ with
  | some ⟨r₄, h₄⟩ =>
    let (fs, ⟨r₅, h₅⟩) ← readFields r₄
    pure ((key, v) :: fs, ⟨r₅, by omega⟩)
  | none =>
    let ⟨r₄, h₄⟩ ← expect '}' r₃
    pure ([(key, v)], ⟨r₄, by omega⟩)
termination_by (cs.length, 1)

end

/-! ## Arguments and items -/

/-- What follows the mark `m`, if it is the next token. -/
def optional {α : Type} (m : Char) (read : (cs : List Char) → Reading α cs) (cs : List Char) :
    Except Stop (Option α × { rest : List Char // rest.length ≤ cs.length }) :=
  match eat? m cs with
  | some ⟨r₁, h₁⟩ => do
    let (a, ⟨r₂, h₂⟩) ← read r₁
    pure (some a, ⟨r₂, by omega⟩)
  | none => pure (none, ⟨cs, Nat.le_refl _⟩)

/-- The name of a variable, which follows `$` without a blank. -/
def readVariableName (cs : List Char) :
    Except Stop (Option String × { rest : List Char // rest.length ≤ cs.length }) :=
  if cs.head?.any isNameStart then do
    let (name, ⟨r, h⟩) ← readName cs
    pure (some name, ⟨r, by omega⟩)
  else pure (none, ⟨cs, Nat.le_refl _⟩)

/-- What an argument is given: a variable or a literal. -/
def readArgument (cs : List Char) : Reading Argument cs :=
  match eat? '$' cs with
  | some ⟨r₁, h₁⟩ => do
    let (name, ⟨r₂, h₂⟩) ← readVariableName r₁
    let (type, ⟨r₃, h₃⟩) ← optional ':' readType r₂
    let (default, ⟨r₄, h₄⟩) ← optional '=' readValue r₃
    pure (.variable name type default, ⟨r₄, by omega⟩)
  | none => do
    let (value, ⟨r₁, h₁⟩) ← readValue cs
    let (type, ⟨r₂, h₂⟩) ← optional ':' readType r₁
    pure (.literal value type, ⟨r₂, by omega⟩)

/-- The arguments of a call and its closing parenthesis; `seen` are the keys before these. -/
def readArguments (seen : List String) (cs : List Char) :
    Reading (List (String × Argument)) cs := do
  let (key, ⟨r₁, h₁⟩) ← readName cs
  let ⟨r₂, h₂⟩ ← expect ':' r₁
  let (argument, ⟨r₃, h₃⟩) ← readArgument r₂
  if key ∈ seen then throw ⟨.duplicateArgument key, skipBlank cs⟩
  match eat? ',' r₃ with
  | some ⟨r₄, h₄⟩ =>
    let (arguments, ⟨r₅, h₅⟩) ← readArguments (key :: seen) r₄
    pure ((key, argument) :: arguments, ⟨r₅, by omega⟩)
  | none =>
    let ⟨r₄, h₄⟩ ← expect ')' r₃
    pure ([(key, argument)], ⟨r₄, by omega⟩)
termination_by cs.length

/-- An item of an annotation. -/
inductive Item where
  | call (name : String) (arguments : List (String × Argument))
  | flag (flag : Flag)
deriving Repr

/-- An item; a call is taken only as the leading one. -/
def readItem (leading : Bool) (cs : List Char) : Reading Item cs := do
  let (name, ⟨r₁, h₁⟩) ← readName cs
  match eat? '(' r₁ with
  | some ⟨r₂, h₂⟩ =>
    if leading then
      match eat? ')' r₂ with
      | some ⟨r₃, h₃⟩ => pure (.call name [], ⟨r₃, by omega⟩)
      | none =>
        let (arguments, ⟨r₃, h₃⟩) ← readArguments [] r₂
        pure (.call name arguments, ⟨r₃, by omega⟩)
    else throw ⟨.lateCall name, skipBlank cs⟩
  | none =>
    let (value, ⟨r₂, h₂⟩) ← optional '=' readName r₁
    pure (.flag ⟨name, value⟩, ⟨r₂, by omega⟩)

/-- The items up to the end of the text. -/
def readAll (leading : Bool) (cs : List Char) : Except Stop (List Item) := do
  let (item, ⟨r₁, _⟩) ← readItem leading cs
  if skipBlank r₁ = [] then pure [item]
  else
    let ⟨r₂, _⟩ ← expect ',' r₁
    let items ← readAll false r₂
    pure (item :: items)
termination_by cs.length

/-- The annotation that the items denote. -/
def ofItems : List Item → Annotation
  | [] => {}
  | .call name arguments :: items =>
    { ofItems items with name := some name, arguments := arguments }
  | .flag f :: items => { ofItems items with flags := f :: (ofItems items).flags }

/-- Reads the characters of an annotation; a blank text is the empty annotation. -/
def readChars (cs : List Char) : Except Stop Annotation :=
  if skipBlank cs = [] then .ok {} else (readAll true cs).map ofItems

/-- Reads an annotation. -/
def read (text : String) : Except SyntaxError Annotation :=
  match readChars text.toList with
  | .ok a => .ok a
  | .error stop => .error ⟨stop.fault, byteLength text.toList - byteLength stop.rest⟩

end Annotation

end QueryShape
