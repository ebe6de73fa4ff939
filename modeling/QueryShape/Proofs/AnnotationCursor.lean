import Mathlib
import QueryShape.Annotation.Reader

/-!
# Reading annotations by byte positions

The readers of annotations over the bytes of the text. What is left is a position, which moves by the width
of each character that it passes; names and numbers are slices between two positions. No type keeps a
position from falling inside a character, where no slice begins or ends: reading `slip`s there, and also
where an offset would lie before the text. `CursorTracking` shows that it never does.
-/

set_option autoImplicit false

namespace QueryShape.Annotation

open Text

theorem byteLength_eq_utf8Len (cs : List Char) : byteLength cs = String.utf8Len cs := by
  induction cs with
  | nil => rfl
  | cons c cs ih => simp [byteLength, ih, Nat.add_comm]

theorem utf8ByteSize_eq_byteLength (text : String) : text.utf8ByteSize = byteLength text.toList := by
  rw [byteLength_eq_utf8Len, ← String.utf8ByteSize_ofList, String.ofList_toList]

theorem isValid_byteLength {text : String} {before rest : List Char}
    (h : text.toList = before ++ rest) : (⟨byteLength before⟩ : String.Pos.Raw).IsValid text := by
  refine String.Pos.Raw.isValid_iff_exists_append.2 ⟨String.ofList before, String.ofList rest, ?_, ?_⟩
  · rw [← String.ofList_append, ← h, String.ofList_toList]
  · rw [String.rawEndPos, String.utf8ByteSize_ofList, byteLength_eq_utf8Len]

/-- Why reading by positions ends early. -/
inductive Halt where
  | fault (e : SyntaxError)
  | slip
deriving DecidableEq

/-- A position in the bytes of the text, between two characters or not. -/
structure Cursor (text : String) where
  pos : Nat
  pos_le : pos ≤ text.utf8ByteSize

namespace Cursor

variable {text : String}

/-- How many bytes are left. -/
def left (cur : Cursor text) : Nat := text.utf8ByteSize - cur.pos

/-- The positions after `cur`. -/
abbrev Ahead (cur : Cursor text) := { next : Cursor text // next.left < cur.left }

/-- The positions from `cur` on. -/
abbrev Onward (cur : Cursor text) := { next : Cursor text // next.left ≤ cur.left }

def start (text : String) : Cursor text := ⟨0, Nat.zero_le _⟩

def stop (text : String) : Cursor text := ⟨text.utf8ByteSize, Nat.le_refl _⟩

/-! ## Characters -/

/-- The text from one position to another. -/
def slice (cur last : Cursor text) : Except Halt String :=
  if cur.pos ≤ last.pos ∧ (⟨cur.pos⟩ : String.Pos.Raw).IsValid text ∧
      (⟨last.pos⟩ : String.Pos.Raw).IsValid text then
    .ok (String.Pos.Raw.extract text ⟨cur.pos⟩ ⟨last.pos⟩)
  else .error .slip

/-- The first character of what is left. -/
def peek (cur : Cursor text) : Except Halt (Option Char) := do
  return (← slice cur (stop text)).toList.head?

/-- What is left at a position that lies between two characters. -/
def At (cur : Cursor text) (rest : List Char) : Prop :=
  ∃ before, text.toList = before ++ rest ∧ cur.pos = byteLength before

theorem at_start : (start text).At text.toList := ⟨[], rfl, rfl⟩

theorem at_stop : (stop text).At [] := ⟨text.toList, by simp, utf8ByteSize_eq_byteLength text⟩

theorem isValid_iff_at {cur : Cursor text} :
    (⟨cur.pos⟩ : String.Pos.Raw).IsValid text ↔ ∃ rest, cur.At rest := by
  constructor
  · intro h
    obtain ⟨before, rest, rfl, hpos⟩ := String.Pos.Raw.isValid_iff_exists_append.1 h
    refine ⟨rest.toList, before.toList, String.toList_append, ?_⟩
    rw [← utf8ByteSize_eq_byteLength]
    exact congrArg String.Pos.Raw.byteIdx hpos
  · rintro ⟨rest, before, htext, hpos⟩
    rw [hpos]
    exact isValid_byteLength htext

theorem slice_of_at {cur last : Cursor text} {piece rest : List Char} (h : cur.At (piece ++ rest))
    (hl : last.At rest) : slice cur last = .ok (String.ofList piece) := by
  have hvalid := isValid_iff_at.2 ⟨_, h⟩
  have hvalid' := isValid_iff_at.2 ⟨_, hl⟩
  obtain ⟨before, htext, hpos⟩ := h
  obtain ⟨before', htext', hpos'⟩ := hl
  rw [← List.append_assoc] at htext
  obtain rfl := List.append_cancel_right (htext.symm.trans htext')
  rw [byteLength_append] at hpos'
  rw [slice, if_pos ⟨by omega, hvalid, hvalid'⟩, hpos, hpos', byteLength_eq_utf8Len,
    byteLength_eq_utf8Len, ← String.extract_of_valid before piece rest, ← htext, String.ofList_toList]

-- a no-break space takes two bytes
example : slice ⟨1, by decide⟩ (stop "\u00a0a") = .error .slip := by decide

theorem peek_of_at {cur : Cursor text} {rest : List Char} (h : cur.At rest) :
    peek cur = .ok rest.head? := by
  rw [← List.append_nil rest] at h
  rw [peek, slice_of_at h at_stop]
  exact congrArg (fun cs : List Char => Except.ok cs.head?) String.toList_ofList

theorem at_of_peek {cur : Cursor text} {found : Option Char} (h : peek cur = .ok found) :
    ∃ rest, cur.At rest ∧ found = rest.head? := by
  have hvalid : (⟨cur.pos⟩ : String.Pos.Raw).IsValid text := by
    by_contra hn
    rw [peek, slice, if_neg fun hs => hn hs.2.1] at h
    cases h
  obtain ⟨rest, hat⟩ := isValid_iff_at.1 hvalid
  exact ⟨rest, hat, Except.ok.inj (h.symm.trans (peek_of_at hat))⟩

theorem pos_add_le_of_peek {cur : Cursor text} {c : Char} (h : peek cur = .ok (some c)) :
    cur.pos + c.utf8Size ≤ text.utf8ByteSize := by
  obtain ⟨rest, ⟨before, htext, hpos⟩, hc⟩ := at_of_peek h
  obtain ⟨tail, rfl⟩ := List.head?_eq_some_iff.1 hc.symm
  rw [utf8ByteSize_eq_byteLength, htext, byteLength_append, hpos]
  simp only [byteLength]
  omega

/-- Passes one character, if there is one. -/
def bump (cur : Cursor text) : Except Halt (Option (Char × Ahead cur)) :=
  match h : peek cur with
  | .ok (some c) =>
    have hle := pos_add_le_of_peek h
    have := c.utf8Size_pos
    .ok (some (c, ⟨⟨cur.pos + c.utf8Size, hle⟩, by simp only [left]; omega⟩))
  | .ok none => .ok none
  | .error halt => .error halt

/-- Passes characters as long as they satisfy `p`. -/
def passWhile (p : Char → Bool) (cur : Cursor text) : Except Halt (Onward cur) := do
  match ← bump cur with
  | some (c, ⟨next, h⟩) =>
    if p c then
      let ⟨last, hl⟩ ← passWhile p next
      pure ⟨last, by omega⟩
    else pure ⟨cur, Nat.le_refl _⟩
  | none => pure ⟨cur, Nat.le_refl _⟩
termination_by cur.left

/-! ## Tokens -/

def skipBlanks (cur : Cursor text) : Except Halt (Onward cur) := passWhile isBlank cur

/-- The fault at `cur`, where something else was looked for. -/
def unexpected (what : Expectation) (found : Option Char) (cur : Cursor text) : Halt :=
  .fault ⟨.expected what found, cur.pos⟩

/-- The fault just before `cur`, once the character found has been passed. -/
def unexpectedBefore (what : Expectation) (found : Char) (cur : Cursor text) : Halt :=
  if found.utf8Size ≤ cur.pos then .fault ⟨.expected what (some found), cur.pos - found.utf8Size⟩
  else .slip

/-- Passes blanks, and then `x` if it comes next. -/
def eat (x : Char) (cur : Cursor text) : Except Halt (Ahead cur ⊕ Onward cur) := do
  let ⟨start, hs⟩ ← skipBlanks cur
  match ← bump start with
  | some (c, ⟨next, h⟩) =>
    if c = x then pure (.inl ⟨next, by omega⟩) else pure (.inr ⟨start, hs⟩)
  | none => pure (.inr ⟨start, hs⟩)

def expect (x : Char) (cur : Cursor text) : Except Halt (Ahead cur) := do
  match ← eat x cur with
  | .inl next => pure next
  | .inr ⟨next, _⟩ => throw (unexpected (.char x) (← peek next) next)

def name (cur : Cursor text) : Except Halt (String × Ahead cur) := do
  let ⟨start, hs⟩ ← skipBlanks cur
  match ← bump start with
  | some (c, ⟨next, h⟩) =>
    if isNameStart c then
      let ⟨last, hl⟩ ← passWhile isNameChar next
      let word ← slice start last
      pure (word, ⟨last, by omega⟩)
    else throw (unexpected .name (some c) start)
  | none => throw (unexpected .name none start)

def type (cur : Cursor text) : Except Halt (String × Ahead cur) := do
  let (inner, ⟨rest, h⟩) ←
    (do match ← eat '[' cur with
        | .inl ⟨r₁, h₁⟩ =>
          let (item, ⟨r₂, h₂⟩) ← type r₁
          let ⟨r₃, h₃⟩ ← expect ']' r₂
          pure ("[" ++ item ++ "]", ⟨r₃, by omega⟩)
        | .inr ⟨r₁, h₁⟩ =>
          let (word, ⟨r₂, h₂⟩) ← name r₁
          pure (word, ⟨r₂, by omega⟩) : Except Halt (String × Ahead cur))
  match ← eat '!' rest with
  | .inl ⟨r, hr⟩ => pure (inner ++ "!", ⟨r, by omega⟩)
  | .inr ⟨r, hr⟩ => pure (inner, ⟨r, by omega⟩)
termination_by cur.left

/-! ## Values -/

/-- The characters of a string whose opening quote was passed; none if it does not end. -/
def stringBody (cur : Cursor text) : Except Halt (Option (List Char × Onward cur)) := do
  match ← bump cur with
  | none => pure none
  | some (c, ⟨next, h⟩) =>
    if c = '"' then pure (some ([], ⟨next, by omega⟩))
    else if c = '\\' then
      match ← bump next with
      | none => pure none
      | some (d, ⟨next', h'⟩) =>
        match ← stringBody next' with
        | none => pure none
        | some (cs, ⟨last, hl⟩) =>
          pure (some ((if d = 'n' then '\n' else d) :: cs, ⟨last, by omega⟩))
    else
      match ← stringBody next with
      | none => pure none
      | some (cs, ⟨last, hl⟩) => pure (some (c :: cs, ⟨last, by omega⟩))
termination_by cur.left

/-- Passes what belongs to a number and tells whether it has a point or an exponent. -/
def passNumber (float : Bool) (cur : Cursor text) : Except Halt (Bool × Onward cur) := do
  match ← bump cur with
  | none => pure (float, ⟨cur, Nat.le_refl _⟩)
  | some (c, ⟨next, h⟩) =>
    if c.isDigit || ((c = '+' || c = '-') && float) then
      let (f, ⟨last, hl⟩) ← passNumber float next
      pure (f, ⟨last, by omega⟩)
    else if c = '.' || c = 'e' || c = 'E' then
      let (f, ⟨last, hl⟩) ← passNumber true next
      pure (f, ⟨last, by omega⟩)
    else pure (float, ⟨cur, Nat.le_refl _⟩)
termination_by cur.left

/-- A value that is neither list nor object; it begins at `start` with `c`, which `next` follows. -/
def scalar (start : Cursor text) (c : Char) (next : Ahead start) : Except Halt (Value × Ahead start) := do
  if c = '"' then
    match ← stringBody next.1 with
    | some (cs, ⟨last, hl⟩) => pure (.string (String.ofList cs), ⟨last, Nat.lt_of_le_of_lt hl next.2⟩)
    | none => throw (.fault ⟨.unterminatedString, start.pos⟩)
  else if c = '-' || c.isDigit then
    let (float, ⟨last, hl⟩) ← passNumber false next.1
    let token ← slice start last
    match readNumber? token.toList float with
    | some v => pure (v, ⟨last, Nat.lt_of_le_of_lt hl next.2⟩)
    | none => throw (.fault ⟨.invalidNumber token, start.pos⟩)
  else if isNameStart c then
    let (word, last) ← name start
    pure (wordValue word, last)
  else throw (unexpected .value (some c) start)

mutual

def value (cur : Cursor text) : Except Halt (Value × Ahead cur) := do
  let ⟨start, hs⟩ ← skipBlanks cur
  match ← bump start with
  | none => throw (unexpected .value none start)
  | some (c, ⟨next, h⟩) =>
    if c = '[' then
      match ← eat ']' next with
      | .inl ⟨r, hr⟩ => pure (.list [], ⟨r, by omega⟩)
      | .inr ⟨r₁, h₁⟩ =>
        let (vs, ⟨r₂, h₂⟩) ← items r₁
        pure (.list vs, ⟨r₂, by omega⟩)
    else if c = '{' then
      match ← eat '}' next with
      | .inl ⟨r, hr⟩ => pure (.object [], ⟨r, by omega⟩)
      | .inr ⟨r₁, h₁⟩ =>
        let (fs, ⟨r₂, h₂⟩) ← fields r₁
        pure (.ofFields fs, ⟨r₂, by omega⟩)
    else
      let (v, ⟨r, hr⟩) ← scalar start c ⟨next, h⟩
      pure (v, ⟨r, by omega⟩)
termination_by (cur.left, 0)

/-- The items of a list and its closing bracket. -/
def items (cur : Cursor text) : Except Halt (List Value × Ahead cur) := do
  let (v, ⟨r₁, h₁⟩) ← value cur
  match ← eat ',' r₁ with
  | .inl ⟨r₂, h₂⟩ =>
    let (vs, ⟨r₃, h₃⟩) ← items r₂
    pure (v :: vs, ⟨r₃, by omega⟩)
  | .inr ⟨r₂, h₂⟩ =>
    let ⟨r₃, h₃⟩ ← expect ']' r₂
    pure ([v], ⟨r₃, by omega⟩)
termination_by (cur.left, 1)

/-- The fields of an object and its closing brace. -/
def fields (cur : Cursor text) : Except Halt (List (String × Value) × Ahead cur) := do
  let (key, ⟨r₁, h₁⟩) ← name cur
  let ⟨r₂, h₂⟩ ← expect ':' r₁
  let (v, ⟨r₃, h₃⟩) ← value r₂
  match ← eat ',' r₃ with
  | .inl ⟨r₄, h₄⟩ =>
    let (fs, ⟨r₅, h₅⟩) ← fields r₄
    pure ((key, v) :: fs, ⟨r₅, by omega⟩)
  | .inr ⟨r₄, h₄⟩ =>
    let ⟨r₅, h₅⟩ ← expect '}' r₄
    pure ([(key, v)], ⟨r₅, by omega⟩)
termination_by (cur.left, 1)

end

/-! ## Arguments and items -/

/-- What follows the mark `m`, if it comes next. -/
def optional {α : Type} (m : Char) (read : (cur : Cursor text) → Except Halt (α × Ahead cur))
    (cur : Cursor text) : Except Halt (Option α × Onward cur) := do
  match ← eat m cur with
  | .inl ⟨r₁, h₁⟩ =>
    let (a, ⟨r₂, h₂⟩) ← read r₁
    pure (some a, ⟨r₂, by omega⟩)
  | .inr next => pure (none, next)

/-- The name of a variable, which follows `$` without a blank. -/
def variableName (cur : Cursor text) : Except Halt (Option String × Onward cur) := do
  if (← peek cur).any isNameStart then
    let (word, ⟨r, h⟩) ← name cur
    pure (some word, ⟨r, by omega⟩)
  else pure (none, ⟨cur, Nat.le_refl _⟩)

def argument (cur : Cursor text) : Except Halt (Argument × Ahead cur) := do
  match ← eat '$' cur with
  | .inl ⟨r₁, h₁⟩ =>
    let (word, ⟨r₂, h₂⟩) ← variableName r₁
    let (type, ⟨r₃, h₃⟩) ← optional ':' type r₂
    let (default, ⟨r₄, h₄⟩) ← optional '=' value r₃
    pure (.variable word type default, ⟨r₄, by omega⟩)
  | .inr ⟨r₁, h₁⟩ =>
    let (v, ⟨r₂, h₂⟩) ← value r₁
    let (type, ⟨r₃, h₃⟩) ← optional ':' type r₂
    pure (.literal v type, ⟨r₃, by omega⟩)

/-- The arguments of a call and its closing parenthesis; `seen` are the keys before these. -/
def arguments (seen : List String) (cur : Cursor text) :
    Except Halt (List (String × Argument) × Ahead cur) := do
  let ⟨start, hs⟩ ← skipBlanks cur
  let (key, ⟨r₁, h₁⟩) ← name start
  let ⟨r₂, h₂⟩ ← expect ':' r₁
  let (arg, ⟨r₃, h₃⟩) ← argument r₂
  if key ∈ seen then throw (.fault ⟨.duplicateArgument key, start.pos⟩)
  match ← eat ',' r₃ with
  | .inl ⟨r₄, h₄⟩ =>
    let (args, ⟨r₅, h₅⟩) ← arguments (key :: seen) r₄
    pure ((key, arg) :: args, ⟨r₅, by omega⟩)
  | .inr ⟨r₄, h₄⟩ =>
    let ⟨r₅, h₅⟩ ← expect ')' r₄
    pure ([(key, arg)], ⟨r₅, by omega⟩)
termination_by cur.left

/-- An item; a call is taken only as the leading one. -/
def item (leading : Bool) (cur : Cursor text) : Except Halt (Item × Ahead cur) := do
  let ⟨start, hs⟩ ← skipBlanks cur
  let (word, ⟨r₁, h₁⟩) ← name start
  match ← eat '(' r₁ with
  | .inl ⟨r₂, h₂⟩ =>
    if leading then
      match ← eat ')' r₂ with
      | .inl ⟨r₃, h₃⟩ => pure (.call word [], ⟨r₃, by omega⟩)
      | .inr ⟨r₃, h₃⟩ =>
        let (args, ⟨r₄, h₄⟩) ← arguments [] r₃
        pure (.call word args, ⟨r₄, by omega⟩)
    else throw (.fault ⟨.lateCall word, start.pos⟩)
  | .inr ⟨r₂, h₂⟩ =>
    let (v, ⟨r₃, h₃⟩) ← optional '=' name r₂
    pure (.flag ⟨word, v⟩, ⟨r₃, by omega⟩)

/-- The items up to the end of the text. A mark other than the comma is seen once it has been passed. -/
def all (leading : Bool) (cur : Cursor text) : Except Halt (List Item) := do
  let (it, ⟨r₁, _⟩) ← item leading cur
  let ⟨r₂, _⟩ ← skipBlanks r₁
  match ← bump r₂ with
  | none => pure [it]
  | some (c, ⟨next, _⟩) =>
    if c = ',' then
      let its ← all false next
      pure (it :: its)
    else throw (unexpectedBefore (.char ',') c next)
termination_by cur.left

/-- Reads an annotation. -/
def decode (text : String) : Except Halt Annotation := do
  let ⟨first, _⟩ ← skipBlanks (start text)
  match ← peek first with
  | none => pure {}
  | some _ => pure (ofItems (← all true first))

end Cursor

end QueryShape.Annotation
