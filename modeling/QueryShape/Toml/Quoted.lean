import QueryShape.Text.Shorter

/-!
# Quoted text

Strings of a TOML text. A string stands between quotes on one line, or between threefold quotes on any
number of lines. Double quotes allow escapes and single quotes do not.
-/

set_option autoImplicit false

namespace QueryShape.Toml

open Text

/-- A reader's answer on the characters `cs`. -/
abbrev Reading (α : Type) (cs : List Char) := Option (α × Shorter cs)

/-- Space between the parts of a line. -/
def isBlank (c : Char) : Bool := c = ' ' || c = '\t'

/-- The characters that may stand in a comment or a string: no control characters but the tab. -/
def isPlain (c : Char) : Bool := c = '\t' || (0x20 ≤ c.toNat && c.toNat ≠ 0x7F)

/-- What follows a line break at the start. -/
def afterBreak? : List Char → Option (List Char)
  | '\n' :: rest => some rest
  | '\r' :: '\n' :: rest => some rest
  | _ => none

/-- The text without the blanks and line breaks at its start. -/
def skipBlankLines : List Char → List Char
  | [] => []
  | '\r' :: '\n' :: rest => skipBlankLines rest
  | c :: rest => if isBlank c || c = '\n' then skipBlankLines rest else c :: rest

theorem length_afterBreak? {cs rest : List Char} (h : afterBreak? cs = some rest) :
    rest.length < cs.length := by
  unfold afterBreak? at h
  split at h
  · cases h; simp
  · cases h; simp only [List.length_cons]; omega
  · simp at h

theorem length_skipBlankLines_le (cs : List Char) : (skipBlankLines cs).length ≤ cs.length := by
  fun_induction skipBlankLines cs with
  | case1 => simp
  | case2 rest ih => simp only [List.length_cons]; omega
  | case3 c rest _ _ ih => simp only [List.length_cons]; omega
  | case4 => simp

def hexValue? (c : Char) : Option Nat :=
  if c.isDigit then some (c.toNat - '0'.toNat)
  else if 'a' ≤ c ∧ c ≤ 'f' then some (c.toNat - 'a'.toNat + 10)
  else if 'A' ≤ c ∧ c ≤ 'F' then some (c.toNat - 'A'.toNat + 10)
  else none

/-- The character whose number is written in hexadecimal digits. -/
def hexChar? (digits : List Char) : Option Char := do
  let n ← digits.foldlM (fun n c => (hexValue? c).map (16 * n + ·)) 0
  if n.isValidChar then some (Char.ofNat n) else none

/-- The character that a letter stands for after a backslash. -/
def escaped? (c : Char) : Option Char :=
  if c = '"' || c = '\\' then some c
  else if c = 'b' then some '\x08'
  else if c = 'f' then some '\x0c'
  else if c = 'n' then some '\n'
  else if c = 'r' then some '\r'
  else if c = 't' then some '\t'
  else none

/-- What stands after a backslash. -/
def readEscape : (cs : List Char) → Reading Char cs
  | [] => none
  | c :: rest =>
    let width := if c = 'u' then 4 else if c = 'U' then 8 else 0
    if width = 0 then (escaped? c).map (·, ⟨rest, length_lt_cons c rest⟩)
    else if (rest.take width).length = width then
      (hexChar? (rest.take width)).map (·, ⟨rest.drop width, length_drop_lt_cons width c rest⟩)
    else none

/-- A string on one line after its opening quote. -/
def readLine (quote : Char) : (cs : List Char) → Reading (List Char) cs
  | [] => none
  | c :: rest =>
    if c = quote then some ([], ⟨rest, by simp⟩)
    else if c = '\\' ∧ quote = '"' then do
      let (e, ⟨r₁, h₁⟩) ← readEscape rest
      let (text, ⟨r₂, h₂⟩) ← readLine quote r₁
      pure (e :: text, ⟨r₂, by simp only [List.length_cons]; omega⟩)
    else if isPlain c then do
      let (text, ⟨r, h⟩) ← readLine quote rest
      pure (c :: text, ⟨r, by simp only [List.length_cons]; omega⟩)
    else none
termination_by cs => cs.length

/-- What follows the second and third closing quote, with up to two more quotes that still belong to
the text. -/
def closing? (quote : Char) : List Char → Option (List Char × List Char)
  | a :: b :: rest =>
    if a = quote && b = quote then
      let extra := (rest.take 2).takeWhile (· = quote)
      some (extra, rest.drop extra.length)
    else none
  | _ => none

theorem length_closing? {quote : Char} {cs : List Char} {out : List Char × List Char}
    (h : closing? quote cs = some out) : out.2.length < cs.length := by
  unfold closing? at h
  split at h
  · split at h
    · cases h
      simp only [List.length_drop, List.length_cons]
      omega
    · simp at h
  · simp at h

/-- A string on several lines after its opening quotes. A backslash at the end of a line takes away the
line break and the blanks and line breaks that follow. -/
def readBlock (quote : Char) : (cs : List Char) → Reading (List Char) cs
  | [] => none
  | c :: rest =>
    if c = quote then
      match h : closing? quote rest with
      | some (extra, r) => some (extra, ⟨r, Nat.lt_succ_of_lt (length_closing? h)⟩)
      | none => do
        let (text, ⟨r, h⟩) ← readBlock quote rest
        pure (c :: text, ⟨r, by simp only [List.length_cons]; omega⟩)
    else if c = '\\' ∧ quote = '"' then
      if (afterBreak? (rest.dropWhile isBlank)).isSome then do
        have := length_skipBlankLines_le rest
        let (text, ⟨r, h⟩) ← readBlock quote (skipBlankLines rest)
        pure (text, ⟨r, by simp only [List.length_cons]; omega⟩)
      else do
        let (e, ⟨r₁, h₁⟩) ← readEscape rest
        let (text, ⟨r₂, h₂⟩) ← readBlock quote r₁
        pure (e :: text, ⟨r₂, by simp only [List.length_cons]; omega⟩)
    else
      match h : afterBreak? (c :: rest) with
      | some r₁ => do
        have : r₁.length < rest.length + 1 := length_afterBreak? h
        let (text, ⟨r₂, h₂⟩) ← readBlock quote r₁
        pure ('\n' :: text, ⟨r₂, by simp only [List.length_cons]; omega⟩)
      | none =>
        if isPlain c then do
          let (text, ⟨r, h⟩) ← readBlock quote rest
          pure (c :: text, ⟨r, by simp only [List.length_cons]; omega⟩)
        else none
termination_by cs => cs.length

/-- The text after one line break, if it starts with one. -/
def dropBreak (cs : List Char) : List Char := (afterBreak? cs).getD cs

theorem length_dropBreak_le (cs : List Char) : (dropBreak cs).length ≤ cs.length := by
  unfold dropBreak
  cases h : afterBreak? cs with
  | none => simp
  | some rest => exact Nat.le_of_lt (length_afterBreak? h)

/-- A string of either form after its first quote. A line break right after threefold quotes does not
belong to the text. -/
def readQuoted (quote : Char) : (cs : List Char) → Reading (List Char) cs
  | a :: b :: rest =>
    if a = quote && b = quote then do
      let (text, ⟨r, h⟩) ← readBlock quote (dropBreak rest)
      have := length_dropBreak_le rest
      pure (text, ⟨r, by simp only [List.length_cons]; omega⟩)
    else readLine quote (a :: b :: rest)
  | cs => readLine quote cs

end QueryShape.Toml
