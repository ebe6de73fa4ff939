import QueryShape.Toml.Bare
import QueryShape.Toml.Quoted
import QueryShape.Toml.Table

/-!
# Reading TOML

`Toml.read?` reads a whole TOML text into a tree of data, in which tables are objects. Each reader takes
the characters that are left and gives what it read together with a shorter list of characters.
-/

set_option autoImplicit false

namespace QueryShape.Toml

open Text

def skipBlank (cs : List Char) : List Char := cs.dropWhile isBlank

/-- What follows `x` after blanks. -/
def eat? (x : Char) (cs : List Char) : Option (Shorter cs) :=
  match h : skipBlank cs with
  | c :: rest => if c = x then some ⟨rest, length_lt_of_dropWhile h⟩ else none
  | [] => none

/-- The text without the blanks, line breaks and comments at its start; `true` inside a comment. -/
def skipVoid : Bool → List Char → List Char
  | _, [] => []
  | _, '\n' :: rest => skipVoid false rest
  | _, '\r' :: '\n' :: rest => skipVoid false rest
  | true, c :: rest => if isPlain c then skipVoid true rest else c :: rest
  | false, c :: rest =>
    if isBlank c then skipVoid false rest else if c = '#' then skipVoid true rest else c :: rest

theorem length_skipVoid_le (comment : Bool) (cs : List Char) :
    (skipVoid comment cs).length ≤ cs.length := by
  fun_induction skipVoid comment cs <;> simp only [List.length_cons, List.length_nil] <;> omega

/-- What follows `x` after blanks, line breaks and comments. -/
def eatInArray? (x : Char) (cs : List Char) : Option (Shorter cs) :=
  match h : skipVoid false cs with
  | c :: rest =>
    if c = x then
      some ⟨rest, by have := length_skipVoid_le false cs; rw [h, List.length_cons] at this; omega⟩
    else none
  | [] => none

/-! ## Keys -/

def isBareKeyChar (c : Char) : Bool := c.isAlphanum || c = '_' || c = '-'

/-- One part of a key, after blanks. -/
def readKeyPart (cs : List Char) : Reading String cs :=
  match h : skipBlank cs with
  | [] => none
  | c :: rest =>
    have hr := length_lt_of_dropWhile h
    if c = '"' || c = '\'' then do
      let (text, ⟨r, h₁⟩) ← readLine c rest
      pure (String.ofList text, ⟨r, length_lt_trans hr h₁⟩)
    else if isBareKeyChar c then
      some (String.ofList (c :: rest.takeWhile isBareKeyChar),
        ⟨rest.dropWhile isBareKeyChar, length_dropWhile_lt isBareKeyChar hr⟩)
    else none

/-- A key: parts with dots between them. -/
def readParts (cs : List Char) : Reading (List String) cs := do
  let (part, ⟨r₁, h₁⟩) ← readKeyPart cs
  match eat? '.' r₁ with
  | some ⟨r₂, h₂⟩ =>
    let (parts, ⟨r₃, h₃⟩) ← readParts r₂
    pure (part :: parts, ⟨r₃, by omega⟩)
  | none => pure ([part], ⟨r₁, h₁⟩)
termination_by cs.length

/-- How many arrays and inline tables may stand inside each other, and how many parts a key may have. -/
def depthLimit : Nat := 79

/-- A key as the path to its table and its last part. -/
def readKey (cs : List Char) : Reading (List String × String) cs := do
  let (parts, r) ← readParts cs
  if parts.length ≤ depthLimit then
    let key ← parts.getLast?
    pure ((parts.dropLast, key), r)
  else none

/-! ## Values -/

mutual

/-- A value, after blanks; `depth` more arrays and inline tables may be opened. -/
def readValue (depth : Nat) (cs : List Char) : Reading Json cs :=
  match h : skipBlank cs with
  | [] => none
  | c :: rest =>
    have hr := length_lt_of_dropWhile h
    if c = '"' || c = '\'' then do
      let (text, ⟨r, h₁⟩) ← readQuoted c rest
      pure (.string (String.ofList text), ⟨r, by omega⟩)
    else if c = '[' then
      match depth with
      | 0 => none
      | depth + 1 => do
        let (items, ⟨r, h₁⟩) ← readItems depth rest
        pure (.array items, ⟨r, by omega⟩)
    else if c = '{' then
      match depth with
      | 0 => none
      | depth + 1 =>
        match eat? '}' rest with
        | some ⟨r, h₁⟩ => some (.object [], ⟨r, by omega⟩)
        | none => do
          let (entries, ⟨r, h₁⟩) ← readPairs depth [] rest
          pure (.object (Entry.entriesToJson entries), ⟨r, by omega⟩)
    else
      match hb : readBare? (c :: rest) with
      | some (j, r) => some (j, ⟨r, by
          have := length_readBare? hb
          simp only [List.length_cons] at this
          omega⟩)
      | none => none
termination_by 2 * cs.length

/-- The items of an array and its closing bracket. -/
def readItems (depth : Nat) (cs : List Char) : Reading (List Json) cs :=
  match eatInArray? ']' cs with
  | some rest => some ([], rest)
  | none => do
    have h₀ := length_skipVoid_le false cs
    let (j, ⟨r₁, h₁⟩) ← readValue depth (skipVoid false cs)
    match eatInArray? ',' r₁ with
    | some ⟨r₂, h₂⟩ =>
      let (js, ⟨r₃, h₃⟩) ← readItems depth r₂
      pure (j :: js, ⟨r₃, by omega⟩)
    | none =>
      let ⟨r₂, h₂⟩ ← eatInArray? ']' r₁
      pure ([j], ⟨r₂, by omega⟩)
termination_by 2 * cs.length + 1

/-- The pairs of an inline table, added to its entries, and its closing brace. -/
def readPairs (depth : Nat) (entries : Entries) (cs : List Char) : Reading Entries cs := do
  let ((path, key), ⟨r₁, h₁⟩) ← readKey cs
  let ⟨r₂, h₂⟩ ← eat? '=' r₁
  let (j, ⟨r₃, h₃⟩) ← readValue depth r₂
  let entries ← entries.put? path key j
  match eat? ',' r₃ with
  | some ⟨r₄, h₄⟩ =>
    let (entries, ⟨r₅, h₅⟩) ← readPairs depth entries r₄
    pure (entries, ⟨r₅, by omega⟩)
  | none =>
    let ⟨r₄, h₄⟩ ← eat? '}' r₃
    pure (entries, ⟨r₄, by omega⟩)
termination_by 2 * cs.length + 1

end

/-! ## Lines -/

/-- What follows a line whose rest holds at most a comment. -/
def afterLine? (cs : List Char) : Option (List Char) :=
  let cs := skipBlank cs
  let cs := match cs with
    | '#' :: rest => rest.dropWhile isPlain
    | cs => cs
  if cs = [] then some [] else afterBreak? cs

theorem length_afterLine? {cs rest : List Char} (h : afterLine? cs = some rest) :
    rest.length ≤ cs.length ∧ (cs ≠ [] → rest.length < cs.length) := by
  have h₀ := length_dropWhile_le isBlank cs
  unfold afterLine? skipBlank at h
  generalize cs.dropWhile isBlank = cs₁ at *
  have h₁ : (match cs₁ with
      | '#' :: rest => rest.dropWhile isPlain
      | cs => cs).length ≤ cs₁.length := by
    split
    · rename_i r
      have := length_dropWhile_le isPlain r
      simp only [List.length_cons]
      omega
    · simp
  dsimp only at h
  generalize (match cs₁ with
    | '#' :: rest => rest.dropWhile isPlain
    | cs => cs) = cs₂ at *
  split at h
  · cases h
    exact ⟨by simp, List.length_pos_iff.2⟩
  · have := length_afterBreak? h
    exact ⟨by omega, fun _ => by omega⟩

inductive Statement where
  | pair (p : Pair)
  | header (h : Header)

/-- A line with a header, after its first bracket. -/
def readHeader : (cs : List Char) → Reading Header cs
  | '[' :: cs => do
    let ((path, key), ⟨r₁, h₁⟩) ← readKey cs
    let ⟨r₂, h₂⟩ ← eat? ']' r₁
    match r₂, h₂ with
    | ']' :: r₃, h₂ =>
      pure (⟨path, key, true⟩, ⟨r₃, by simp only [List.length_cons] at *; omega⟩)
    | _, _ => none
  | cs => do
    let ((path, key), ⟨r₁, h₁⟩) ← readKey cs
    let ⟨r₂, h₂⟩ ← eat? ']' r₁
    pure (⟨path, key, false⟩, ⟨r₂, by omega⟩)

/-- A line with a key and a value. -/
def readPair (cs : List Char) : Reading Pair cs := do
  let ((path, key), ⟨r₁, h₁⟩) ← readKey cs
  let ⟨r₂, h₂⟩ ← eat? '=' r₁
  let (j, ⟨r₃, h₃⟩) ← readValue depthLimit r₂
  pure (⟨path, key, j⟩, ⟨r₃, by omega⟩)

/-- What a line says, after blanks. -/
def readStatement (cs : List Char) : Reading Statement cs :=
  match cs with
  | '[' :: rest => do
    let (header, ⟨r, h⟩) ← readHeader rest
    pure (.header header, ⟨r, Nat.lt_succ_of_lt h⟩)
  | cs => do
    let (p, r) ← readPair cs
    pure (.pair p, r)

theorem length_lt_of_afterLine? {cs r₁ r₂ : List Char} (h : r₁.length < (skipBlank cs).length)
    (hr : afterLine? r₁ = some r₂) : r₂.length < cs.length := by
  have h₀ := length_dropWhile_le isBlank cs
  have h₁ := (length_afterLine? hr).1
  unfold skipBlank at h
  omega

/-- All lines. -/
def readStatements (cs : List Char) : Option (List Statement) :=
  if h : cs = [] then some []
  else
    match hl : afterLine? cs with
    | some rest =>
      have := (length_afterLine? hl).2 h
      readStatements rest
    | none => do
      let (s, ⟨r₁, h₁⟩) ← readStatement (skipBlank cs)
      match hr : afterLine? r₁ with
      | some r₂ =>
        have := length_lt_of_afterLine? h₁ hr
        let ss ← readStatements r₂
        pure (s :: ss)
      | none => none
termination_by cs.length
decreasing_by all_goals assumption

/-- The lines before the first header, and the sections. -/
def sections : List Statement → List Pair × List Section
  | [] => ([], [])
  | .pair p :: rest => ((sections rest).1.cons p, (sections rest).2)
  | .header h :: rest => ([], ⟨h, (sections rest).1⟩ :: (sections rest).2)

/-- The text without a byte order mark. -/
def dropMark : List Char → List Char
  | c :: rest => if c.toNat = 0xFEFF then rest else c :: rest
  | [] => []

/-- Reads a whole text. -/
def read? (text : String) : Option Json := do
  let statements ← readStatements (dropMark text.toList)
  let (pairs, ss) := sections statements
  let entries ← Entries.ofSections? pairs ss
  pure (.object (Entry.entriesToJson entries))

end QueryShape.Toml
