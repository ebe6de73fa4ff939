import QueryShape.Json
import QueryShape.Text.Shorter

/-!
# Reading JSON

`Json.read?` reads a whole JSON text. Each reader takes the characters that are left and gives what it
read together with a shorter list of characters.
-/

set_option autoImplicit false

namespace QueryShape

namespace Json

open Text

/-- A reader's answer on the characters `cs`. -/
abbrev Reading (α : Type) (cs : List Char) := Option (α × Shorter cs)

def isSpace (c : Char) : Bool := c == ' ' || c == '\n' || c == '\t' || c == '\r'

def skipSpace (cs : List Char) : List Char := cs.dropWhile isSpace

theorem length_lt_of_skipSpace {cs rest : List Char} {c : Char} (h : skipSpace cs = c :: rest) :
    rest.length < cs.length :=
  length_lt_of_dropWhile h

/-- The characters after `x`, if that is the next token. -/
def eat? (x : Char) (cs : List Char) : Option (Shorter cs) :=
  match h : skipSpace cs with
  | c :: rest => if c = x then some ⟨rest, length_lt_of_skipSpace h⟩ else none
  | [] => none

/-! ## Strings -/

def hexValue? (c : Char) : Option Nat :=
  let n := c.toNat
  if '0' ≤ c ∧ c ≤ '9' then some (n - 0x30)
  else if 'a' ≤ c ∧ c ≤ 'f' then some (n - 0x57)
  else if 'A' ≤ c ∧ c ≤ 'F' then some (n - 0x37)
  else none

/-- The value of four hexadecimal digits. -/
def hex4? (a b c d : Char) : Option Nat := do
  let a ← hexValue? a
  let b ← hexValue? b
  let c ← hexValue? c
  let d ← hexValue? d
  pure (((a * 16 + b) * 16 + c) * 16 + d)

/-- The character that a letter stands for after a backslash. -/
def escaped? (c : Char) : Option Char :=
  if c = '"' || c = '\\' || c = '/' then some c
  else if c = 'b' then some '\x08'
  else if c = 'f' then some '\x0c'
  else if c = 'n' then some '\n'
  else if c = 'r' then some '\r'
  else if c = 't' then some '\t'
  else none

/-- The code points and escaped code units of a string up to its closing quote, and what follows it. -/
def stringBody : List Char → Option (List Nat × List Char)
  | [] => none
  | '"' :: rest => some ([], rest)
  | '\\' :: 'u' :: a :: b :: c :: d :: rest => do
    let n ← hex4? a b c d
    let (ns, r) ← stringBody rest
    pure (n :: ns, r)
  | '\\' :: c :: rest => do
    let e ← escaped? c
    let (ns, r) ← stringBody rest
    pure (e.toNat :: ns, r)
  | c :: rest =>
    if c.toNat < 0x20 || c = '\\' then none
    else (stringBody rest).map fun (ns, r) => (c.toNat :: ns, r)

theorem length_stringBody {cs : List Char} {out : List Nat × List Char}
    (h : stringBody cs = some out) : out.2.length < cs.length := by
  fun_induction stringBody cs generalizing out with
  | case1 => simp at h
  | case2 rest => cases h; simp
  | case3 a b c d rest ih =>
    simp only [Option.bind_eq_bind, Option.bind_eq_some_iff] at h
    obtain ⟨n, _, p, hp, he⟩ := h
    cases he
    have := ih hp
    simp only [List.length_cons]
    omega
  | case4 c rest _ ih =>
    simp only [Option.bind_eq_bind, Option.bind_eq_some_iff] at h
    obtain ⟨n, _, p, hp, he⟩ := h
    cases he
    have := ih hp
    simp only [List.length_cons]
    omega
  | case5 => simp at h
  | case6 c rest _ _ _ _ ih =>
    obtain ⟨p, hp, rfl⟩ := Option.map_eq_some_iff.1 h
    have := ih hp
    simp only [List.length_cons]
    omega

def isHighSurrogate (n : Nat) : Bool := 0xD800 ≤ n && n < 0xDC00

def isLowSurrogate (n : Nat) : Bool := 0xDC00 ≤ n && n < 0xE000

/-- The characters of a string, in which surrogates have to come in pairs. -/
def joinSurrogates? : List Nat → Option (List Char)
  | [] => some []
  | [n] => if isHighSurrogate n || isLowSurrogate n then none else some [Char.ofNat n]
  | n :: m :: rest =>
    if isHighSurrogate n then
      if isLowSurrogate m then
        let c := Char.ofNat (0x10000 + (n - 0xD800) * 0x400 + (m - 0xDC00))
        (joinSurrogates? rest).map (c :: ·)
      else none
    else if isLowSurrogate n then none
    else (joinSurrogates? (m :: rest)).map (Char.ofNat n :: ·)

/-- A string after its opening quote; nothing inside for one that holds no text. -/
def readText (cs : List Char) : Reading (Option String) cs :=
  match h : stringBody cs with
  | some (ns, rest) => some ((joinSurrogates? ns).map String.ofList, ⟨rest, length_stringBody h⟩)
  | none => none

/-! ## Numbers and words -/

/-- The digits at the start and what follows, if there is a digit. -/
def digits1? (cs : List Char) : Option (List Char × List Char) :=
  let ds := cs.takeWhile Char.isDigit
  if ds = [] then none else some (ds, cs.dropWhile Char.isDigit)

/-- The whole part of a number: zero alone, or digits of which the first is not zero. -/
def wholePart? : List Char → Option (List Char × List Char)
  | '0' :: rest => if rest.head?.any Char.isDigit then none else some (['0'], rest)
  | cs => digits1? cs

def fractionPart? : List Char → Option (List Char × List Char)
  | '.' :: rest => (digits1? rest).map fun (ds, r) => ('.' :: ds, r)
  | cs => some ([], cs)

def exponentPart? (cs : List Char) : Option (List Char × List Char) :=
  match cs with
  | e :: rest =>
    if e = 'e' || e = 'E' then
      match rest with
      | s :: rest' =>
        if s = '+' || s = '-' then (digits1? rest').map fun (ds, r) => (e :: s :: ds, r)
        else (digits1? rest).map fun (ds, r) => (e :: ds, r)
      | [] => none
    else some ([], cs)
  | [] => some ([], [])

/-- The text of a number and what follows it. -/
def number? (cs : List Char) : Option (List Char × List Char) := do
  let (sign, cs) := match cs with
    | '-' :: rest => (['-'], rest)
    | cs => ([], cs)
  let (whole, cs) ← wholePart? cs
  let (fraction, cs) ← fractionPart? cs
  let (exponent, cs) ← exponentPart? cs
  pure (sign ++ whole ++ fraction ++ exponent, cs)

/-- What follows a word, if the text starts with it. -/
def word? (word cs : List Char) : Option (List Char) :=
  if word.isPrefixOf cs then some (cs.drop word.length) else none

theorem digits1?_append {cs ds r : List Char} (h : digits1? cs = some (ds, r)) :
    ds ++ r = cs ∧ ds ≠ [] := by
  simp only [digits1?] at h
  split at h
  · simp at h
  · rename_i hd
    cases h
    exact ⟨List.takeWhile_append_dropWhile, hd⟩

theorem wholePart?_append {cs ds r : List Char} (h : wholePart? cs = some (ds, r)) :
    ds ++ r = cs ∧ ds ≠ [] := by
  unfold wholePart? at h
  split at h
  · split at h
    · simp at h
    · cases h
      simp
  · exact digits1?_append h

theorem fractionPart?_append {cs ds r : List Char} (h : fractionPart? cs = some (ds, r)) :
    ds ++ r = cs := by
  unfold fractionPart? at h
  split at h
  · obtain ⟨⟨es, s⟩, he, hr⟩ := Option.map_eq_some_iff.1 h
    cases hr
    simp [(digits1?_append he).1]
  · cases h
    rfl

theorem exponentPart?_append {cs ds r : List Char} (h : exponentPart? cs = some (ds, r)) :
    ds ++ r = cs := by
  unfold exponentPart? at h
  split at h
  · split at h
    · split at h
      · split at h <;>
        · obtain ⟨⟨es, s⟩, he, hr⟩ := Option.map_eq_some_iff.1 h
          cases hr
          simp [(digits1?_append he).1]
      · simp at h
    · cases h
      rfl
  · cases h
    rfl

/-- The text of a number and what follows it make up what was read. -/
theorem number?_append {cs ds r : List Char} (h : number? cs = some (ds, r)) :
    ds ++ r = cs ∧ ds ≠ [] := by
  unfold number? at h
  simp only [Option.bind_eq_bind, Option.bind_eq_some_iff] at h
  obtain ⟨⟨w, cs₁⟩, hw, ⟨f, cs₂⟩, hf, ⟨e, cs₃⟩, he, hr⟩ := h
  cases hr
  have h₁ := wholePart?_append hw
  have h₂ := fractionPart?_append hf
  have h₃ := exponentPart?_append he
  simp only [List.append_assoc, h₃, h₂, h₁.1]
  constructor
  · split <;> rfl
  · have := h₁.2
    simp_all

theorem word?_append {word cs r : List Char} (h : word? word cs = some r) : word ++ r = cs := by
  unfold word? at h
  split at h
  · rename_i hp
    cases h
    obtain ⟨t, rfl⟩ := List.isPrefixOf_iff_prefix.1 hp
    simp
  · simp at h

/-- A value that is neither array nor object, and what follows it. -/
def scalar? (cs : List Char) : Option (Json × List Char) :=
  match cs with
  | '"' :: rest =>
    (readText rest).map fun (s, r) => (s.elim .unreadable .string, r.val)
  | 'n' :: _ => (word? ['n', 'u', 'l', 'l'] cs).map fun r => (.null, r)
  | 't' :: _ => (word? ['t', 'r', 'u', 'e'] cs).map fun r => (.bool true, r)
  | 'f' :: _ => (word? ['f', 'a', 'l', 's', 'e'] cs).map fun r => (.bool false, r)
  | _ => (number? cs).map fun (text, r) => (.number (String.ofList text), r)

theorem length_scalar? {cs : List Char} {out : Json × List Char} (h : scalar? cs = some out) :
    out.2.length < cs.length := by
  unfold scalar? at h
  split at h
  · obtain ⟨⟨s, r⟩, _, rfl⟩ := Option.map_eq_some_iff.1 h
    exact Nat.lt_succ_of_lt r.property
  · obtain ⟨r, hr, rfl⟩ := Option.map_eq_some_iff.1 h
    simp only [← word?_append hr, List.length_append, List.length_cons, List.length_nil]
    omega
  · obtain ⟨r, hr, rfl⟩ := Option.map_eq_some_iff.1 h
    simp only [← word?_append hr, List.length_append, List.length_cons, List.length_nil]
    omega
  · obtain ⟨r, hr, rfl⟩ := Option.map_eq_some_iff.1 h
    simp only [← word?_append hr, List.length_append, List.length_cons, List.length_nil]
    omega
  · obtain ⟨⟨ds, r⟩, hr, rfl⟩ := Option.map_eq_some_iff.1 h
    obtain ⟨happ, hne⟩ := number?_append hr
    have := List.length_pos_iff.2 hne
    simp only [← happ, List.length_append]
    omega

/-! ## Values -/

/-- An object of these fields, if all names hold text. -/
def ofFields (fields : List (Option String × Json)) : Json :=
  match fields.mapM fun (k, j) => k.map (·, j) with
  | some fs => .object fs
  | none => .unreadable

mutual

def readValue (cs : List Char) : Reading Json cs :=
  match h : skipSpace cs with
  | [] => none
  | c :: rest =>
    have hr := length_lt_of_skipSpace h
    if c = '[' then
      match eat? ']' rest with
      | some ⟨r, hc⟩ => some (.array [], ⟨r, by omega⟩)
      | none => do
        let (items, ⟨r, hi⟩) ← readItems rest
        pure (.array items, ⟨r, by omega⟩)
    else if c = '{' then
      match eat? '}' rest with
      | some ⟨r, hc⟩ => some (.object [], ⟨r, by omega⟩)
      | none => do
        let (fields, ⟨r, hi⟩) ← readFields rest
        pure (ofFields fields, ⟨r, by omega⟩)
    else
      match hs : scalar? (c :: rest) with
      | some (j, r) => some (j, ⟨r, by
          have := length_scalar? hs
          simp only [List.length_cons] at this
          omega⟩)
      | none => none
termination_by (cs.length, 0)

/-- The items of an array and its closing bracket. -/
def readItems (cs : List Char) : Reading (List Json) cs := do
  let (j, ⟨r₁, h₁⟩) ← readValue cs
  match eat? ',' r₁ with
  | some ⟨r₂, h₂⟩ =>
    let (js, ⟨r₃, h₃⟩) ← readItems r₂
    pure (j :: js, ⟨r₃, by omega⟩)
  | none =>
    let ⟨r₂, h₂⟩ ← eat? ']' r₁
    pure ([j], ⟨r₂, by omega⟩)
termination_by (cs.length, 1)

/-- The fields of an object and its closing brace. -/
def readFields (cs : List Char) : Reading (List (Option String × Json)) cs := do
  let ⟨r₀, h₀⟩ ← eat? '"' cs
  let (k, ⟨r₁, h₁⟩) ← readText r₀
  let ⟨r₂, h₂⟩ ← eat? ':' r₁
  let (j, ⟨r₃, h₃⟩) ← readValue r₂
  match eat? ',' r₃ with
  | some ⟨r₄, h₄⟩ =>
    let (fs, ⟨r₅, h₅⟩) ← readFields r₄
    pure ((k, j) :: fs, ⟨r₅, by omega⟩)
  | none =>
    let ⟨r₄, h₄⟩ ← eat? '}' r₃
    pure ([(k, j)], ⟨r₄, by omega⟩)
termination_by (cs.length, 1)

end

/-- Reads a whole text, which holds one value and white space around it. -/
def readChars? (cs : List Char) : Option Json := do
  let (j, ⟨rest, _⟩) ← readValue cs
  if skipSpace rest = [] then pure j else none

def read? (text : String) : Option Json := readChars? text.toList

end Json

end QueryShape
