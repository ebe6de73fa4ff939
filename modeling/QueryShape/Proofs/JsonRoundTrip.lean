import QueryShape.Json.Printer
import QueryShape.Json.Reader

/-!
# Reading back JSON

What `Json.compact` writes is read back as the same tree, if the tree holds no numbers and nothing
unreadable: `read?_compact`. A string ends at the first quote that is not escaped, and every other value
at its last character, so the readers take exactly the text of a value from whatever follows it
(`reads_readValue`, by the structure of the tree).
-/

set_option autoImplicit false

namespace QueryShape.Json

open Text

variable {α : Type} {cs rest : List Char} {j : Json} {x c : Char}

/-! ## Trees without numbers -/

mutual

/-- There is no number in the tree, and nothing unreadable. -/
def isPlain : Json → Bool
  | null => true
  | bool _ => true
  | number _ => false
  | string _ => true
  | array items => arePlain items
  | object fields => havePlain fields
  | unreadable => false

def arePlain : List Json → Bool
  | [] => true
  | j :: js => isPlain j && arePlain js

def havePlain : List (String × Json) → Bool
  | [] => true
  | (_, j) :: fs => isPlain j && havePlain fs

end

/-! ## Strings -/

theorem hex4?_hexDigit : ∀ n < 32, hex4? '0' '0' (hexDigit (n / 16)) (hexDigit (n % 16)) = some n := by
  decide

/-- A character is escaped by a letter that stands for it or by its code, or it is plain text. -/
theorem escape_cases (c : Char) :
    (∃ l, l ≠ 'u' ∧ escaped? l = some c ∧ escape c = ['\\', l]) ∨
    (c.toNat < 0x20 ∧
      escape c = ['\\', 'u', '0', '0', hexDigit (c.toNat / 16), hexDigit (c.toNat % 16)]) ∨
    (c ≠ '"' ∧ c ≠ '\\' ∧ ¬ c.toNat < 0x20 ∧ escape c = [c]) := by
  by_cases hquote : c = '"'
  · exact .inl ⟨'"', by decide, by subst c; rfl, by subst c; rfl⟩
  by_cases hslash : c = '\\'
  · exact .inl ⟨'\\', by decide, by subst c; rfl, by subst c; rfl⟩
  by_cases hb : c = '\x08'
  · exact .inl ⟨'b', by decide, by subst c; rfl, by subst c; rfl⟩
  by_cases hf : c = '\x0c'
  · exact .inl ⟨'f', by decide, by subst c; rfl, by subst c; rfl⟩
  by_cases hn : c = '\n'
  · exact .inl ⟨'n', by decide, by subst c; rfl, by subst c; rfl⟩
  by_cases hr : c = '\r'
  · exact .inl ⟨'r', by decide, by subst c; rfl, by subst c; rfl⟩
  by_cases ht : c = '\t'
  · exact .inl ⟨'t', by decide, by subst c; rfl, by subst c; rfl⟩
  by_cases hlt : c.toNat < 0x20
  · exact .inr (.inl ⟨hlt, by simp only [escape, hquote, hslash, hb, hf, hn, hr, ht, hlt, ↓reduceIte]⟩)
  · exact .inr (.inr ⟨hquote, hslash, hlt,
      by simp only [escape, hquote, hslash, hb, hf, hn, hr, ht, hlt, ↓reduceIte]⟩)

/-- An escaped character is read as the character. -/
theorem stringBody_escape (c : Char) (cs : List Char) :
    stringBody (escape c ++ cs) = (stringBody cs).map fun p => (c.toNat :: p.1, p.2) := by
  rcases escape_cases c with ⟨l, hl, hc, he⟩ | ⟨hlt, he⟩ | ⟨hquote, hslash, hlt, he⟩ <;>
    simp only [he, List.cons_append, List.nil_append]
  · rw [stringBody, hc]
    · cases stringBody cs <;> rfl
    · exact fun _ _ _ _ _ h => absurd h hl
  · rw [stringBody, hex4?_hexDigit c.toNat hlt]
    cases stringBody cs <;> rfl
  · rw [stringBody]
    · simp [hslash, hlt]
    · exact hquote
    · exact fun _ _ _ _ _ h => absurd h hslash
    · exact fun _ _ h => absurd h hslash

theorem stringBody_flatMap (s rest : List Char) :
    stringBody (s.flatMap escape ++ '"' :: rest) = some (s.map Char.toNat, rest) := by
  induction s with
  | nil => rw [List.flatMap_nil, List.nil_append, stringBody, List.map_nil]
  | cons c s ih =>
    rw [List.flatMap_cons, List.append_assoc, stringBody_escape, ih]
    rfl

theorem quote_append (s : String) (rest : List Char) :
    quote s ++ rest = '"' :: (s.toList.flatMap escape ++ '"' :: rest) := by
  simp [quote]

theorem not_isSurrogate (c : Char) :
    isHighSurrogate c.toNat = false ∧ isLowSurrogate c.toNat = false := by
  have hvalid : c.toNat < 0xD800 ∨ 0xDFFF < c.toNat ∧ c.toNat < 0x110000 := c.valid
  simp only [isHighSurrogate, isLowSurrogate, Bool.and_eq_false_iff, decide_eq_false_iff_not]
  omega

/-- Characters are no surrogates, so they stay as they are. -/
theorem joinSurrogates?_toNat (s : List Char) : joinSurrogates? (s.map Char.toNat) = some s := by
  induction s with
  | nil => rfl
  | cons c s ih =>
    obtain ⟨hhigh, hlow⟩ := not_isSurrogate c
    cases s with
    | nil => simp [joinSurrogates?, hhigh, hlow]
    | cons d s =>
      rw [List.map_cons] at ih
      simp [joinSurrogates?, hhigh, hlow, ih]

/-! ## Tokens -/

/-- The reader gives `a` and leaves `rest`. -/
def Reads (r : Reading α cs) (a : α) (rest : List Char) : Prop := ∃ h, r = some (a, ⟨rest, h⟩)

theorem skipSpace_cons (hc : isSpace c = false) (cs : List Char) : skipSpace (c :: cs) = c :: cs := by
  rw [skipSpace, List.dropWhile_cons_of_neg (by simp [hc])]

theorem eat?_self (hx : isSpace x = false) (cs : List Char) :
    eat? x (x :: cs) = some ⟨cs, length_lt_cons x cs⟩ := by
  unfold eat?
  split
  · rename_i h
    rw [skipSpace_cons hx] at h
    cases h
    rw [if_pos rfl]
  · rename_i h
    rw [skipSpace_cons hx] at h
    cases h

theorem eat?_of_ne (hc : isSpace c = false) (hx : c ≠ x) (cs : List Char) : eat? x (c :: cs) = none := by
  unfold eat?
  split
  · rename_i h
    rw [skipSpace_cons hc] at h
    cases h
    rw [if_neg hx]
  · rfl

theorem reads_readText (s : String) (rest : List Char) :
    Reads (readText (s.toList.flatMap escape ++ '"' :: rest)) (some s) rest := by
  have hbody := stringBody_flatMap s.toList rest
  refine ⟨by simp; omega, ?_⟩
  unfold readText
  split
  · rename_i ns r h
    obtain ⟨rfl, rfl⟩ := Prod.mk.inj (Option.some.inj (hbody.symm.trans h))
    rw [joinSurrogates?_toNat, Option.map_some, String.ofList_toList]
  · rename_i h
    cases hbody.symm.trans h

/-! ## Values -/

theorem reads_scalar (hc : isSpace c = false) (harray : c ≠ '[') (hobject : c ≠ '{')
    (h : scalar? (c :: cs) = some (j, rest)) : Reads (readValue (c :: cs)) j rest := by
  refine ⟨length_scalar? h, ?_⟩
  rw [readValue]
  split
  · rename_i hs
    rw [skipSpace_cons hc] at hs
    cases hs
  · rename_i hs
    rw [skipSpace_cons hc] at hs
    cases hs
    dsimp only
    rw [if_neg harray, if_neg hobject]
    split
    · rename_i hscalar
      cases hscalar.symm.trans h
      rfl
    · rename_i hscalar
      cases hscalar.symm.trans h

theorem reads_emptyArray (rest : List Char) :
    Reads (readValue ('[' :: ']' :: rest)) (array []) rest := by
  refine ⟨by simp only [List.length_cons]; omega, ?_⟩
  rw [readValue]
  split
  · rename_i hs
    cases hs
  · rename_i hs
    cases hs
    simp only [↓reduceIte, eat?_self (x := ']') rfl]

theorem reads_array {js : List Json} (hopen : eat? ']' cs = none) (h : Reads (readItems cs) js rest) :
    Reads (readValue ('[' :: cs)) (array js) rest := by
  obtain ⟨hlt, h⟩ := h
  refine ⟨by simp only [List.length_cons]; omega, ?_⟩
  rw [readValue]
  split
  · rename_i hs
    cases hs
  · rename_i hs
    cases hs
    simp only [↓reduceIte, hopen, h]
    rfl

theorem reads_emptyObject (rest : List Char) :
    Reads (readValue ('{' :: '}' :: rest)) (object []) rest := by
  refine ⟨by simp only [List.length_cons]; omega, ?_⟩
  rw [readValue]
  split
  · rename_i hs
    cases hs
  · rename_i hs
    cases hs
    simp only [Char.reduceEq, ↓reduceIte, eat?_self (x := '}') rfl]

theorem reads_object {fs : List (Option String × Json)} (hopen : eat? '}' cs = none)
    (h : Reads (readFields cs) fs rest) : Reads (readValue ('{' :: cs)) (ofFields fs) rest := by
  obtain ⟨hlt, h⟩ := h
  refine ⟨by simp only [List.length_cons]; omega, ?_⟩
  rw [readValue]
  split
  · rename_i hs
    cases hs
  · rename_i hs
    cases hs
    simp only [Char.reduceEq, ↓reduceIte, hopen, h]
    rfl

theorem reads_lastItem (h : Reads (readValue cs) j (']' :: rest)) : Reads (readItems cs) [j] rest := by
  obtain ⟨hlt, h⟩ := h
  rw [List.length_cons] at hlt
  refine ⟨by omega, ?_⟩
  rw [readItems, h]
  simp only [Option.bind_eq_bind, Option.bind_some, eat?_of_ne (c := ']') (x := ',') rfl (by decide),
    eat?_self (x := ']') rfl]
  rfl

theorem reads_item {js : List Json} {r : List Char} (h : Reads (readValue cs) j (',' :: r))
    (hjs : Reads (readItems r) js rest) : Reads (readItems cs) (j :: js) rest := by
  obtain ⟨hlt, h⟩ := h
  obtain ⟨hlt', hjs⟩ := hjs
  rw [List.length_cons] at hlt
  refine ⟨by omega, ?_⟩
  rw [readItems, h]
  simp only [Option.bind_eq_bind, Option.bind_some, eat?_self (x := ',') rfl, hjs]
  rfl

theorem reads_lastField (k : String) (h : Reads (readValue cs) j ('}' :: rest)) :
    Reads (readFields (quote k ++ ':' :: cs)) [(some k, j)] rest := by
  obtain ⟨hlt, h⟩ := h
  obtain ⟨hlt', hk⟩ := reads_readText k (':' :: cs)
  rw [List.length_cons] at hlt hlt'
  rw [quote_append]
  refine ⟨by rw [List.length_cons]; omega, ?_⟩
  rw [readFields]
  simp only [Option.bind_eq_bind, Option.bind_some, eat?_self (x := '"') rfl, hk,
    eat?_self (x := ':') rfl, h, eat?_of_ne (c := '}') (x := ',') rfl (by decide),
    eat?_self (x := '}') rfl]
  rfl

theorem reads_field (k : String) {fs : List (Option String × Json)} {r : List Char}
    (h : Reads (readValue cs) j (',' :: r)) (hfs : Reads (readFields r) fs rest) :
    Reads (readFields (quote k ++ ':' :: cs)) ((some k, j) :: fs) rest := by
  obtain ⟨hlt, h⟩ := h
  obtain ⟨hlt', hk⟩ := reads_readText k (':' :: cs)
  obtain ⟨hlt'', hfs⟩ := hfs
  rw [List.length_cons] at hlt hlt'
  rw [quote_append]
  refine ⟨by rw [List.length_cons]; omega, ?_⟩
  rw [readFields]
  simp only [Option.bind_eq_bind, Option.bind_some, eat?_self (x := '"') rfl, hk,
    eat?_self (x := ':') rfl, h, eat?_self (x := ',') rfl, hfs]
  rfl

/-! ## What is written -/

/-- Names that hold text stay with their values. -/
theorem ofFields_some (fs : List (String × Json)) :
    ofFields (fs.map fun f => (some f.1, f.2)) = object fs := by
  have hnames : (fs.map fun f => (some f.1, f.2)).mapM (fun f => f.1.map (·, f.2)) = some fs := by
    induction fs with
    | nil => rfl
    | cons f fs ih => simp [ih]
  unfold ofFields
  split
  · rename_i h
    exact congrArg object (Option.some.inj (h.symm.trans hnames))
  · rename_i h
    cases h.symm.trans hnames

/-- A value starts with a character of its own, which closes nothing. -/
theorem compactChars_start (h : j.isPlain) :
    ∃ c cs, j.compactChars = c :: cs ∧ isSpace c = false ∧ c ≠ ']' := by
  cases j with
  | null => exact ⟨_, _, rfl, rfl, by decide⟩
  | bool b => cases b <;> exact ⟨_, _, rfl, rfl, by decide⟩
  | number text => cases h
  | string s => exact ⟨_, _, rfl, rfl, by decide⟩
  | array items => cases items <;> exact ⟨_, _, rfl, rfl, by decide⟩
  | object fields => rcases fields with _ | ⟨⟨k, j⟩, fs⟩ <;> exact ⟨_, _, rfl, rfl, by decide⟩
  | unreadable => cases h

theorem reads_string (s : String) (rest : List Char) :
    Reads (readValue (quote s ++ rest)) (string s) rest := by
  obtain ⟨hlt, h⟩ := reads_readText s rest
  rw [quote_append]
  refine reads_scalar rfl (by decide) (by decide) ?_
  rw [scalar?, h]
  rfl

mutual

/-- The text of a value is read as the value, whatever follows it. -/
theorem reads_readValue : (j : Json) → j.isPlain → ∀ rest : List Char,
    Reads (readValue (j.compactChars ++ rest)) j rest
  | null, _, rest => reads_scalar rfl (by decide) (by decide) rfl
  | bool true, _, rest => reads_scalar rfl (by decide) (by decide) rfl
  | bool false, _, rest => reads_scalar rfl (by decide) (by decide) rfl
  | string s, _, rest => reads_string s rest
  | array [], _, rest => reads_emptyArray rest
  | array (j :: js), h, rest => by
    rw [isPlain, arePlain, Bool.and_eq_true] at h
    obtain ⟨c, cs, hcs, hspace, hclose⟩ := compactChars_start h.1
    rw [compactChars, List.cons_append, List.cons_append, List.append_assoc]
    refine reads_array ?_ (reads_readItems js h.2 rest (reads_readValue j h.1 _))
    rw [hcs]
    exact eat?_of_ne hspace hclose _
  | object [], _, rest => reads_emptyObject rest
  | object ((k, j) :: fs), h, rest => by
    rw [isPlain, havePlain, Bool.and_eq_true] at h
    rw [compactChars, List.append_assoc, List.append_assoc, List.cons_append, List.cons_append,
      ← ofFields_some]
    refine reads_object ?_ (reads_readFields fs h.2 k rest (reads_readValue j h.1 _))
    rw [quote_append]
    exact eat?_of_ne rfl (by decide) _

/-- The items of an array, of which the first has been read. -/
theorem reads_readItems : (js : List Json) → arePlain js → ∀ {j : Json} {cs : List Char}
    (rest : List Char), Reads (readValue cs) j (compactItems js ++ rest) →
      Reads (readItems cs) (j :: js) rest
  | [], _, _, _, _, hj => reads_lastItem hj
  | j' :: js, h, _, _, rest, hj => by
    rw [arePlain, Bool.and_eq_true] at h
    rw [compactItems, List.cons_append, List.cons_append, List.append_assoc] at hj
    exact reads_item hj (reads_readItems js h.2 rest (reads_readValue j' h.1 _))

/-- The fields of an object, of which the value of the first has been read. -/
theorem reads_readFields : (fs : List (String × Json)) → havePlain fs → ∀ (k : String) {j : Json}
    {cs : List Char} (rest : List Char), Reads (readValue cs) j (compactFields fs ++ rest) →
      Reads (readFields (quote k ++ ':' :: cs)) (((k, j) :: fs).map fun f => (some f.1, f.2)) rest
  | [], _, k, _, _, _, hj => reads_lastField k hj
  | (k', j') :: fs, h, k, _, _, rest, hj => by
    rw [havePlain, Bool.and_eq_true] at h
    rw [compactFields, List.cons_append, List.append_assoc, List.cons_append, List.append_assoc,
      List.cons_append] at hj
    exact reads_field k hj (reads_readFields fs h.2 k' rest (reads_readValue j' h.1 _))

end

theorem read?_compact (h : j.isPlain) : read? j.compact = some j := by
  have hreads := reads_readValue j h []
  rw [List.append_nil] at hreads
  obtain ⟨hlt, hread⟩ := hreads
  rw [read?, compact, String.toList_ofList, readChars?, hread]
  rfl

end QueryShape.Json
