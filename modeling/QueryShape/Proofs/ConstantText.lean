import QueryShape.Proofs.AnnotationNames
import QueryShape.Proofs.ConstantGrammar
import QueryShape.Proofs.ValueRoundTrip

/-!
# Values are written as constants

What is read from an annotation has names where it needs them (`wellNamed_of_read`). Without floats it
is written as a constant of GraphQL that denotes it, unless a string has a carriage return, which is not
escaped: `written_constant_iff`.

That a carriage return spoils the text is read off a scan for line ends between quotes (`clean`): no
text that consists of tokens has one (`clean_of_lexes`), and the text of a value has one for each that
stands in a string (`carriageFree_of_clean`).
-/

set_option autoImplicit false

namespace QueryShape

open Text

/-! ## Values of annotations -/

def Argument.values : Argument → List Value
  | literal value _ => [value]
  | «variable» _ _ default => default.toList

/-- The literals and the defaults. -/
def Annotation.values (a : Annotation) : List Value := a.arguments.flatMap fun e => e.2.values

namespace Annotation

theorem ValueText.isNamed {s : List Char} {v : Value} (h : ValueText s v) : v.isNamed = true := by
  cases h with
  | number _ h => cases h <;> rfl
  | wordTrue => rfl
  | wordFalse => rfl
  | wordNull => rfl
  | enum h hn => simp only [Value.isNamed, h.isName, hn, not_false_eq_true, decide_true, Bool.and_self]
  | string => rfl
  | list => rfl
  | object _ h _ hm =>
    simp only [Value.isNamed, Bool.and_eq_true, List.all_eq_true, decide_eq_true_eq]
    refine ⟨fun e he => ?_, by rw [hm.keys]; exact nodup_eraseDups _⟩
    rw [hm.eq_ofList] at he
    obtain ⟨_, hk, -, -⟩ := h.exists_of_mem e (OrderedMap.mem_of_mem_ofList he)
    exact hk.isName

theorem ValueText.items {s : List Char} {items : List Value} (h : ValueText s (.list items)) :
    ∀ v ∈ items, ∃ t, ValueText t v := by
  cases h with
  | number _ h => cases h
  | list _ h => exact h.exists_of_mem

theorem ValueText.fields {s : List Char} {fields : List (String × Value)}
    (h : ValueText s (.object fields)) : ∀ e ∈ fields, ∃ t, ValueText t e.2 := by
  cases h with
  | number _ h => cases h
  | object _ h _ hm =>
    intro e he
    rw [hm.eq_ofList] at he
    obtain ⟨_, -, -, hv⟩ := h.exists_of_mem e (OrderedMap.mem_of_mem_ofList he)
    exact ⟨_, hv⟩

mutual

/-- What a text denotes is well named, down to its last part. -/
theorem isNamed_of_mem_parts : (v : Value) → (∃ s, ValueText s v) → v.WellNamed
  | .list items, ⟨s, h⟩ => by
    rw [Value.WellNamed, Value.parts, List.forall_mem_cons]
    exact ⟨h.isNamed, isNamed_of_mem_items items h.items⟩
  | .object fields, ⟨s, h⟩ => by
    rw [Value.WellNamed, Value.parts, List.forall_mem_cons]
    exact ⟨h.isNamed, isNamed_of_mem_fields fields h.fields⟩
  | .null, ⟨s, h⟩ | .bool _, ⟨s, h⟩ | .int _, ⟨s, h⟩ | .float _, ⟨s, h⟩ | .string _, ⟨s, h⟩
  | .enum _, ⟨s, h⟩ => by
    rw [Value.WellNamed, Value.parts, List.forall_mem_singleton]
    · exact h.isNamed
    all_goals simp

theorem isNamed_of_mem_items : (vs : List Value) → (∀ v ∈ vs, ∃ s, ValueText s v) →
    ∀ w ∈ Value.partsOfItems vs, w.isNamed = true
  | [], _ => by simp [Value.partsOfItems]
  | v :: vs, h => by
    rw [List.forall_mem_cons] at h
    rw [Value.partsOfItems, List.forall_mem_append]
    exact ⟨isNamed_of_mem_parts v h.1, isNamed_of_mem_items vs h.2⟩

theorem isNamed_of_mem_fields : (fs : List (String × Value)) → (∀ e ∈ fs, ∃ s, ValueText s e.2) →
    ∀ w ∈ Value.partsOfFields fs, w.isNamed = true
  | [], _ => by simp [Value.partsOfFields]
  | (k, v) :: fs, h => by
    rw [List.forall_mem_cons] at h
    rw [Value.partsOfFields, List.forall_mem_append]
    exact ⟨isNamed_of_mem_parts v h.1, isNamed_of_mem_fields fs h.2⟩

end

theorem ArgumentText.exists_of_mem {s : List Char} {a : Argument} (h : ArgumentText s a) :
    ∀ v ∈ a.values, ∃ t, ValueText t v := by
  cases h with
  | ofVariable _ _ _ hv =>
    cases hv with
    | none => simp [Argument.values]
    | some _ h => simpa [Argument.values] using ⟨_, h⟩
  | ofLiteral hv _ => simpa [Argument.values] using ⟨_, hv⟩

/-- The values of an annotation that was read are well named. -/
theorem wellNamed_of_read {text : String} {a : Annotation} (h : read text = .ok a) :
    ∀ v ∈ a.values, v.WellNamed := by
  intro v hv
  obtain ⟨e, he, hv⟩ := List.mem_flatMap.1 hv
  obtain ⟨_, ha⟩ := (spelled_of_read h).arguments e he
  exact isNamed_of_mem_parts v (ha.exists_of_mem v hv)

end Annotation

namespace Value

mutual

/-- The parts of a part are parts. -/
theorem parts_subset : (v : Value) → ∀ w ∈ v.parts, w.parts ⊆ v.parts
  | list items, w, hw => by
    rw [parts, List.mem_cons] at hw
    rcases hw with rfl | hw
    · exact List.Subset.refl _
    · rw [parts.eq_1]
      exact List.subset_cons_of_subset _ (parts_subset_items items w hw)
  | object fields, w, hw => by
    rw [parts, List.mem_cons] at hw
    rcases hw with rfl | hw
    · exact List.Subset.refl _
    · rw [parts.eq_2]
      exact List.subset_cons_of_subset _ (parts_subset_fields fields w hw)
  | null, w, hw | bool _, w, hw | int _, w, hw | float _, w, hw | string _, w, hw
  | enum _, w, hw => by
    rw [List.mem_singleton.1 hw]
    exact List.Subset.refl _

theorem parts_subset_items : (vs : List Value) → ∀ w ∈ partsOfItems vs, w.parts ⊆ partsOfItems vs
  | [], _, hw => by simp [partsOfItems] at hw
  | v :: vs, w, hw => by
    rw [partsOfItems] at hw ⊢
    rcases List.mem_append.1 hw with hw | hw
    · exact List.subset_append_of_subset_left _ (parts_subset v w hw)
    · exact List.subset_append_of_subset_right _ (parts_subset_items vs w hw)

theorem parts_subset_fields : (fs : List (String × Value)) →
    ∀ w ∈ partsOfFields fs, w.parts ⊆ partsOfFields fs
  | [], _, hw => by simp [partsOfFields] at hw
  | (k, v) :: fs, w, hw => by
    rw [partsOfFields] at hw ⊢
    rcases List.mem_append.1 hw with hw | hw
    · exact List.subset_append_of_subset_left _ (parts_subset v w hw)
    · exact List.subset_append_of_subset_right _ (parts_subset_fields fs w hw)

end

def hasReturn : Value → Bool
  | string s => s.toList.contains '\r'
  | _ => false

/-- No string in the value has a carriage return, however deep. -/
def CarriageFree (v : Value) : Prop := ∀ w ∈ v.parts, w.hasReturn = false

instance (v : Value) : Decidable v.CarriageFree := List.decidableBAll _ _

end Value

namespace Constant

open Annotation (nestedValue)

/-! ## Tokens of a value -/

/-- No token goes on in what follows. -/
def Apart (rest : List Char) : Prop :=
  ∀ c ∈ rest.head?, isNameChar c = false ∧ c ≠ '.' ∧ c ≠ '"'

theorem Apart.goesOn {rest : List Char} (h : Apart rest) (tok : Token) :
    ∀ c ∈ rest.head?, tok.goesOn c = false := by
  intro c hc
  obtain ⟨hn, hp, hq⟩ := h c hc
  cases tok <;> simp [Token.goesOn, hn, hp, hq]

theorem apart_cons {c : Char} (h : isNameChar c = false ∧ c ≠ '.' ∧ c ≠ '"') (rest : List Char) :
    Apart (c :: rest) := by
  rintro _ ⟨⟩
  exact h

theorem apart_itemsChars (vs : List Value) (rest : List Char) :
    Apart (Value.itemsChars vs ++ rest) := by
  cases vs with
  | nil => exact apart_cons (by decide) rest
  | cons v vs => exact apart_cons (by decide) _

theorem apart_fieldsChars (fs : List (String × Value)) (rest : List Char) :
    Apart (Value.fieldsChars fs ++ rest) := by
  cases fs with
  | nil => exact apart_cons (by decide) rest
  | cons f fs => exact apart_cons (by decide) _

variable {rest : List Char} {ts : List Token}

theorem lexes_mark {c : Char} (hc : c ∈ ['[', ']', '{', '}', ':']) (h : Lexes rest ts) :
    Lexes (c :: rest) (.mark c :: ts) :=
  .token (.mark hc) (fun _ _ => rfl) h

theorem lexes_space (h : Lexes rest ts) : Lexes (' ' :: rest) ts := .ignored (by decide) h

theorem lexes_comma (h : Lexes rest ts) : Lexes (',' :: ' ' :: rest) ts :=
  .ignored (by decide) (lexes_space h)

theorem lexes_name {n : String} (hn : isName n.toList = true) (hr : Apart rest)
    (h : Lexes rest ts) : Lexes (n.toList ++ rest) (.name n :: ts) := by
  have hname := TokenText.name hn
  rw [String.ofList_toList] at hname
  exact .token hname (hr.goesOn _) h

/-- No zero stands in front of the digits of a number. -/
theorem integerPart_toDigits (n : Nat) : IntegerPart (Nat.toDigits 10 n) := by
  refine ⟨fun d hd => Nat.isDigit_of_mem_toDigits (by omega) (Nat.le_refl 10) hd,
    Nat.toDigits_ne_nil, ?_⟩
  induction n using Nat.strongRecOn with
  | ind n ih =>
    intro hz
    by_cases hn : n < 10
    · rw [Nat.toDigits_of_lt_base hn] at hz ⊢
      simpa using hz
    · -- the first digit is that of a tenth of the number, which is not zero
      rw [Nat.toDigits_of_base_le (by omega) (by omega),
        List.head?_append_of_ne_nil _ Nat.toDigits_ne_nil] at hz
      have hzero := congrArg (Nat.ofDigitChars 10 · 0) (ih (n / 10) (by omega) hz)
      simp only [Nat.ofDigitChars_ten_toDigits] at hzero
      have : Nat.ofDigitChars 10 ['0'] 0 = 0 := rfl
      omega

theorem intText_intChars (i : Int64) : IntText (Value.intChars i) i.toInt := by
  have hdigits := integerPart_toDigits i.toInt.natAbs
  unfold Value.intChars
  dsimp only
  split
  · have h := IntText.negative hdigits
    rwa [Nat.ofDigitChars_ten_toDigits, show -(i.toInt.natAbs : Int) = i.toInt by omega] at h
  · have h := IntText.natural hdigits
    rwa [Nat.ofDigitChars_ten_toDigits, show (i.toInt.natAbs : Int) = i.toInt by omega] at h

theorem stringChars_escape {cs : List Char} (h : '\r' ∉ cs) :
    StringChars (cs.flatMap Value.escape) cs := by
  induction cs with
  | nil => exact .nil
  | cons c cs ih =>
    rw [List.mem_cons, not_or] at h
    have ih := ih h.2
    rw [List.flatMap_cons]
    by_cases hq : c = '"'
    · subst hq
      exact .escaped (by decide) ih
    by_cases hb : c = '\\'
    · subst hb
      exact .escaped (by decide) ih
    by_cases hn : c = '\n'
    · subst hn
      exact .escaped (by decide) ih
    · rw [Value.escape, if_neg hq, if_neg hb, if_neg hn]
      exact .plain hq hb (by simp [isLineEnd, hn, Ne.symm h.1]) ih

theorem tokenText_string {s : String} (h : '\r' ∉ s.toList) :
    TokenText (Value.string s).chars (.string s) := by
  have hs := TokenText.string (stringChars_escape h)
  rwa [String.ofList_toList] at hs

/-- What each part needs to be written as a constant: it is no float, it has names where it needs them,
and no carriage return. -/
def isSound (w : Value) : Bool := !w.isFloat && w.isNamed && !w.hasReturn

mutual

/-- The text of a value consists of tokens that denote it, where it ends before something that no token
goes on in. Items and fields end with a mark, and anything may follow. -/
theorem lexes_chars : (v : Value) → (∀ w ∈ v.parts, isSound w = true) →
    ∃ ts, Denotes ts v ∧ ∀ {rest : List Char} {ts' : List Token}, Apart rest → Lexes rest ts' →
      Lexes (v.chars ++ rest) (ts ++ ts')
  | .null, _ => ⟨_, .null, fun hr h => lexes_name (n := "null") (by decide) hr h⟩
  | .bool true, _ => ⟨_, .true, fun hr h => lexes_name (n := "true") (by decide) hr h⟩
  | .bool false, _ => ⟨_, .false, fun hr h => lexes_name (n := "false") (by decide) hr h⟩
  | .int i, _ => ⟨_, .int, fun hr h => .token (.int (intText_intChars i)) (hr.goesOn _) h⟩
  | .float x, h => by
    have hx := h _ (Value.mem_parts_self _)
    simp [isSound, Value.isFloat] at hx
  | .string s, h => by
    have hs := h _ (Value.mem_parts_self _)
    simp only [isSound, Value.hasReturn, Bool.and_eq_true, Bool.not_eq_true',
      List.contains_eq_mem, decide_eq_false_iff_not] at hs
    exact ⟨_, .string, fun hr h => .token (tokenText_string hs.2) (hr.goesOn _) h⟩
  | .enum name, h => by
    have hn := h _ (Value.mem_parts_self _)
    simp only [isSound, Bool.and_eq_true] at hn
    obtain ⟨hn, hw⟩ := Value.isName_of_isNamed hn.1.2
    exact ⟨_, .enum hw, fun hr h => lexes_name hn hr h⟩
  | .list [], _ => ⟨_, .list .nil, fun _ h => lexes_mark (by decide) (lexes_mark (by decide) h)⟩
  | .list (v :: vs), h => by
    simp only [Value.parts, Value.partsOfItems, List.forall_mem_cons, List.forall_mem_append] at h
    obtain ⟨ts, hv, hlex⟩ := lexes_chars v h.2.1
    obtain ⟨ts', hvs, hlex'⟩ := lexes_itemsChars vs h.2.2
    refine ⟨_, .list (.cons hv hvs), fun {rest _} _ hrest => ?_⟩
    have hall := lexes_mark (c := '[') (by decide) (hlex (apart_itemsChars vs rest) (hlex' hrest))
    simpa [Value.chars] using hall
  | .object [], _ => ⟨_, .object .nil List.nodup_nil, fun _ h =>
      lexes_mark (by decide) (lexes_mark (by decide) h)⟩
  | .object ((k, v) :: fs), h => by
    have hself := h _ (Value.mem_parts_self _)
    simp only [isSound, Bool.and_eq_true] at hself
    obtain ⟨hkeys, hd⟩ := Value.keys_of_isNamed hself.1.2
    rw [List.forall_mem_cons] at hkeys
    simp only [Value.parts, Value.partsOfFields, List.forall_mem_cons, List.forall_mem_append] at h
    obtain ⟨ts, hv, hlex⟩ := lexes_chars v h.2.1
    obtain ⟨ts', hfs, hlex'⟩ := lexes_fieldsChars fs hkeys.2 h.2.2
    refine ⟨_, .object (.cons hv hfs) hd, fun {rest _} _ hrest => ?_⟩
    have hvalue := lexes_space (hlex (apart_fieldsChars fs rest) (hlex' hrest))
    have hcolon := lexes_mark (c := ':') (by decide) hvalue
    have hall := lexes_mark (c := '{') (by decide)
      (lexes_name hkeys.1 (apart_cons (by decide) _) hcolon)
    simpa [Value.chars] using hall

theorem lexes_itemsChars : (vs : List Value) → (∀ w ∈ Value.partsOfItems vs, isSound w = true) →
    ∃ ts, DenotesItems ts vs ∧ ∀ {rest : List Char} {ts' : List Token}, Lexes rest ts' →
      Lexes (Value.itemsChars vs ++ rest) (ts ++ .mark ']' :: ts')
  | [], _ => ⟨_, .nil, fun h => lexes_mark (by decide) h⟩
  | v :: vs, h => by
    simp only [Value.partsOfItems, List.forall_mem_append] at h
    obtain ⟨ts, hv, hlex⟩ := lexes_chars v h.1
    obtain ⟨ts', hvs, hlex'⟩ := lexes_itemsChars vs h.2
    refine ⟨_, .cons hv hvs, fun {rest _} hrest => ?_⟩
    have hall := lexes_comma (hlex (apart_itemsChars vs rest) (hlex' hrest))
    simpa [Value.itemsChars] using hall

theorem lexes_fieldsChars : (fs : List (String × Value)) →
    (∀ e ∈ fs, isName e.1.toList = true) → (∀ w ∈ Value.partsOfFields fs, isSound w = true) →
    ∃ ts, DenotesFields ts fs ∧ ∀ {rest : List Char} {ts' : List Token}, Lexes rest ts' →
      Lexes (Value.fieldsChars fs ++ rest) (ts ++ .mark '}' :: ts')
  | [], _, _ => ⟨_, .nil, fun h => lexes_mark (by decide) h⟩
  | (k, v) :: fs, hk, h => by
    simp only [Value.partsOfFields, List.forall_mem_append] at h
    rw [List.forall_mem_cons] at hk
    obtain ⟨ts, hv, hlex⟩ := lexes_chars v h.1
    obtain ⟨ts', hfs, hlex'⟩ := lexes_fieldsChars fs hk.2 h.2
    refine ⟨_, .cons hv hfs, fun {rest _} hrest => ?_⟩
    have hvalue := lexes_space (hlex (apart_fieldsChars fs rest) (hlex' hrest))
    have hcolon := lexes_mark (c := ':') (by decide) hvalue
    have hall := lexes_comma (lexes_name hk.1 (apart_cons (by decide) _) hcolon)
    simpa [Value.fieldsChars] using hall

end

/-! ## Line ends between quotes -/

/-- Where a scan of a text stands. -/
inductive Scan where
  | outside
  | comment
  | inside
  /-- After a backslash in a string. -/
  | escaped

/-- No line end stands between quotes. -/
def clean : Scan → List Char → Bool
  | _, [] => true
  | .outside, c :: s => clean (if c = '"' then .inside else if c = '#' then .comment else .outside) s
  | .comment, c :: s => clean (if isLineEnd c then .outside else .comment) s
  | .inside, c :: s =>
    !isLineEnd c && clean (if c = '"' then .outside else if c = '\\' then .escaped else .inside) s
  | .escaped, _ :: s => clean .inside s

theorem clean_outside_cons {c : Char} (hq : c ≠ '"') (hc : c ≠ '#') (s : List Char) :
    clean .outside (c :: s) = clean .outside s := by
  rw [clean, if_neg hq, if_neg hc]

theorem clean_outside_append {t : List Char} (h : ∀ c ∈ t, c ≠ '"' ∧ c ≠ '#') (s : List Char) :
    clean .outside (t ++ s) = clean .outside s := by
  induction t with
  | nil => rfl
  | cons c t ih =>
    rw [List.forall_mem_cons] at h
    rw [List.cons_append, clean_outside_cons h.1.1 h.1.2, ih h.2]

theorem clean_inside_append {t : List Char}
    (h : ∀ c ∈ t, c ≠ '"' ∧ c ≠ '\\' ∧ isLineEnd c = false) (s : List Char) :
    clean .inside (t ++ s) = clean .inside s := by
  induction t with
  | nil => rfl
  | cons c t ih =>
    rw [List.forall_mem_cons] at h
    obtain ⟨⟨hq, hb, hl⟩, ht⟩ := h
    rw [List.cons_append, clean, hl, if_neg hq, if_neg hb, ih ht]
    rfl

theorem clean_comment_append {t : List Char} (h : ∀ c ∈ t, isLineEnd c = false) (s : List Char) :
    clean .comment (t ++ s) = clean .comment s := by
  induction t with
  | nil => rfl
  | cons c t ih =>
    rw [List.forall_mem_cons] at h
    rw [List.cons_append, clean, h.1, ← ih h.2]
    rfl

theorem ne_of_isNameChar {c : Char} (h : isNameChar c = true) : c ≠ '"' ∧ c ≠ '#' := by
  constructor <;> rintro rfl <;> cases h

theorem ne_of_isDigit {c : Char} (h : c.isDigit = true) : c ≠ '"' ∧ c ≠ '#' := by
  constructor <;> rintro rfl <;> cases h

theorem ne_of_isName {t : List Char} (h : isName t = true) : ∀ c ∈ t, c ≠ '"' ∧ c ≠ '#' :=
  fun c hc => ne_of_isNameChar (isNameChar_of_isName h c hc)

theorem IntText.ne_of_mem {t : List Char} {n : Int} (h : IntText t n) :
    ∀ c ∈ t, c ≠ '"' ∧ c ≠ '#' := by
  cases h with
  | natural h => exact fun c hc => ne_of_isDigit (h.digits c hc)
  | negative h =>
    rw [List.forall_mem_cons]
    exact ⟨by decide, fun c hc => ne_of_isDigit (h.digits c hc)⟩

theorem UnicodeText.ne_of_mem {u : List Char} {x : Char} (h : UnicodeText u x) :
    ∀ c ∈ u, c ≠ '"' ∧ c ≠ '\\' ∧ isLineEnd c = false := by
  have hhex : ∀ c, isHexDigit c = true → c ≠ '"' ∧ c ≠ '\\' ∧ isLineEnd c = false := by
    intro c hc
    refine ⟨?_, ?_, ?_⟩
    · rintro rfl
      exact absurd hc (by decide)
    · rintro rfl
      exact absurd hc (by decide)
    · rw [Bool.eq_false_iff]
      intro hl
      simp only [isLineEnd, Bool.or_eq_true, decide_eq_true_eq] at hl
      rcases hl with rfl | rfl <;> exact absurd hc (by decide)
  cases h with
  | four _ hd _ => exact fun c hc => hhex c (hd c hc)
  | braced _ hd _ =>
    simp only [List.forall_mem_cons, List.forall_mem_append]
    exact ⟨by decide, fun c hc => hhex c (hd c hc), by decide, by simp⟩

theorem StringChars.clean_eq {s cs : List Char} (h : StringChars s cs) (rest : List Char) :
    clean .inside (s ++ '"' :: rest) = clean .outside rest := by
  induction h with
  | nil => rfl
  | plain hq hb hl _ ih =>
    rw [List.cons_append, clean, hl, if_neg hq, if_neg hb, ih]
    rfl
  | escaped _ _ ih => exact ih
  | @unicode u s cs c hu _ ih =>
    rw [List.cons_append, List.cons_append, List.append_assoc]
    show clean .inside (u ++ (s ++ '"' :: rest)) = _
    rw [clean_inside_append hu.ne_of_mem, ih]

theorem TokenText.clean_eq {t : List Char} {tok : Token} (h : TokenText t tok) (rest : List Char) :
    clean .outside (t ++ rest) = clean .outside rest := by
  cases h with
  | @mark c hc =>
    have hne : c ≠ '"' ∧ c ≠ '#' := by constructor <;> rintro rfl <;> exact absurd hc (by decide)
    exact clean_outside_cons hne.1 hne.2 rest
  | name ht => exact clean_outside_append (ne_of_isName ht) rest
  | int h => exact clean_outside_append h.ne_of_mem rest
  | @string s cs h =>
    have hs := h.clean_eq rest
    rw [List.cons_append, List.append_assoc]
    exact hs

/-- A text that consists of tokens has no line end between quotes. -/
theorem clean_of_lexes {s : List Char} (h : Lexes s ts) : clean .outside s = true := by
  induction h with
  | nil => rfl
  | @ignored c s ts hc _ ih =>
    have hne : c ≠ '"' ∧ c ≠ '#' := by constructor <;> rintro rfl <;> exact absurd hc (by decide)
    rw [clean_outside_cons hne.1 hne.2, ih]
  | @comment cs s ts hcs hs _ ih =>
    show clean .comment (cs ++ s) = true
    rw [clean_comment_append hcs]
    cases s with
    | nil => rfl
    | cons c s =>
      have hl := hs c rfl
      have hne : c ≠ '"' ∧ c ≠ '#' := by constructor <;> rintro rfl <;> exact absurd hl (by decide)
      rw [clean_outside_cons hne.1 hne.2] at ih
      rw [clean, if_pos hl, ih]
  | token ht _ _ ih => rw [ht.clean_eq, ih]

theorem notMem_of_clean {cs rest : List Char}
    (h : clean .inside (cs.flatMap Value.escape ++ '"' :: rest) = true) :
    '\r' ∉ cs ∧ clean .outside rest = true := by
  induction cs with
  | nil => exact ⟨List.not_mem_nil, h⟩
  | cons c cs ih =>
    rw [List.flatMap_cons, List.append_assoc, Value.escape] at h
    by_cases hq : c = '"'
    · subst hq
      simpa using ih h
    by_cases hb : c = '\\'
    · subst hb
      simpa using ih h
    by_cases hn : c = '\n'
    · subst hn
      simpa using ih h
    · -- all else stands for itself, a carriage return too
      rw [if_neg hq, if_neg hb, if_neg hn, List.singleton_append, clean, if_neg hq, if_neg hb,
        Bool.and_eq_true, Bool.not_eq_true'] at h
      have hr : '\r' ≠ c := by
        rintro rfl
        exact absurd h.1 (by decide)
      obtain ⟨hcs, hrest⟩ := ih h.2
      exact ⟨fun hm => (List.mem_cons.1 hm).elim hr hcs, hrest⟩

theorem notMem_of_clean_string {s : String} {rest : List Char}
    (h : clean .outside ((Value.string s).chars ++ rest) = true) :
    '\r' ∉ s.toList ∧ clean .outside rest = true := by
  rw [Value.chars, Value.quote, List.cons_append, List.cons_append, List.append_assoc] at h
  exact notMem_of_clean h

mutual

/-- Where the text of a value has no line end between quotes, its strings have no carriage return. -/
theorem carriageFree_of_clean : (v : Value) →
    (∀ w ∈ v.parts, w.isFloat = false ∧ w.isNamed = true) → ∀ {rest : List Char},
    clean .outside (v.chars ++ rest) = true → v.CarriageFree ∧ clean .outside rest = true
  | .null, _, _, hc => ⟨by decide, hc⟩
  | .bool true, _, _, hc => ⟨by decide, hc⟩
  | .bool false, _, _, hc => ⟨by decide, hc⟩
  | .int i, _, _, hc => by
    rw [Value.chars, clean_outside_append (intText_intChars i).ne_of_mem] at hc
    exact ⟨List.forall_mem_singleton.2 rfl, hc⟩
  | .float x, h, _, _ => by
    have hx := (h _ (Value.mem_parts_self _)).1
    cases hx
  | .string s, _, _, hc => by
    obtain ⟨hs, hrest⟩ := notMem_of_clean_string hc
    exact ⟨List.forall_mem_singleton.2 (by simpa [Value.hasReturn] using hs), hrest⟩
  | .enum name, h, _, hc => by
    obtain ⟨hn, -⟩ := Value.isName_of_isNamed (h _ (Value.mem_parts_self _)).2
    rw [Value.chars, clean_outside_append (ne_of_isName hn)] at hc
    exact ⟨List.forall_mem_singleton.2 rfl, hc⟩
  | .list [], _, _, hc => ⟨by decide, hc⟩
  | .list (v :: vs), h, rest, hc => by
    simp only [Value.parts, Value.partsOfItems, List.forall_mem_cons, List.forall_mem_append] at h
    rw [Value.chars, List.append_assoc] at hc
    obtain ⟨hv, hc⟩ := carriageFree_of_clean v h.2.1 hc
    obtain ⟨hvs, hrest⟩ := carriageFree_of_clean_items vs h.2.2 hc
    refine ⟨?_, hrest⟩
    rw [Value.CarriageFree, Value.parts, Value.partsOfItems, List.forall_mem_cons,
      List.forall_mem_append]
    exact ⟨rfl, hv, hvs⟩
  | .object [], _, _, hc => ⟨by decide, hc⟩
  | .object ((k, v) :: fs), h, rest, hc => by
    obtain ⟨hkeys, -⟩ := Value.keys_of_isNamed (h _ (Value.mem_parts_self _)).2
    rw [List.forall_mem_cons] at hkeys
    simp only [Value.parts, Value.partsOfFields, List.forall_mem_cons, List.forall_mem_append] at h
    simp only [Value.chars, List.append_assoc, List.cons_append, List.nil_append] at hc
    rw [clean_outside_cons (by decide) (by decide), clean_outside_append (ne_of_isName hkeys.1)] at hc
    obtain ⟨hv, hc⟩ := carriageFree_of_clean v h.2.1 hc
    obtain ⟨hfs, hrest⟩ := carriageFree_of_clean_fields fs hkeys.2 h.2.2 hc
    refine ⟨?_, hrest⟩
    rw [Value.CarriageFree, Value.parts, Value.partsOfFields, List.forall_mem_cons,
      List.forall_mem_append]
    exact ⟨rfl, hv, hfs⟩

theorem carriageFree_of_clean_items : (vs : List Value) →
    (∀ w ∈ Value.partsOfItems vs, w.isFloat = false ∧ w.isNamed = true) → ∀ {rest : List Char},
    clean .outside (Value.itemsChars vs ++ rest) = true →
    (∀ w ∈ Value.partsOfItems vs, w.hasReturn = false) ∧ clean .outside rest = true
  | [], _, _, hc => ⟨by simp [Value.partsOfItems], hc⟩
  | v :: vs, h, rest, hc => by
    rw [Value.partsOfItems, List.forall_mem_append] at h ⊢
    rw [Value.itemsChars, List.append_assoc] at hc
    obtain ⟨hv, hc⟩ := carriageFree_of_clean v h.1 hc
    obtain ⟨hvs, hrest⟩ := carriageFree_of_clean_items vs h.2 hc
    exact ⟨⟨hv, hvs⟩, hrest⟩

theorem carriageFree_of_clean_fields : (fs : List (String × Value)) →
    (∀ e ∈ fs, isName e.1.toList = true) →
    (∀ w ∈ Value.partsOfFields fs, w.isFloat = false ∧ w.isNamed = true) → ∀ {rest : List Char},
    clean .outside (Value.fieldsChars fs ++ rest) = true →
    (∀ w ∈ Value.partsOfFields fs, w.hasReturn = false) ∧ clean .outside rest = true
  | [], _, _, _, hc => ⟨by simp [Value.partsOfFields], hc⟩
  | (k, v) :: fs, hk, h, rest, hc => by
    rw [Value.partsOfFields, List.forall_mem_append] at h ⊢
    rw [List.forall_mem_cons] at hk
    simp only [Value.fieldsChars, List.append_assoc, List.cons_append, List.nil_append] at hc
    rw [clean_outside_cons (by decide) (by decide), clean_outside_cons (by decide) (by decide),
      clean_outside_append (ne_of_isName hk.1)] at hc
    obtain ⟨hv, hc⟩ := carriageFree_of_clean v h.1 hc
    obtain ⟨hfs, hrest⟩ := carriageFree_of_clean_fields fs hk.2 h.2 hc
    exact ⟨⟨hv, hfs⟩, hrest⟩

end

/-! ## Values of annotations -/

theorem constantText_iff {v : Value} (hn : v.WellNamed) (hf : v.FloatFree) :
    ConstantText v.defaultText.toList v ↔ v.CarriageFree := by
  rw [Value.defaultText, String.toList_ofList]
  constructor
  · rintro ⟨ts, hlex, -⟩
    have hclean := clean_of_lexes hlex
    rw [← List.append_nil v.chars] at hclean
    exact (carriageFree_of_clean v (fun w hw => ⟨hf w hw, hn w hw⟩) hclean).1
  · intro hc
    obtain ⟨ts, hd, hlex⟩ := lexes_chars v fun w hw => by simp [isSound, hf w hw, hn w hw, hc w hw]
    have hall := @hlex [] [] (fun _ h => by cases h) .nil
    rw [List.append_nil, List.append_nil] at hall
    exact ⟨ts, hall, hd⟩

theorem tokenText_string_iff (s : String) :
    TokenText (Value.string s).defaultText.toList (.string s) ↔ '\r' ∉ s.toList := by
  rw [Value.defaultText, String.toList_ofList]
  constructor
  · intro h
    have hclean : clean .outside ((Value.string s).chars ++ []) = true := h.clean_eq []
    exact (notMem_of_clean_string hclean).1
  · exact tokenText_string

/-- A value without floats that was read from an annotation, at any depth, is written as a constant that
denotes it if and only if its strings have no carriage returns; so it is for each of its strings alone,
which is one token. -/
theorem written_constant_iff {text : String} {a : Annotation} (h : Annotation.read text = .ok a)
    {v w : Value} (hv : v ∈ a.values) (hw : w ∈ v.parts) (hf : w.FloatFree) :
    (ConstantText w.defaultText.toList w ↔ w.CarriageFree) ∧
    ∀ s, .string s ∈ w.parts →
      (TokenText (Value.string s).defaultText.toList (.string s) ↔ '\r' ∉ s.toList) := by
  have hn : w.WellNamed := fun u hu =>
    Annotation.wellNamed_of_read h v hv u (Value.parts_subset v w hw hu)
  exact ⟨constantText_iff hn hf, fun s _ => tokenText_string_iff s⟩

theorem written_constant_nested :
    let a : Annotation := { name := some "f", arguments := [("k", .literal nestedValue none)] }
    Annotation.read ("f" ++ "(" ++ "k" ++ ": " ++ nestedValue.defaultText ++ ")") = .ok a ∧
    nestedValue ∈ a.values ∧ nestedValue.FloatFree ∧
    ConstantText nestedValue.defaultText.toList nestedValue ∧
    .string "a, \"b\"]\\\n\x7d" ∈ nestedValue.parts ∧
    TokenText "\"a, \\\"b\\\"]\\\\\\n\x7d\"".toList (.string "a, \"b\"]\\\n\x7d") := by
  intro a
  have hf : nestedValue.FloatFree := by decide
  have hread := Annotation.read_literal (v := nestedValue) (f := "f") (k := "k") (by decide) hf
    (by decide) (by decide)
  have hv : nestedValue ∈ a.values := List.mem_singleton_self _
  have hs : .string "a, \"b\"]\\\n\x7d" ∈ nestedValue.parts := by
    simp [nestedValue, Value.parts, Value.partsOfItems, Value.partsOfFields]
  obtain ⟨hconstant, hstrings⟩ := written_constant_iff hread hv (Value.mem_parts_self _) hf
  exact ⟨hread, hv, hf, hconstant.2 (by decide), hs, (hstrings _ hs).2 (by decide)⟩

/-- A string with a carriage return is read, and what is written for it is no constant. -/
theorem carriage_return_not_constant :
    Annotation.read "f(k: \"a\rb\")" =
      .ok { name := some "f", arguments := [("k", .literal (.string "a\rb") none)] } ∧
    (Value.string "a\rb").defaultText = "\"a\rb\"" ∧
    ∀ v, ¬ ConstantText (Value.string "a\rb").defaultText.toList v := by
  have hread := Annotation.read_literal (v := .string "a\rb") (f := "f") (k := "k") (by decide)
    (by decide) (by decide) (by decide)
  refine ⟨hread, by decide, ?_⟩
  rintro v ⟨ts, hlex, -⟩
  exact absurd (clean_of_lexes hlex) (by decide)

end Constant

end QueryShape
