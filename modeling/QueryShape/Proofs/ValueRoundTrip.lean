import QueryShape.Proofs.AnnotationReading
import QueryShape.Value.Printer

/-!
# Reading back what is written

A value without floats whose names are names is written as a text of the grammar that denotes it
(`valueText_chars`), so an annotation with this text is read as one with the value: `read_written`.
Escapes are undone character by character, and each part of a list or an object ends where the comma
or the bracket after it stands.
-/

set_option autoImplicit false

namespace QueryShape

open Text Annotation

namespace Value

/-! ## Parts of a value -/

mutual

/-- The value itself and all values inside it. -/
def parts : Value → List Value
  | list items => list items :: partsOfItems items
  | object fields => object fields :: partsOfFields fields
  | v => [v]

def partsOfItems : List Value → List Value
  | [] => []
  | v :: vs => parts v ++ partsOfItems vs

def partsOfFields : List (String × Value) → List Value
  | [] => []
  | (_, v) :: fs => parts v ++ partsOfFields fs

end

def isFloat : Value → Bool
  | float _ => true
  | _ => false

/-- The names of the value itself are names: a bare name is none of the words with a meaning of their
own, and the fields of an object have different names. -/
def isNamed : Value → Bool
  | enum name => isName name.toList && decide (name ∉ ["true", "false", "null"])
  | object fields => fields.all (isName ·.1.toList) && decide (OrderedMap.keys fields).Nodup
  | _ => true

/-- There is no float in the value, however deep. -/
def FloatFree (v : Value) : Prop := ∀ w ∈ v.parts, w.isFloat = false

/-- All names in the value are names, however deep they stand. -/
def WellNamed (v : Value) : Prop := ∀ w ∈ v.parts, w.isNamed = true

instance (v : Value) : Decidable v.FloatFree := List.decidableBAll _ _

instance (v : Value) : Decidable v.WellNamed := List.decidableBAll _ _

theorem mem_parts_self (v : Value) : v ∈ v.parts := by
  cases v <;> simp [parts]

/-! ## Tokens -/

theorem isName_of_isNamed {name : String} (h : (enum name).isNamed = true) :
    isName name.toList = true ∧ name ∉ ["true", "false", "null"] := by
  simpa only [isNamed, Bool.and_eq_true, decide_eq_true_eq] using h

theorem keys_of_isNamed {fields : List (String × Value)} (h : (object fields).isNamed = true) :
    (∀ e ∈ fields, isName e.1.toList = true) ∧ (OrderedMap.keys fields).Nodup := by
  simpa only [isNamed, Bool.and_eq_true, List.all_eq_true, decide_eq_true_eq] using h

theorem digitsValue_eq (ds : List Char) : Binary64.digitsValue ds = Nat.ofDigitChars 10 ds 0 :=
  Nat.ofDigitChars_eq_foldl.symm

theorem all_isDigit_toDigits (n : Nat) : (Nat.toDigits 10 n).all Char.isDigit = true :=
  List.all_eq_true.2 fun _ hc => Nat.isDigit_of_mem_toDigits (by omega) (Nat.le_refl 10) hc

/-- Every integer of 64 bits is written as a number that denotes it, the least one too. -/
theorem numberText_intChars (i : Int64) : NumberText (intChars i) (.int i) := by
  have hlt : i.toInt < 2 ^ 63 := i.toInt_lt
  have hle : -2 ^ 63 ≤ i.toInt := i.le_toInt
  have hvalue : Binary64.digitsValue (Nat.toDigits 10 i.toInt.natAbs) = i.toInt.natAbs := by
    rw [digitsValue_eq, Nat.ofDigitChars_ten_toDigits]
  have hpow : Nat.pow 2 63 = 9223372036854775808 := rfl
  unfold intChars
  dsimp only
  split
  · rename_i hneg
    have hint : Int64.ofInt (-(Binary64.digitsValue (Nat.toDigits 10 i.toInt.natAbs) : Int)) = i := by
      rw [hvalue, show -(i.toInt.natAbs : Int) = i.toInt by omega, Int64.ofInt_toInt]
    have h := NumberText.negative Nat.toDigits_ne_nil (all_isDigit_toDigits i.toInt.natAbs)
      (by rw [hvalue, hpow]; omega)
    rwa [hint] at h
  · rename_i hnonneg
    have hint : Int64.ofInt (Binary64.digitsValue (Nat.toDigits 10 i.toInt.natAbs) : Int) = i := by
      rw [hvalue, show (i.toInt.natAbs : Int) = i.toInt by omega, Int64.ofInt_toInt]
    have h := NumberText.natural Nat.toDigits_ne_nil (all_isDigit_toDigits i.toInt.natAbs)
      (by rw [hvalue, hpow]; omega)
    rwa [hint] at h

theorem stringText_escape (cs : List Char) : StringText (cs.flatMap escape) cs := by
  induction cs with
  | nil => exact .nil
  | cons c cs ih =>
    rw [List.flatMap_cons]
    by_cases hq : c = '"'
    · subst hq
      exact .escaped (by decide) ih
    by_cases hb : c = '\\'
    · subst hb
      exact .escaped (by decide) ih
    by_cases hn : c = '\n'
    · subst hn
      exact .lineFeed ih
    · rw [escape, if_neg hq, if_neg hb, if_neg hn]
      exact .plain hq hb ih

end Value

namespace Annotation

theorem blanks_nil : Blanks [] := by simp [Blanks]

theorem blanks_space : Blanks [' '] := by
  intro c hc
  rw [List.mem_singleton.1 hc]
  decide

theorem nameText_toList {name : String} (h : isName name.toList = true) :
    NameText name.toList name := by
  have hname := NameText.mk blanks_nil h
  rwa [List.nil_append, String.ofList_toList] at hname

theorem mark_singleton (x : Char) : Mark x [x] := .mk blanks_nil

theorem mark_spaced (x : Char) : Mark x [' ', x] := .mk blanks_space

theorem Mark.spaced {x : Char} {m : List Char} (h : Mark x m) : Mark x (' ' :: m) := by
  obtain @⟨w, hw⟩ := h
  exact .mk (List.forall_mem_append.2 ⟨blanks_space, hw⟩)

theorem NameText.spaced {s : List Char} {n : String} (h : NameText s n) : NameText (' ' :: s) n := by
  obtain @⟨w, t, hw, ht⟩ := h
  exact .mk (List.forall_mem_append.2 ⟨blanks_space, hw⟩) ht

/-- A blank may stand before every value. -/
theorem ValueText.spaced {s : List Char} {v : Value} (h : ValueText s v) : ValueText (' ' :: s) v := by
  cases h with
  | @number w t v hw h => exact .number (List.forall_mem_append.2 ⟨blanks_space, hw⟩) h
  | wordTrue h => exact .wordTrue h.spaced
  | wordFalse h => exact .wordFalse h.spaced
  | wordNull h => exact .wordNull h.spaced
  | enum h hn => exact .enum h.spaced hn
  | string hq h => exact .string hq.spaced h
  | list ho h hc => exact .list ho.spaced h hc
  | object ho h hc hm => exact .object ho.spaced h hc hm

theorem Keyed.spaced {α : Type} {P : List Char → α → Prop} {s : List Char} {e : String × α}
    (h : Keyed P s e) : Keyed P (' ' :: s) e := by
  obtain ⟨hk, hm, h⟩ := h
  exact .mk hk.spaced hm h

end Annotation

namespace Value

/-! ## Values -/

mutual

/-- What is written for a value is a text that denotes it. -/
theorem valueText_chars : (v : Value) → (∀ w ∈ v.parts, w.isFloat = false ∧ w.isNamed = true) →
    ValueText v.chars v
  | null, _ => .wordNull (@nameText_toList "null" rfl)
  | bool true, _ => .wordTrue (@nameText_toList "true" rfl)
  | bool false, _ => .wordFalse (@nameText_toList "false" rfl)
  | int i, _ => .number blanks_nil (numberText_intChars i)
  | float x, h => by
    have hx := (h _ (mem_parts_self _)).1
    cases hx
  | string s, _ => by
    have hs := ValueText.string (mark_singleton '"') (stringText_escape s.toList)
    rwa [String.ofList_toList] at hs
  | enum name, h => by
    obtain ⟨hn, hw⟩ := isName_of_isNamed (h _ (mem_parts_self _)).2
    exact .enum (nameText_toList hn) hw
  | list [], _ => .list (mark_singleton '[') .nil (mark_singleton ']')
  | list (v :: vs), h => by
    simp only [parts, partsOfItems, List.forall_mem_cons, List.forall_mem_append] at h
    obtain ⟨t, ht, he⟩ := separated_items vs h.2.2 (valueText_chars v h.2.1)
    have hlist := ValueText.list (mark_singleton '[') (.some ht) (mark_singleton ']')
    rwa [← he] at hlist
  | object [], _ => .object (mark_singleton '{') .nil (mark_singleton '}') (merges_ofList [])
  | object ((k, v) :: fs), h => by
    obtain ⟨hkeys, hd⟩ := keys_of_isNamed (h _ (mem_parts_self _)).2
    simp only [parts, partsOfFields, List.forall_mem_cons, List.forall_mem_append] at h
    rw [List.forall_mem_cons] at hkeys
    have hv := Keyed.mk (nameText_toList hkeys.1) (mark_singleton ':') (valueText_chars v h.2.1).spaced
    obtain ⟨t, ht, he⟩ := separated_fields fs hkeys.2 h.2.2 hv
    have hmerges := merges_ofList ((k, v) :: fs)
    rw [OrderedMap.ofList_of_nodup hd] at hmerges
    have hobject := ValueText.object (mark_singleton '{') (.some ht) (mark_singleton '}') hmerges
    rw [← he] at hobject
    simpa only [chars, List.append_assoc, List.cons_append, List.nil_append] using hobject

theorem separated_items : (vs : List Value) →
    (∀ w ∈ partsOfItems vs, w.isFloat = false ∧ w.isNamed = true) → ∀ {s : List Char} {v : Value},
    ValueText s v → ∃ t, Separated ValueText t (v :: vs) ∧ s ++ itemsChars vs = t ++ [']']
  | [], _, s, _, hs => ⟨s, .one hs, rfl⟩
  | v :: vs, h, s, _, hs => by
    simp only [partsOfItems, List.forall_mem_append] at h
    obtain ⟨t, ht, he⟩ := separated_items vs h.2 (valueText_chars v h.1).spaced
    refine ⟨s ++ ([','] ++ t), .cons hs (mark_singleton ',') ht, ?_⟩
    simp only [itemsChars, List.append_assoc, List.cons_append, List.nil_append] at he ⊢
    rw [he]

theorem separated_fields : (fs : List (String × Value)) → (∀ e ∈ fs, isName e.1.toList = true) →
    (∀ w ∈ partsOfFields fs, w.isFloat = false ∧ w.isNamed = true) →
    ∀ {s : List Char} {e : String × Value}, Keyed ValueText s e →
    ∃ t, Separated (Keyed ValueText) t (e :: fs) ∧ s ++ fieldsChars fs = t ++ ['}']
  | [], _, _, s, _, hs => ⟨s, .one hs, rfl⟩
  | (k, v) :: fs, hk, h, s, _, hs => by
    simp only [partsOfFields, List.forall_mem_append] at h
    rw [List.forall_mem_cons] at hk
    have hv := Keyed.mk (nameText_toList hk.1) (mark_singleton ':') (valueText_chars v h.1).spaced
    obtain ⟨t, ht, he⟩ := separated_fields fs hk.2 h.2 hv.spaced
    refine ⟨s ++ ([','] ++ t), .cons hs (mark_singleton ',') ht, ?_⟩
    simp only [fieldsChars, List.append_assoc, List.cons_append, List.nil_append] at he ⊢
    rw [he]

end

theorem WellNamed.valueText {v : Value} (hn : v.WellNamed) (hf : v.FloatFree) :
    ValueText v.defaultText.toList v := by
  rw [defaultText, String.toList_ofList]
  exact valueText_chars v fun w hw => ⟨hf w hw, hn w hw⟩

end Value

namespace Annotation

theorem read_of_derives {text : String} {a : Annotation} (h : Derives text.toList a) :
    read text = .ok a := by
  rw [read, h.readChars_eq]

/-- A call with one argument. -/
theorem read_call {f k text : String} {argument : Argument} (hf : isName f.toList = true)
    (hk : isName k.toList = true) (h : ArgumentText (' ' :: text.toList) argument) :
    read (f ++ "(" ++ k ++ ": " ++ text ++ ")") =
      .ok { name := some f, arguments := [(k, argument)] } := by
  have hkeyed := Keyed.mk (nameText_toList hk) (mark_singleton ':') h
  have hcall := CallText.mk (nameText_toList hf) (mark_singleton '(') (.some (.one hkeyed))
    (List.nodup_singleton k) (mark_singleton ')')
  apply read_of_derives
  simpa using Derives.call hcall blanks_nil

theorem read_literal {v : Value} (hn : v.WellNamed) (hf : v.FloatFree) {f k : String}
    (hfun : isName f.toList = true) (hkey : isName k.toList = true) :
    read (f ++ "(" ++ k ++ ": " ++ v.defaultText ++ ")") =
      .ok { name := some f, arguments := [(k, .literal v none)] } := by
  have hliteral := ArgumentText.ofLiteral (hn.valueText hf).spaced Optionally.none
  rw [List.append_nil] at hliteral
  exact read_call hfun hkey hliteral

/-- What is written for a value is read back as the value, given as a literal or as the default of a
variable. -/
theorem read_written {v : Value} (hn : v.WellNamed) (hf : v.FloatFree) {f k x τ type : String}
    (hfun : isName f.toList = true) (hkey : isName k.toList = true) (hvar : isName x.toList = true)
    (htype : TypeText τ.toList type) :
    read (f ++ "(" ++ k ++ ": " ++ v.defaultText ++ ")") =
      .ok { name := some f, arguments := [(k, .literal v none)] } ∧
    read (f ++ "(" ++ k ++ ": " ++ ("$" ++ x ++ ":" ++ τ ++ " = " ++ v.defaultText) ++ ")") =
      .ok { name := some f, arguments := [(k, .variable (some x) (some type) (some v))] } := by
  refine ⟨read_literal hn hf hfun hkey, ?_⟩
  have hname := VariableName.present hvar
  rw [String.ofList_toList] at hname
  have hvariable := ArgumentText.ofVariable (mark_spaced '$') hname
    (.some (mark_singleton ':') htype) (.some (mark_spaced '=') (hn.valueText hf).spaced)
  apply read_call hfun hkey
  simpa using hvariable

/-- A value with every kind of part but floats: what separates parts stands in a string, and so do
quotes, backslashes and line feeds. -/
def nestedValue : Value :=
  .object [("items", .list [.string "a, \"b\"]\\\n\x7d", .int Int64.minValue, .null, .list []]),
    ("_1", .object [("on", .bool true), ("x", .enum "nulls"), ("none", .object [])])]

theorem read_written_nested : nestedValue.WellNamed ∧ nestedValue.FloatFree ∧
    nestedValue.defaultText =
      "\x7bitems: [\"a, \\\"b\\\"]\\\\\\n\x7d\", -9223372036854775808, null, []], " ++
        "_1: \x7bon: true, x: nulls, none: \x7b\x7d\x7d\x7d" ∧
    read ("f" ++ "(" ++ "k" ++ ": " ++ nestedValue.defaultText ++ ")") =
      .ok { name := some "f", arguments := [("k", .literal nestedValue none)] } ∧
    read ("f" ++ "(" ++ "k" ++ ": " ++ ("$" ++ "v" ++ ":" ++ "T0" ++ " = " ++
        nestedValue.defaultText) ++ ")") =
      .ok { name := some "f",
            arguments := [("k", .variable (some "v") (some "T0") (some nestedValue))] } := by
  have hn : nestedValue.WellNamed := by decide
  have hf : nestedValue.FloatFree := by decide
  have htype : TypeText "T0".toList "T0" := .name (@nameText_toList "T0" rfl) .absent
  exact ⟨hn, hf, by decide, read_written hn hf (by decide) (by decide) (by decide) htype⟩

end Annotation

end QueryShape
