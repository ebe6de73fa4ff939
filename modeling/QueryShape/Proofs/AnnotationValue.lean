import QueryShape.Proofs.AnnotationNumber
import QueryShape.Proofs.OrderedMap

/-!
# Reading types and values

`reads_readType_iff` and `reads_readValue_iff` say what the readers do with the first token of a type
or a value. From them follows that what they take is the text of a type or a value (`readType_sound`,
`readValue_sound`), by the recursion of the readers, and that they take all of such a text
(`TypeText.reads`, `ValueText.reads`), by induction on its length.
-/

set_option autoImplicit false

namespace QueryShape.Annotation

open Text

variable {α : Type} {cs s rest marks : List Char} {x : Char}

/-! ## Types -/

/-- A reader's step over an optional `!`, which is added to the text of the type. -/
def BangStep (inner t : String) (r rest : List Char) : Prop :=
  (∃ h, eat? '!' r = some ⟨rest, h⟩ ∧ t = inner ++ "!") ∨ eat? '!' r = none ∧ t = inner ∧ r = rest

theorem reads_readType_iff {t : String} :
    Reads (readType cs) t rest ↔ ∃ inner r, BangStep inner t r rest ∧
      ((∃ r₁ h₁ item r₂ h₂, eat? '[' cs = some ⟨r₁, h₁⟩ ∧ Reads (readType r₁) item r₂ ∧
        expect ']' r₂ = .ok ⟨r, h₂⟩ ∧ inner = "[" ++ item ++ "]") ∨
      eat? '[' cs = none ∧ Reads (readName cs) inner r) := by
  rw [readType, reads_bind]
  constructor
  · rintro ⟨⟨inner, r, hr⟩, hi, h⟩
    refine ⟨inner, r, ?_, ?_⟩
    · dsimp only at h
      split at h
      · rename_i he
        obtain ⟨rfl, rfl⟩ := reads_pure.1 h
        exact .inl ⟨_, he, rfl⟩
      · rename_i he
        obtain ⟨rfl, rfl⟩ := reads_pure.1 h
        exact .inr ⟨he, rfl, rfl⟩
    · split at hi
      · rename_i r₁ h₁ he
        obtain ⟨⟨item, r₂, h₂⟩, hitem, hi⟩ := reads_bind.1 ⟨hr, hi⟩
        obtain ⟨⟨r₃, h₃⟩, hclose, hi⟩ := reads_bind.1 hi
        obtain ⟨rfl, rfl⟩ := reads_pure.1 hi
        exact .inl ⟨r₁, h₁, item, r₂, h₃, he, ⟨h₂, hitem⟩, hclose, rfl⟩
      · rename_i he
        exact .inr ⟨he, hr, hi⟩
  · rintro ⟨inner, r, hbang, hi⟩
    have hr : r.length < cs.length := by
      obtain ⟨r₁, h₁, item, r₂, h₂, he, ⟨h₃, hitem⟩, hclose, rfl⟩ | ⟨he, h, hi⟩ := hi
      · omega
      · exact h
    refine ⟨(inner, ⟨r, hr⟩), ?_, ?_⟩
    · obtain ⟨r₁, h₁, item, r₂, h₂, he, ⟨h₃, hitem⟩, hclose, rfl⟩ | ⟨he, h, hi⟩ := hi
      · rw [he]
        simp only [hitem, hclose, bind, Except.bind]
        rfl
      · rw [he]
        exact hi
    · obtain ⟨h, he, rfl⟩ | ⟨he, rfl, rfl⟩ := hbang
      · dsimp only
        rw [he]
        exact reads_pure.2 ⟨rfl, rfl⟩
      · dsimp only
        rw [he]
        exact reads_pure.2 ⟨rfl, rfl⟩

theorem BangStep.sound {inner t : String} {r : List Char} (h : BangStep inner t r rest) :
    ∃ b bang, BangText b bang ∧ t = inner ++ bang ∧ r = b ++ rest := by
  obtain ⟨_, he, rfl⟩ | ⟨-, rfl, rfl⟩ := h
  · obtain ⟨m, hm, hr⟩ := eat?_sound he
    exact ⟨m, "!", .present hm, rfl, hr⟩
  · exact ⟨[], "", .absent, String.append_empty.symm, rfl⟩

theorem BangText.step {b : List Char} {bang : String} (h : BangText b bang) (hr : Ends ['!'] rest)
    (inner : String) : BangStep inner (inner ++ bang) (b ++ rest) rest := by
  cases h with
  | absent => exact .inr ⟨hr.eat?_eq_none List.mem_cons_self, String.append_empty, rfl⟩
  | present hm =>
    obtain ⟨h₁, he⟩ := hm.eat?_eq (by decide) rest
    exact .inl ⟨h₁, he, rfl⟩

theorem BangText.ends {b : List Char} {bang : String} (h : BangText b bang) (hm : '!' ∉ marks)
    (hr : Ends marks rest) : Ends marks (b ++ rest) := by
  cases h with
  | absent => exact hr
  | present h => exact h.ends (by decide) marks rest hm

theorem readType_sound {cs rest : List Char} {t : String} (h : Reads (readType cs) t rest) :
    ∃ s, TypeText s t ∧ cs = s ++ rest := by
  obtain ⟨inner, r, hbang, hi⟩ := reads_readType_iff.1 h
  obtain ⟨b, bang, hb, rfl, hr⟩ := hbang.sound
  obtain ⟨r₁, h₁, item, r₂, h₂, he, hitem, hclose, rfl⟩ | ⟨-, hname⟩ := hi
  · obtain ⟨o, ho, hcs⟩ := eat?_sound he
    obtain ⟨s, hs, hr₁⟩ := readType_sound hitem
    obtain ⟨c, hc, hr₂⟩ := expect_sound hclose
    exact ⟨_, .list ho hs hc hb, by simp [hcs, hr₁, hr₂, hr]⟩
  · obtain ⟨s, hs, hcs⟩ := readName_sound hname
    exact ⟨_, .name hs hb, by simp [hcs, hr]⟩
termination_by cs.length

theorem TypeText.reads {t : String} (h : TypeText s t) (hr : Ends ['!'] rest) :
    Reads (readType (s ++ rest)) t rest := by
  rw [reads_readType_iff]
  induction h generalizing rest with
  | @name s b n bang hn hb =>
    rw [List.append_assoc]
    refine ⟨n, b ++ rest, hb.step hr n, .inr ⟨hn.eat?_eq_none (by decide) _, ?_⟩⟩
    exact hn.reads (hb.ends List.not_mem_nil (hr.mono (List.nil_subset _)))
  | @list o s c b t bang ho h hc hb ih =>
    have hassoc : o ++ (s ++ (c ++ b)) ++ rest = o ++ (s ++ (c ++ (b ++ rest))) := by simp
    obtain ⟨h₁, hopen⟩ := ho.eat?_eq (by decide) (s ++ (c ++ (b ++ rest)))
    obtain ⟨h₂, hclose⟩ := hc.expect_eq (by decide) (b ++ rest)
    have hitem := reads_readType_iff.2 (ih (hc.ends (by decide) ['!'] (b ++ rest) (by decide)))
    rw [hassoc]
    exact ⟨_, b ++ rest, hb.step hr _, .inl ⟨_, h₁, t, _, h₂, hopen, hitem, hclose, rfl⟩⟩

/-! ## Values -/

theorem merges_ofList (given : List (String × Value)) : Merges given (OrderedMap.ofList given) :=
  ⟨OrderedMap.keys_ofList given, OrderedMap.find?_ofList given⟩

theorem Merges.eq_ofList {given fields : List (String × Value)} (h : Merges given fields) :
    fields = OrderedMap.ofList given := by
  refine OrderedMap.eq_of_find? (h.keys.trans (OrderedMap.keys_ofList given).symm) ?_ fun k =>
    (h.find? k).trans (OrderedMap.find?_ofList given k).symm
  rw [h.keys]
  exact nodup_eraseDups _

theorem not_reads_readValue_nil {v : Value} (hs : skipBlank cs = []) :
    ¬ Reads (readValue cs) v rest := by
  rw [readValue]
  split
  · exact not_reads_error
  · rename_i he
    cases hs.symm.trans he

theorem reads_readValue_iff {v : Value} {r : List Char} (hs : skipBlank cs = x :: r) :
    Reads (readValue cs) v rest ↔
      if x = '[' then
        (∃ h, eat? ']' r = some ⟨rest, h⟩ ∧ v = .list []) ∨
          ∃ items, eat? ']' r = none ∧ Reads (readItems r) items rest ∧ v = .list items
      else if x = '{' then
        (∃ h, eat? '}' r = some ⟨rest, h⟩ ∧ v = .object []) ∨
          ∃ fields, eat? '}' r = none ∧ Reads (readFields r) fields rest ∧ v = .ofFields fields
      else Reads (readScalar cs x r hs) v rest := by
  rw [readValue]
  split
  · rename_i he
    cases hs.symm.trans he
  · rename_i he
    cases hs.symm.trans he
    by_cases hl : x = '['
    · rw [if_pos hl, if_pos hl]
      cases he : eat? ']' r with
      | none =>
        constructor
        · intro h
          obtain ⟨⟨items, r', hr'⟩, hi, h⟩ := reads_bind.1 h
          obtain ⟨rfl, rfl⟩ := reads_pure.1 h
          exact .inr ⟨items, rfl, ⟨hr', hi⟩, rfl⟩
        · rintro (⟨_, h, -⟩ | ⟨items, -, ⟨hr', hi⟩, rfl⟩)
          · cases h
          · exact reads_bind.2 ⟨_, hi, reads_pure.2 ⟨rfl, rfl⟩⟩
      | some r' =>
        constructor
        · intro h
          obtain ⟨rfl, rfl⟩ := reads_ok.1 h
          exact .inl ⟨r'.2, rfl, rfl⟩
        · rintro (⟨_, h, rfl⟩ | ⟨_, h, -⟩)
          · cases h
            exact reads_ok.2 ⟨rfl, rfl⟩
          · cases h
    by_cases ho : x = '{'
    · rw [if_neg hl, if_neg hl, if_pos ho, if_pos ho]
      cases he : eat? '}' r with
      | none =>
        constructor
        · intro h
          obtain ⟨⟨fields, r', hr'⟩, hi, h⟩ := reads_bind.1 h
          obtain ⟨rfl, rfl⟩ := reads_pure.1 h
          exact .inr ⟨fields, rfl, ⟨hr', hi⟩, rfl⟩
        · rintro (⟨_, h, -⟩ | ⟨fields, -, ⟨hr', hi⟩, rfl⟩)
          · cases h
          · exact reads_bind.2 ⟨_, hi, reads_pure.2 ⟨rfl, rfl⟩⟩
      | some r' =>
        constructor
        · intro h
          obtain ⟨rfl, rfl⟩ := reads_ok.1 h
          exact .inl ⟨r'.2, rfl, rfl⟩
        · rintro (⟨_, h, rfl⟩ | ⟨_, h, -⟩)
          · cases h
            exact reads_ok.2 ⟨rfl, rfl⟩
          · cases h
    · rw [if_neg hl, if_neg hl, if_neg ho, if_neg ho]

mutual

theorem readValue_sound {cs rest : List Char} {v : Value} (h : Reads (readValue cs) v rest) :
    ∃ s, ValueText s v ∧ cs = s ++ rest := by
  cases hs : skipBlank cs with
  | nil => exact absurd h (not_reads_readValue_nil hs)
  | cons c r =>
    have hlt := length_lt_of_skipBlank hs
    rw [reads_readValue_iff hs] at h
    split at h
    · rename_i hc
      subst hc
      obtain ⟨o, ho, hcs⟩ := exists_mark hs
      obtain ⟨_, he, rfl⟩ | ⟨items, -, hi, rfl⟩ := h
      · obtain ⟨m, hm, hr⟩ := eat?_sound he
        exact ⟨_, .list ho .nil hm, by simp [hcs, hr]⟩
      · obtain ⟨s, m, hs, hm, hr⟩ := readItems_sound hi
        exact ⟨_, .list ho (.some hs) hm, by simp [hcs, hr]⟩
    split at h
    · rename_i hc
      subst hc
      obtain ⟨o, ho, hcs⟩ := exists_mark hs
      obtain ⟨_, he, rfl⟩ | ⟨fields, -, hf, rfl⟩ := h
      · obtain ⟨m, hm, hr⟩ := eat?_sound he
        exact ⟨_, .object ho .nil hm (merges_ofList []), by simp [hcs, hr]⟩
      · obtain ⟨s, m, hs, hm, hr⟩ := readFields_sound hf
        exact ⟨_, .object ho (.some hs) hm (merges_ofList fields), by simp [hcs, hr]⟩
    · exact readScalar_sound h
termination_by (cs.length, 0)

theorem readItems_sound {cs rest : List Char} {items : List Value}
    (h : Reads (readItems cs) items rest) :
    ∃ s m, Separated ValueText s items ∧ Mark ']' m ∧ cs = s ++ (m ++ rest) := by
  rw [readItems] at h
  obtain ⟨⟨v, r₁, h₁⟩, hv, h⟩ := reads_bind.1 h
  obtain ⟨s, hs, hcs⟩ := readValue_sound ⟨h₁, hv⟩
  dsimp only at h
  split at h
  · rename_i r₂ h₂ he
    obtain ⟨m, hm, hr₁⟩ := eat?_sound he
    obtain ⟨⟨vs, r₃, h₃⟩, hvs, h⟩ := reads_bind.1 h
    obtain ⟨rfl, rfl⟩ := reads_pure.1 h
    have hlt : r₂.length < cs.length := Nat.lt_trans h₂ h₁
    obtain ⟨t, c, ht, hc, hr₂⟩ := readItems_sound ⟨h₃, hvs⟩
    exact ⟨_, c, .cons hs hm ht, hc, by simp [hcs, hr₁, hr₂]⟩
  · obtain ⟨⟨r₂, h₂⟩, he, h⟩ := reads_bind.1 h
    obtain ⟨rfl, rfl⟩ := reads_pure.1 h
    obtain ⟨c, hc, hr₁⟩ := expect_sound he
    exact ⟨s, c, .one hs, hc, by simp [hcs, hr₁]⟩
termination_by (cs.length, 1)

theorem readFields_sound {cs rest : List Char} {fields : List (String × Value)}
    (h : Reads (readFields cs) fields rest) :
    ∃ s m, Separated (Keyed ValueText) s fields ∧ Mark '}' m ∧ cs = s ++ (m ++ rest) := by
  rw [readFields] at h
  obtain ⟨⟨key, r₁, h₁⟩, hk, h⟩ := reads_bind.1 h
  obtain ⟨k, hk, hcs⟩ := readName_sound ⟨h₁, hk⟩
  obtain ⟨⟨r₂, h₂⟩, hcolon, h⟩ := reads_bind.1 h
  obtain ⟨colon, hcolon, hr₁⟩ := expect_sound hcolon
  obtain ⟨⟨v, r₃, h₃⟩, hv, h⟩ := reads_bind.1 h
  have hlt : r₂.length < cs.length := Nat.lt_trans h₂ h₁
  obtain ⟨s, hs, hr₂⟩ := readValue_sound ⟨h₃, hv⟩
  dsimp only at h
  split at h
  · rename_i r₄ h₄ he
    obtain ⟨m, hm, hr₃⟩ := eat?_sound he
    obtain ⟨⟨fs, r₅, h₅⟩, hfs, h⟩ := reads_bind.1 h
    obtain ⟨rfl, rfl⟩ := reads_pure.1 h
    have hlt' : r₄.length < cs.length := by omega
    obtain ⟨t, c, ht, hc, hr₄⟩ := readFields_sound ⟨h₅, hfs⟩
    exact ⟨_, c, .cons (.mk hk hcolon hs) hm ht, hc, by simp [hcs, hr₁, hr₂, hr₃, hr₄]⟩
  · obtain ⟨⟨r₄, h₄⟩, he, h⟩ := reads_bind.1 h
    obtain ⟨rfl, rfl⟩ := reads_pure.1 h
    obtain ⟨c, hc, hr₃⟩ := expect_sound he
    exact ⟨_, c, .one (.mk hk hcolon hs), hc, by simp [hcs, hr₁, hr₂, hr₃]⟩
termination_by (cs.length, 1)

end

/-- What a value starts with. -/
def startsValue (c : Char) : Bool :=
  c = '-' || c.isDigit || isNameStart c || c = '"' || c = '[' || c = '{'

theorem ValueText.eat?_eq_none {v : Value} (h : ValueText s v) (hx : startsValue x = false)
    (rest : List Char) : eat? x (s ++ rest) = none := by
  simp only [startsValue, Bool.or_eq_false_iff, decide_eq_false_iff_not] at hx
  cases h with
  | @number w t v hw h =>
    obtain ⟨c, run, rfl, hc⟩ := h.head
    refine eat?_eq_none_of ?_
    rw [List.append_assoc, hw.skipBlank_append, List.cons_append,
      skipBlank_cons (isBlank_of_startsNumber hc)]
    rintro _ ⟨⟩ rfl
    simp [hx] at hc
  | wordTrue h => exact h.eat?_eq_none hx.1.1.1.2 rest
  | wordFalse h => exact h.eat?_eq_none hx.1.1.1.2 rest
  | wordNull h => exact h.eat?_eq_none hx.1.1.1.2 rest
  | enum h => exact h.eat?_eq_none hx.1.1.1.2 rest
  | string hq =>
    rw [List.append_assoc]
    exact hq.eat?_eq_none (by decide) (Ne.symm hx.1.1.2) _
  | list ho =>
    rw [List.append_assoc]
    exact ho.eat?_eq_none (by decide) (Ne.symm hx.1.2) _
  | object ho =>
    rw [List.append_assoc]
    exact ho.eat?_eq_none (by decide) (Ne.symm hx.2) _

theorem Keyed.eat?_eq_none {P : List Char → α → Prop} {e : String × α} (h : Keyed P s e)
    (hx : isNameStart x = false) (rest : List Char) : eat? x (s ++ rest) = none := by
  obtain ⟨hk, -, -⟩ := h
  rw [List.append_assoc]
  exact hk.eat?_eq_none hx _

theorem Separated.eat?_eq_none {P : List Char → α → Prop} {as : List α} (h : Separated P s as)
    (hP : ∀ {s a}, P s a → ∀ rest, eat? x (s ++ rest) = none) (rest : List Char) :
    eat? x (s ++ rest) = none := by
  cases h with
  | one h => exact hP h rest
  | cons h =>
    rw [List.append_assoc]
    exact hP h _

theorem Keyed.reads_key {P : List Char → α → Prop} {key : String} {a : α} (h : Keyed P s (key, a))
    (rest : List Char) : ∃ t r, P t a ∧ t.length < s.length ∧ Reads (readName (s ++ rest)) key r ∧
      ∃ hr, expect ':' r = .ok ⟨t ++ rest, hr⟩ := by
  obtain @⟨k, m, t, key, a, hk, hm, h⟩ := h
  have hassoc : k ++ (m ++ t) ++ rest = k ++ (m ++ (t ++ rest)) := by simp
  have hlt : t.length < (k ++ (m ++ t)).length := by
    have := hm.length_pos
    simp only [List.length_append]
    omega
  rw [hassoc]
  exact ⟨t, _, h, hlt, hk.reads (hm.ends (by decide) [] _ List.not_mem_nil),
    hm.expect_eq (by decide) _⟩

/-- Every value with a text shorter than `n` is read, whatever follows it. -/
def ReadsBelow (n : Nat) : Prop :=
  ∀ {s rest marks : List Char} {v : Value}, s.length < n → ValueText s v → Ends marks rest →
    Reads (readValue (s ++ rest)) v rest

section Members

variable {n : Nat} {m : List Char} (hn : ReadsBelow n)
include hn

theorem Separated.reads_items {items : List Value} (h : Separated ValueText s items)
    (hs : s.length < n) (hm : Mark ']' m) : Reads (readItems (s ++ (m ++ rest))) items rest := by
  induction h with
  | one h =>
    obtain ⟨h₁, hv⟩ := hn hs h (hm.ends (by decide) [] rest List.not_mem_nil)
    obtain ⟨h₂, hclose⟩ := hm.expect_eq (by decide) rest
    rw [readItems]
    refine reads_bind.2 ⟨_, hv, ?_⟩
    dsimp only
    rw [hm.eat?_eq_none (by decide) (by decide)]
    exact reads_bind.2 ⟨_, hclose, reads_pure.2 ⟨rfl, rfl⟩⟩
  | @cons s c t v vs h hc ht ih =>
    simp only [List.length_append] at hs
    obtain ⟨h₁, hv⟩ := hn (by omega) h (hc.ends (by decide) [] (t ++ (m ++ rest)) List.not_mem_nil)
    obtain ⟨h₂, he⟩ := hc.eat?_eq (by decide) (t ++ (m ++ rest))
    obtain ⟨h₃, hvs⟩ := ih (by omega)
    rw [List.append_assoc, List.append_assoc, readItems]
    refine reads_bind.2 ⟨_, hv, ?_⟩
    dsimp only
    rw [he]
    exact reads_bind.2 ⟨_, hvs, reads_pure.2 ⟨rfl, rfl⟩⟩

theorem Separated.reads_fields {fields : List (String × Value)}
    (h : Separated (Keyed ValueText) s fields) (hs : s.length < n) (hm : Mark '}' m) :
    Reads (readFields (s ++ (m ++ rest))) fields rest := by
  induction h with
  | one h =>
    obtain ⟨t, r, h, hlt, ⟨h₁, hkey⟩, h₂, hcolon⟩ := h.reads_key (m ++ rest)
    obtain ⟨h₃, hv⟩ := hn (by omega) h (hm.ends (by decide) [] rest List.not_mem_nil)
    obtain ⟨h₄, hclose⟩ := hm.expect_eq (by decide) rest
    rw [readFields]
    refine reads_bind.2 ⟨_, hkey, reads_bind.2 ⟨_, hcolon, reads_bind.2 ⟨_, hv, ?_⟩⟩⟩
    dsimp only
    rw [hm.eat?_eq_none (by decide) (by decide)]
    exact reads_bind.2 ⟨_, hclose, reads_pure.2 ⟨rfl, rfl⟩⟩
  | @cons s c t e es h hc ht ih =>
    simp only [List.length_append] at hs
    obtain ⟨u, r, h, hlt, ⟨h₁, hkey⟩, h₂, hcolon⟩ := h.reads_key (c ++ (t ++ (m ++ rest)))
    obtain ⟨h₃, hv⟩ := hn (by omega) h (hc.ends (by decide) [] (t ++ (m ++ rest)) List.not_mem_nil)
    obtain ⟨h₄, he⟩ := hc.eat?_eq (by decide) (t ++ (m ++ rest))
    obtain ⟨h₅, hes⟩ := ih (by omega)
    rw [List.append_assoc, List.append_assoc, readFields]
    refine reads_bind.2 ⟨_, hkey, reads_bind.2 ⟨_, hcolon, reads_bind.2 ⟨_, hv, ?_⟩⟩⟩
    dsimp only
    rw [he]
    exact reads_bind.2 ⟨_, hes, reads_pure.2 ⟨rfl, rfl⟩⟩

end Members

theorem reads_readValue_scalar {v : Value} {r : List Char} (hs : skipBlank cs = x :: r)
    (hl : x ≠ '[') (ho : x ≠ '{') (h : Reads (readScalar cs x r hs) v rest) :
    Reads (readValue cs) v rest := by
  rw [reads_readValue_iff hs, if_neg hl, if_neg ho]
  exact h

theorem reads_readValue_word {n : String} (h : NameText s n) (hr : Ends marks rest) :
    Reads (readValue (s ++ rest)) (wordValue n) rest := by
  obtain ⟨c, t, hs, hc, -⟩ := h.skipBlank_eq rest
  refine reads_readValue_scalar hs ?_ ?_ (reads_readScalar_word hs hc (h.reads hr))
  · rintro rfl
    cases hc
  · rintro rfl
    cases hc

theorem NumberText.reads_readValue {w t : List Char} {v : Value} (h : NumberText t v) (hw : Blanks w)
    (hr : Ends marks rest) : Reads (readValue (w ++ (t ++ rest))) v rest := by
  obtain ⟨c, run, float, rfl, hc, hrun, hv⟩ := h.reads hr
  have hs : skipBlank (w ++ (c :: run ++ rest)) = c :: (run ++ rest) := by
    rw [hw.skipBlank_append]
    exact skipBlank_cons (isBlank_of_startsNumber hc) _
  refine reads_readValue_scalar hs ?_ ?_ (reads_readScalar_number hs hc hrun hv)
  · rintro rfl
    cases hc
  · rintro rfl
    cases hc

theorem readsBelow (n : Nat) : ReadsBelow n := by
  -- the items of a list and the fields of an object have shorter texts than the value
  induction n with
  | zero => exact fun hs => absurd hs (Nat.not_lt_zero _)
  | succ n ih =>
    intro s rest marks v hs h hr
    cases h with
    | @number w t v hw h =>
      rw [List.append_assoc]
      exact h.reads_readValue hw hr
    | wordTrue h => exact reads_readValue_word h hr
    | wordFalse h => exact reads_readValue_word h hr
    | wordNull h => exact reads_readValue_word h hr
    | @enum _ n h hn =>
      have hword : wordValue n = .enum n := by
        simp only [List.mem_cons, not_or] at hn
        simp [wordValue, hn]
      exact hword ▸ reads_readValue_word h hr
    | @string q s body hq h =>
      have hassoc : q ++ (s ++ ['"']) ++ rest = q ++ (s ++ '"' :: rest) := by simp
      have hs := hq.skipBlank_eq (by decide) (s ++ '"' :: rest)
      rw [hassoc]
      exact reads_readValue_scalar hs (by decide) (by decide)
        (reads_readScalar_string hs rfl (h.reads rest))
    | @list o s c items ho h hc =>
      have ho' := ho.length_pos
      simp only [List.length_append] at hs
      rw [List.append_assoc, List.append_assoc,
        reads_readValue_iff (ho.skipBlank_eq (by decide) _), if_pos rfl]
      cases h with
      | nil =>
        obtain ⟨h₁, he⟩ := hc.eat?_eq (by decide) rest
        exact .inl ⟨h₁, he, rfl⟩
      | some h =>
        have hclose := h.eat?_eq_none (fun hv => hv.eat?_eq_none (x := ']') (by decide)) (c ++ rest)
        exact .inr ⟨items, hclose, h.reads_items ih (by omega) hc, rfl⟩
    | @object o s c given fields ho h hc hm =>
      have ho' := ho.length_pos
      simp only [List.length_append] at hs
      rw [List.append_assoc, List.append_assoc, hm.eq_ofList,
        reads_readValue_iff (ho.skipBlank_eq (by decide) _), if_neg (by decide), if_pos rfl]
      cases h with
      | nil =>
        obtain ⟨h₁, he⟩ := hc.eat?_eq (by decide) rest
        exact .inl ⟨h₁, he, rfl⟩
      | some h =>
        have hclose := h.eat?_eq_none (fun hf => hf.eat?_eq_none (x := '}') (by decide)) (c ++ rest)
        exact .inr ⟨given, hclose, h.reads_fields ih (by omega) hc, rfl⟩

theorem ValueText.reads {v : Value} (h : ValueText s v) (hr : Ends marks rest) :
    Reads (readValue (s ++ rest)) v rest :=
  readsBelow (s.length + 1) (Nat.lt_succ_self _) h hr

end QueryShape.Annotation
