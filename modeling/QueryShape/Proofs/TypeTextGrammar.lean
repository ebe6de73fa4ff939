import Mathlib
import QueryShape.Catalog.TypeText
import QueryShape.Proofs.AnnotationToken

/-!
# The grammar of types in catalogs

`Derives s t`: the text `s` is a type, and `t` is what it denotes.

    type := blanks bare blanks ['!' | '?'] blanks
    bare := name | '[' type ']'

The reader works from the ends of a text towards its middle, so what it takes for the brackets of a list
are the first and the last character that are left. `read?_iff_derives` says that this comes to the same.
-/

set_option autoImplicit false

namespace QueryShape.TypeText

open Text
open Annotation (Blanks isBlank_of_isNameChar)

/-! ## The grammar -/

/-- `Suffix m t t'`: after the type `t` stands `m`, at most one mark, which makes it the type `t'`. -/
inductive Suffix : List Char → TypeText → TypeText → Prop where
  | absent {t : TypeText} : Suffix [] t t
  | bang {t : TypeText} : Suffix ['!'] t t
  | question {t : TypeText} : Suffix ['?'] t (.optional t)

mutual

/-- A type. -/
inductive Derives : List Char → TypeText → Prop where
  | mk {w₁ s w₂ m w₃ : List Char} {t t' : TypeText} (h₁ : Blanks w₁) (hs : DerivesBare s t)
      (h₂ : Blanks w₂) (hm : Suffix m t t') (h₃ : Blanks w₃) :
      Derives (w₁ ++ (s ++ (w₂ ++ (m ++ w₃)))) t'

/-- A type without a mark after it. -/
inductive DerivesBare : List Char → TypeText → Prop where
  | name {s : List Char} (h : isName s = true) : DerivesBare s (.named (String.ofList s))
  | list {s : List Char} {t : TypeText} (h : Derives s t) :
      DerivesBare ('[' :: (s ++ [']'])) (.list t)

end

/-- Every bracket that is closed was opened before, and every one that is opened is closed. -/
structure Balanced (cs : List Char) : Prop where
  opened : ∀ p, p <+: cs → p.count ']' ≤ p.count '['
  closed : cs.count ']' = cs.count '['

def isSuffixMark (c : Char) : Bool := c == '!' || c == '?'

/-- The characters that are not blank. -/
def visible (cs : List Char) : List Char := cs.filter (!isBlank ·)

/-- No two marks follow each other, also not with blanks between them. -/
def SingleMarks (cs : List Char) : Prop :=
  (visible cs).IsChain fun c d => ¬ (isSuffixMark c = true ∧ isSuffixMark d = true)

/-! ## Texts without blanks at their ends -/

/-- Neither the first nor the last character is blank. -/
structure Tight (cs : List Char) : Prop where
  head : ∀ c ∈ cs.head?, isBlank c = false
  last : ∀ c ∈ cs.getLast?, isBlank c = false

theorem dropWhile_eq_self {cs : List Char} (h : ∀ c ∈ cs.head?, isBlank c = false) :
    cs.dropWhile isBlank = cs := by
  cases cs with
  | nil => rfl
  | cons c cs => exact List.dropWhile_cons_of_neg (by simp [h c rfl])

theorem trim_eq_of_tight {w cs w' : List Char} (hw : Blanks w) (hcs : Tight cs) (hw' : Blanks w')
    (hne : cs ≠ []) : trim (w ++ (cs ++ w')) = cs := by
  have hhead : ∀ c ∈ (cs ++ w').head?, isBlank c = false := by
    rw [List.head?_append_of_ne_nil cs hne]
    exact hcs.head
  have hlast : ∀ c ∈ cs.reverse.head?, isBlank c = false := by
    rw [List.head?_reverse]
    exact hcs.last
  have hblanks : ∀ c ∈ w'.reverse, isBlank c = true := fun c hc => hw' c (List.mem_reverse.1 hc)
  calc trim (w ++ (cs ++ w'))
      = ((cs ++ w').reverse.dropWhile isBlank).reverse := by
        rw [trim, List.dropWhile_append_of_pos hw, dropWhile_eq_self hhead]
    _ = (cs.reverse.dropWhile isBlank).reverse := by
        rw [List.reverse_append, List.dropWhile_append_of_pos hblanks]
    _ = cs := by rw [dropWhile_eq_self hlast, List.reverse_reverse]

theorem exists_trim (cs : List Char) :
    ∃ w w', Blanks w ∧ Blanks w' ∧ cs = w ++ (trim cs ++ w') := by
  obtain ⟨w, hw, hcs⟩ := Annotation.exists_blanks cs
  obtain ⟨w', hw', hrest⟩ := Annotation.exists_blanks (cs.dropWhile isBlank).reverse
  refine ⟨w, w'.reverse, hw, fun c hc => hw' c (List.mem_reverse.1 hc), ?_⟩
  have hback : cs.dropWhile isBlank = trim cs ++ w'.reverse := by
    rw [← List.reverse_reverse (cs.dropWhile isBlank), hrest, List.reverse_append]
    rfl
  rw [← hback]
  exact hcs

/-! ## The ends of a type -/

/-- A character of a class without the marks is none of them. -/
theorem unmarked_of {p : Char → Bool} {c : Char} (h : p c = true) (hbang : p '!' = false)
    (hquestion : p '?' = false) : isSuffixMark c = false := by
  rw [Bool.eq_false_iff]
  intro hm
  rcases Bool.or_eq_true_iff.1 hm with hm | hm
  · rw [beq_iff_eq.1 hm, hbang] at h
    cases h
  · rw [beq_iff_eq.1 hm, hquestion] at h
    cases h

/-- A bare type starts and ends with characters that are neither blank nor marks. -/
structure Closed (s : List Char) : Prop extends Tight s where
  ne_nil : s ≠ []
  unmarked : ∀ c ∈ s.getLast?, isSuffixMark c = false

theorem DerivesBare.closed {s : List Char} {t : TypeText} (h : DerivesBare s t) : Closed s := by
  cases h with
  | name h =>
    have hchar := isNameChar_of_isName h
    refine ⟨⟨fun c hc => ?_, fun c hc => ?_⟩, ?_, fun c hc => ?_⟩
    · exact isBlank_of_isNameChar (hchar c (List.mem_of_mem_head? hc))
    · exact isBlank_of_isNameChar (hchar c (List.mem_of_mem_getLast? hc))
    · rintro rfl
      cases h
    · exact unmarked_of (hchar c (List.mem_of_mem_getLast? hc)) rfl rfl
  | list h =>
    rw [← List.cons_append]
    refine ⟨⟨?_, ?_⟩, by simp, ?_⟩
    · rintro _ ⟨⟩
      rfl
    · rw [List.getLast?_concat]
      rintro _ ⟨⟩
      rfl
    · rw [List.getLast?_concat]
      rintro _ ⟨⟩
      rfl

/-! ## Reading -/

theorem readBare?_of_name {cs s : List Char} (hcs : trim cs = s) (h : isName s = true) :
    readBare? cs = some (.named (String.ofList s)) := by
  rw [readBare?]
  split
  · rename_i inner htrim
    rw [← hcs, htrim] at h
    cases h
  · rw [hcs, if_pos h]

theorem readBare?_of_list {cs s : List Char} (hcs : trim cs = '[' :: (s ++ [']'])) :
    readBare? cs = (readChars? s).map .list := by
  rw [readBare?]
  split
  · rename_i inner htrim
    obtain rfl : s ++ [']'] = inner := List.cons_injective (hcs.symm.trans htrim)
    rw [if_pos List.getLast?_concat, List.dropLast_concat]
  · rename_i hne
    exact absurd hcs (hne _)

theorem Closed.unmarked_append {s w : List Char} (hs : Closed s) (hw : Blanks w) :
    ∀ c ∈ (s ++ w).getLast?, isSuffixMark c = false := by
  intro c hc
  rw [List.getLast?_append] at hc
  cases hl : w.getLast? with
  | none =>
    rw [hl, Option.none_or] at hc
    exact hs.unmarked c hc
  | some d =>
    rw [hl, Option.some_or] at hc
    cases hc
    exact unmarked_of (hw c (List.mem_of_mem_getLast? hl)) rfl rfl

theorem Suffix.readChars?_eq {cs s m : List Char} {t t' : TypeText} (hm : Suffix m t t')
    (hcs : trim cs = s ++ m) (hs : ∀ c ∈ s.getLast?, isSuffixMark c = false)
    (hbare : readBare? s = some t) : readChars? cs = some t' := by
  rw [readChars?, hcs]
  cases hm with
  | absent =>
    have hne : ∀ c, isSuffixMark c = true → ¬ s.getLast? = some c := by
      intro c hc hl
      rw [hs c hl] at hc
      cases hc
    rw [List.append_nil, if_neg (hne '?' rfl), if_neg (hne '!' rfl), hbare]
  | bang =>
    rw [List.getLast?_concat, if_neg (by decide), if_pos rfl, List.dropLast_concat, hbare]
  | question => rw [List.getLast?_concat, if_pos rfl, List.dropLast_concat, hbare, Option.map_some]

/-- Trimming leaves a bare type and its mark; blanks stay before the mark only. -/
theorem Suffix.trim_eq {w₁ s w₂ m w₃ : List Char} {t t' : TypeText} (hm : Suffix m t t')
    (h₁ : Blanks w₁) (hs : Closed s) (h₂ : Blanks w₂) (h₃ : Blanks w₃) :
    ∃ v, Blanks v ∧ trim (w₁ ++ (s ++ (w₂ ++ (m ++ w₃)))) = s ++ v ++ m := by
  have hmarked : ∀ c, isBlank c = false →
      trim (w₁ ++ (s ++ (w₂ ++ ([c] ++ w₃)))) = s ++ w₂ ++ [c] := by
    intro c hc
    have hassoc : w₁ ++ (s ++ (w₂ ++ ([c] ++ w₃))) = w₁ ++ ((s ++ w₂ ++ [c]) ++ w₃) := by simp
    rw [hassoc]
    refine trim_eq_of_tight h₁ ⟨?_, ?_⟩ h₃ (by simp)
    · rw [List.append_assoc, List.head?_append_of_ne_nil s hs.ne_nil]
      exact hs.head
    · rw [List.getLast?_concat]
      rintro _ ⟨⟩
      exact hc
  cases hm with
  | absent =>
    have hblanks : Blanks (w₂ ++ ([] ++ w₃)) := by
      intro c hc
      rw [List.nil_append, List.mem_append] at hc
      exact hc.elim (h₂ c) (h₃ c)
    refine ⟨[], by simp [Blanks], ?_⟩
    rw [List.append_nil, List.append_nil]
    exact trim_eq_of_tight h₁ hs.toTight hblanks hs.ne_nil
  | bang => exact ⟨w₂, h₂, hmarked '!' rfl⟩
  | question => exact ⟨w₂, h₂, hmarked '?' rfl⟩

mutual

theorem Derives.readChars?_eq {s : List Char} {t : TypeText} : Derives s t → readChars? s = some t
  | .mk h₁ hs h₂ hm h₃ => by
    have hclosed := hs.closed
    obtain ⟨v, hv, htrim⟩ := hm.trim_eq h₁ hclosed h₂ h₃
    have hbare := hs.readBare?_eq (trim_eq_of_tight (w := []) (by simp [Blanks]) hclosed.toTight hv
      hclosed.ne_nil)
    exact hm.readChars?_eq htrim (hclosed.unmarked_append hv) hbare

theorem DerivesBare.readBare?_eq {cs s : List Char} {t : TypeText} (hcs : trim cs = s) :
    DerivesBare s t → readBare? cs = some t
  | .name h => readBare?_of_name hcs h
  | .list h => by rw [readBare?_of_list hcs, h.readChars?_eq, Option.map_some]

end

theorem Suffix.derives {w v s v' m w' : List Char} {t t' : TypeText} (hm : Suffix m t t')
    (hw : Blanks w) (hv : Blanks v) (hs : DerivesBare s t) (hv' : Blanks v') (hw' : Blanks w') :
    Derives (w ++ (v ++ (s ++ v') ++ m ++ w')) t' := by
  have hassoc : w ++ (v ++ (s ++ v') ++ m ++ w') = w ++ v ++ (s ++ (v' ++ (m ++ w'))) := by simp
  rw [hassoc]
  exact .mk (fun c hc => (List.mem_append.1 hc).elim (hw c) (hv c)) hs hv' hm hw'

mutual

theorem derives_of_readChars? {cs : List Char} {t : TypeText} (h : readChars? cs = some t) :
    Derives cs t := by
  have hlen := length_trim_le cs
  obtain ⟨w, w', hw, hw', hcs⟩ := exists_trim cs
  rw [readChars?] at h
  split at h
  · rename_i hlast
    obtain ⟨t', ht', rfl⟩ := Option.map_eq_some_iff.1 h
    obtain ⟨v, s, v', hv, hs, hv', hbare⟩ := derives_of_readBare? ht'
    rw [hcs, ← List.dropLast_append_getLast? _ hlast, hbare]
    exact Suffix.question.derives hw hv hs hv' hw'
  split at h
  · rename_i hlast
    obtain ⟨v, s, v', hv, hs, hv', hbare⟩ := derives_of_readBare? h
    rw [hcs, ← List.dropLast_append_getLast? _ hlast, hbare]
    exact Suffix.bang.derives hw hv hs hv' hw'
  · obtain ⟨v, s, v', hv, hs, hv', hbare⟩ := derives_of_readBare? h
    rw [hcs, hbare, ← List.append_nil (v ++ (s ++ v'))]
    exact Suffix.absent.derives hw hv hs hv' hw'
termination_by 2 * cs.length + 1

theorem derives_of_readBare? {cs : List Char} {t : TypeText} (h : readBare? cs = some t) :
    ∃ w s w', Blanks w ∧ DerivesBare s t ∧ Blanks w' ∧ cs = w ++ (s ++ w') := by
  obtain ⟨w, w', hw, hw', hcs⟩ := exists_trim cs
  rw [readBare?] at h
  split at h
  · rename_i inner htrim
    have := length_lt_of_trim htrim
    split at h
    · rename_i hlast
      obtain ⟨t', ht', rfl⟩ := Option.map_eq_some_iff.1 h
      refine ⟨w, trim cs, w', hw, ?_, hw', hcs⟩
      rw [htrim, ← List.dropLast_append_getLast? _ hlast]
      exact .list (derives_of_readChars? ht')
    · cases h
  · split at h
    · rename_i hname
      cases h
      exact ⟨w, trim cs, w', hw, .name hname, hw', hcs⟩
    · cases h
termination_by 2 * cs.length

end

/-! ## Brackets and marks -/

theorem count_eq_zero_of_isName {s : List Char} (h : isName s = true) {x : Char}
    (hx : isNameChar x = false) : s.count x = 0 := by
  rw [List.count_eq_zero]
  intro hmem
  rw [isNameChar_of_isName h x hmem] at hx
  cases hx

theorem balanced_of_count_eq_zero {cs : List Char} (ho : cs.count '[' = 0) (hc : cs.count ']' = 0) :
    Balanced cs := by
  refine ⟨fun p hp => ?_, hc.trans ho.symm⟩
  have := hp.sublist.count_le ']'
  omega

theorem Balanced.append {cs ds : List Char} (h : Balanced cs) (h' : Balanced ds) :
    Balanced (cs ++ ds) := by
  refine ⟨fun p hp => ?_, by rw [List.count_append, List.count_append, h.closed, h'.closed]⟩
  rcases List.prefix_or_prefix_of_prefix hp (List.prefix_append cs ds) with hp' | ⟨q, rfl⟩
  · exact h.opened p hp'
  · have := h'.opened q ((List.prefix_append_right_inj cs).1 hp)
    rw [List.count_append, List.count_append, h.closed]
    omega

theorem Balanced.bracketed {cs : List Char} (h : Balanced cs) : Balanced ('[' :: (cs ++ [']'])) := by
  have hclosed := h.closed
  refine ⟨fun p hp => ?_, by simp [hclosed]⟩
  obtain rfl | ⟨q, rfl, hq⟩ := List.prefix_cons_iff.1 hp
  · exact Nat.le_refl _
  obtain rfl | hq := List.prefix_concat_iff.1 hq
  · simp [hclosed]
  · have hcount := h.opened q hq
    simp only [List.count_cons_self, List.count_cons_of_ne (show '[' ≠ ']' by decide)]
    omega

theorem balanced_of_blanks {w : List Char} (h : Blanks w) : Balanced w := by
  refine balanced_of_count_eq_zero (List.count_eq_zero.2 fun hx => ?_)
    (List.count_eq_zero.2 fun hx => ?_)
  · cases h _ hx
  · cases h _ hx

theorem Suffix.balanced {m : List Char} {t t' : TypeText} (h : Suffix m t t') : Balanced m := by
  cases h <;> exact balanced_of_count_eq_zero rfl rfl

mutual

theorem Derives.balanced {s : List Char} {t : TypeText} : Derives s t → Balanced s
  | .mk h₁ hs h₂ hm h₃ =>
    (balanced_of_blanks h₁).append (hs.balanced.append ((balanced_of_blanks h₂).append
      (hm.balanced.append (balanced_of_blanks h₃))))

theorem DerivesBare.balanced {s : List Char} {t : TypeText} : DerivesBare s t → Balanced s
  | .name h =>
    balanced_of_count_eq_zero (count_eq_zero_of_isName h rfl) (count_eq_zero_of_isName h rfl)
  | .list h => h.balanced.bracketed

end

@[simp]
theorem visible_append (cs ds : List Char) : visible (cs ++ ds) = visible cs ++ visible ds :=
  List.filter_append ..

theorem visible_of_blanks {w : List Char} (h : Blanks w) : visible w = [] :=
  List.filter_eq_nil_iff.2 fun c hc => by simp [h c hc]

theorem Closed.visible_getLast? {s : List Char} (h : Closed s) :
    ∀ c ∈ (visible s).getLast?, isSuffixMark c = false := by
  obtain ⟨s', l, rfl⟩ := (List.eq_nil_or_concat' s).resolve_left h.ne_nil
  have hlast := List.getLast?_concat (l := s') (a := l)
  have hl : visible [l] = [l] := by simp [visible, h.last l hlast]
  rw [visible_append, hl, List.getLast?_concat]
  rintro _ ⟨⟩
  exact h.unmarked l hlast

theorem SingleMarks.append {cs ds : List Char} (h : SingleMarks cs) (h' : SingleMarks ds)
    (hends : (∀ c ∈ (visible cs).getLast?, isSuffixMark c = false) ∨
      ∀ d ∈ (visible ds).head?, isSuffixMark d = false) : SingleMarks (cs ++ ds) := by
  unfold SingleMarks
  rw [visible_append, List.isChain_append]
  refine ⟨h, h', fun c hc d hd hm => ?_⟩
  rcases hends with hcs | hds
  · exact absurd hm.1 (by simp [hcs c hc])
  · exact absurd hm.2 (by simp [hds d hd])

theorem singleMarks_of_isName {s : List Char} (h : isName s = true) : SingleMarks s := by
  refine (List.pairwise_of_forall_mem_list fun c hc d _ hm => ?_).isChain
  have hn := isNameChar_of_isName h c (List.mem_of_mem_filter hc)
  rw [unmarked_of hn rfl rfl] at hm
  cases hm.1

theorem Suffix.singleMarks {m : List Char} {t t' : TypeText} (h : Suffix m t t') : SingleMarks m := by
  cases h with
  | absent => exact .nil
  | bang => exact .singleton _
  | question => exact .singleton _

theorem SingleMarks.bracketed {s : List Char} (h : SingleMarks s) :
    SingleMarks (['['] ++ (s ++ [']'])) := by
  refine .append (.singleton _) (h.append (.singleton _) (.inr ?_)) (.inl ?_)
  · rintro _ ⟨⟩
    rfl
  · rintro _ ⟨⟩
    rfl

mutual

theorem Derives.singleMarks {s : List Char} {t : TypeText} : Derives s t → SingleMarks s
  | .mk h₁ hs h₂ hm h₃ => by
    have hrest := hs.singleMarks.append hm.singleMarks (.inl hs.closed.visible_getLast?)
    unfold SingleMarks at *
    simpa [visible_of_blanks h₁, visible_of_blanks h₂, visible_of_blanks h₃] using hrest

theorem DerivesBare.singleMarks {s : List Char} {t : TypeText} : DerivesBare s t → SingleMarks s
  | .name h => singleMarks_of_isName h
  | .list h => h.singleMarks.bracketed

end

/-- Reading accepts exactly the types of the grammar and gives what they denote. Where brackets do not
match, or a mark follows another one, at whatever depth, a text is refused. -/
theorem read?_iff_derives (text : String) :
    (∀ t, read? text = some t ↔ Derives text.toList t) ∧
      (read? text = none ∨ Balanced text.toList ∧ SingleMarks text.toList) := by
  refine ⟨fun t => ⟨derives_of_readChars?, Derives.readChars?_eq⟩, ?_⟩
  cases h : read? text with
  | none => exact .inl rfl
  | some t =>
    have hd := derives_of_readChars? h
    exact .inr ⟨hd.balanced, hd.singleMarks⟩

end QueryShape.TypeText
