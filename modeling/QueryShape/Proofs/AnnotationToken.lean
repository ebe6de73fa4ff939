import QueryShape.Proofs.AnnotationGrammar

/-!
# Reading the tokens of an annotation

Each reader of a token takes exactly a text of the token (`…_sound`), and takes all of such a text from
whatever follows it (`….reads`), as long as the token cannot go on in what follows. `Ends` is that
condition: a name or a number ends before every blank and before every mark.
-/

set_option autoImplicit false

namespace QueryShape.Annotation

open Text

variable {α β : Type} {p : List Char → Prop} {a : α} {cs w rest : List Char} {x : Char}

/-! ## Answers -/

/-- The reader gives `a` and leaves `rest`. -/
def Reads (r : Except Stop (α × { rest : List Char // p rest })) (a : α) (rest : List Char) : Prop :=
  ∃ h, r = .ok (a, ⟨rest, h⟩)

@[simp]
theorem reads_ok {b : α} {r : List Char} {hr : p r} :
    Reads (.ok (b, ⟨r, hr⟩)) a rest ↔ b = a ∧ r = rest := by
  constructor
  · rintro ⟨h, he⟩
    cases he
    exact ⟨rfl, rfl⟩
  · rintro ⟨rfl, rfl⟩
    exact ⟨hr, rfl⟩

@[simp]
theorem reads_pure {b : α} {r : List Char} {hr : p r} :
    Reads (pure (b, ⟨r, hr⟩)) a rest ↔ b = a ∧ r = rest :=
  reads_ok

@[simp]
theorem not_reads_error {stop : Stop} :
    ¬ Reads (.error stop : Except Stop (α × { rest : List Char // p rest })) a rest := by
  rintro ⟨h, he⟩
  cases he

theorem bind_eq_ok {γ δ : Type} {r : Except Stop γ} {f : γ → Except Stop δ} {b : δ} :
    r >>= f = .ok b ↔ ∃ c, r = .ok c ∧ f c = .ok b := by
  cases r with
  | error stop => simp [bind, Except.bind]
  | ok c => simp [bind, Except.bind]

theorem reads_bind {γ : Type} {r : Except Stop γ}
    {f : γ → Except Stop (α × { rest : List Char // p rest })} :
    Reads (r >>= f) a rest ↔ ∃ c, r = .ok c ∧ Reads (f c) a rest := by
  constructor
  · rintro ⟨h, he⟩
    obtain ⟨c, hr, hf⟩ := bind_eq_ok.1 he
    exact ⟨c, hr, h, hf⟩
  · rintro ⟨c, hr, h, hf⟩
    exact ⟨h, bind_eq_ok.2 ⟨c, hr, hf⟩⟩

theorem reads_map {f : α → β} {r : Except Stop (α × { rest : List Char // p rest })} {b : β} :
    Reads (r.map fun (a, rest) => (f a, rest)) b rest ↔ ∃ a, Reads r a rest ∧ f a = b := by
  cases r with
  | error stop => simp [Except.map]
  | ok c =>
    obtain ⟨a, r, hr⟩ := c
    simp only [Except.map, reads_ok]
    constructor
    · rintro ⟨rfl, rfl⟩
      exact ⟨a, ⟨rfl, rfl⟩, rfl⟩
    · rintro ⟨_, ⟨rfl, rfl⟩, rfl⟩
      exact ⟨rfl, rfl⟩

/-! ## Blanks and marks -/

theorem exists_blanks (cs : List Char) : ∃ w, Blanks w ∧ cs = w ++ skipBlank cs :=
  ⟨cs.takeWhile isBlank, List.all_eq_true.1 List.all_takeWhile, List.takeWhile_append_dropWhile.symm⟩

theorem Blanks.skipBlank_append (h : Blanks w) (cs : List Char) :
    skipBlank (w ++ cs) = skipBlank cs :=
  List.dropWhile_append_of_pos h

theorem Blanks.skipBlank_eq_nil (h : Blanks w) : skipBlank w = [] := by
  simpa [skipBlank] using h.skipBlank_append []

theorem blanks_of_skipBlank (h : skipBlank cs = []) : Blanks cs := by
  obtain ⟨w, hw, hcs⟩ := exists_blanks cs
  rw [h, List.append_nil] at hcs
  exact hcs ▸ hw

theorem skipBlank_cons (h : isBlank x = false) (cs : List Char) : skipBlank (x :: cs) = x :: cs :=
  List.dropWhile_cons_of_neg (by simp [h])

/-- A character that is a token of its own. -/
def isMark (x : Char) : Bool := !isBlank x && !isNameChar x && !isNumberChar x

theorem isBlank_of_isMark (hx : isMark x = true) : isBlank x = false := by
  simp only [isMark, Bool.and_eq_true, Bool.not_eq_true'] at hx
  exact hx.1.1

theorem Mark.skipBlank_eq {m : List Char} (h : Mark x m) (hx : isBlank x = false) (rest : List Char) :
    skipBlank (m ++ rest) = x :: rest := by
  obtain ⟨hw⟩ := h
  rw [List.append_assoc, hw.skipBlank_append]
  exact skipBlank_cons hx rest

theorem Mark.length_pos {m : List Char} (h : Mark x m) : 0 < m.length := by
  obtain ⟨hw⟩ := h
  simp

theorem exists_mark (h : skipBlank cs = x :: rest) : ∃ m, Mark x m ∧ cs = m ++ rest := by
  obtain ⟨w, hw, hcs⟩ := exists_blanks cs
  exact ⟨w ++ [x], ⟨hw⟩, by rw [hcs, h, List.append_assoc, List.singleton_append]⟩

theorem eat?_eq_some {r : Shorter cs} (h : eat? x cs = some r) : skipBlank cs = x :: r.1 := by
  cases hs : skipBlank cs with
  | nil =>
    rw [eat?_of_nil hs] at h
    cases h
  | cons c rest =>
    rw [eat?_of_cons hs] at h
    split at h
    · rename_i hc
      cases h
      exact congrArg (· :: rest) hc
    · cases h

theorem eat?_eq_none_of (h : ∀ c ∈ (skipBlank cs).head?, c ≠ x) : eat? x cs = none := by
  cases hs : skipBlank cs with
  | nil => exact eat?_of_nil hs
  | cons c rest => rw [eat?_of_cons hs, if_neg (h c (by rw [hs]; rfl))]

theorem Mark.eat?_eq_none {m : List Char} (h : Mark x m) (hx : isBlank x = false) {y : Char}
    (hne : x ≠ y) (rest : List Char) : eat? y (m ++ rest) = none := by
  refine eat?_eq_none_of ?_
  rw [h.skipBlank_eq hx]
  rintro c ⟨⟩
  exact hne

theorem eat?_sound {h : rest.length < cs.length} (he : eat? x cs = some ⟨rest, h⟩) :
    ∃ m, Mark x m ∧ cs = m ++ rest :=
  exists_mark (eat?_eq_some he)

theorem Mark.eat?_eq {m : List Char} (h : Mark x m) (hx : isBlank x = false) (rest : List Char) :
    ∃ hr, eat? x (m ++ rest) = some ⟨rest, hr⟩ := by
  have hs := h.skipBlank_eq hx rest
  exact ⟨length_lt_of_skipBlank hs, (eat?_of_cons hs).trans (if_pos rfl)⟩

theorem expect_sound {h : rest.length < cs.length} (he : expect x cs = .ok ⟨rest, h⟩) :
    ∃ m, Mark x m ∧ cs = m ++ rest := by
  unfold expect at he
  split at he
  · rename_i r hr
    cases he
    exact eat?_sound hr
  · cases he

theorem Mark.expect_eq {m : List Char} (h : Mark x m) (hx : isBlank x = false) (rest : List Char) :
    ∃ hr, expect x (m ++ rest) = .ok ⟨rest, hr⟩ := by
  obtain ⟨hr, he⟩ := h.eat?_eq hx rest
  exact ⟨hr, by rw [expect, he]⟩

/-! ## Where a token ends -/

/-- No name and no number goes on in `rest`, and the next token is none of `marks`. -/
structure Ends (marks rest : List Char) : Prop where
  run : ∀ c ∈ rest.head?, isNameChar c = false ∧ isNumberChar c = false
  next : ∀ c ∈ (skipBlank rest).head?, c ∉ marks

theorem isAlpha_iff {c : Char} :
    c.isAlpha = true ↔ (65 ≤ c.toNat ∧ c.toNat ≤ 90) ∨ 97 ≤ c.toNat ∧ c.toNat ≤ 122 := by
  show (decide (65 ≤ c.val ∧ c.val ≤ 90) || decide (97 ≤ c.val) && decide (c.val ≤ 122)) = true ↔ _
  simp only [Bool.or_eq_true, Bool.and_eq_true, decide_eq_true_eq, UInt32.le_iff_toNat_le,
    UInt32.reduceToNat, Char.toNat]

theorem isDigit_iff {c : Char} : c.isDigit = true ↔ 48 ≤ c.toNat ∧ c.toNat ≤ 57 := by
  show (decide (48 ≤ c.val) && decide (c.val ≤ 57)) = true ↔ _
  simp only [Bool.and_eq_true, decide_eq_true_eq, UInt32.le_iff_toNat_le, UInt32.reduceToNat,
    Char.toNat]

theorem isAlphanum_of_isBlank {c : Char} (h : isBlank c = true) : c.isAlphanum = false := by
  rw [Bool.eq_false_iff]
  intro hn
  rw [Char.isAlphanum, Bool.or_eq_true, isAlpha_iff, isDigit_iff] at hn
  simp only [isBlank, Bool.or_eq_true, Bool.and_eq_true, decide_eq_true_eq, beq_iff_eq] at h
  omega

theorem run_of_isBlank {c : Char} (h : isBlank c = true) :
    isNameChar c = false ∧ isNumberChar c = false := by
  have hn := isAlphanum_of_isBlank h
  have hd : c.isDigit = false := by
    simp only [Char.isAlphanum, Bool.or_eq_false_iff] at hn
    exact hn.2
  have hne : ∀ x ∈ ['_', '+', '-', '.', 'e', 'E'], c ≠ x := by
    rintro x hx rfl
    simp only [List.mem_cons, List.not_mem_nil, or_false] at hx
    rcases hx with rfl | rfl | rfl | rfl | rfl | rfl <;> cases h
  simp_all [isNameChar, isNumberChar, isFloatMark]

theorem Blanks.ends (h : Blanks w) (marks : List Char) : Ends marks w := by
  refine ⟨fun c hc => run_of_isBlank (h c (List.mem_of_mem_head? hc)), ?_⟩
  rw [h.skipBlank_eq_nil]
  simp

theorem Mark.ends {m : List Char} (h : Mark x m) (hx : isMark x = true) (marks rest : List Char)
    (hm : x ∉ marks) : Ends marks (m ++ rest) := by
  refine ⟨?_, ?_⟩
  · obtain @⟨w, hw⟩ := h
    cases w with
    | nil =>
      simp only [isMark, Bool.and_eq_true, Bool.not_eq_true'] at hx
      rintro c ⟨⟩
      exact ⟨hx.1.2, hx.2⟩
    | cons c w =>
      rintro _ ⟨⟩
      exact run_of_isBlank (hw c List.mem_cons_self)
  · rw [h.skipBlank_eq (isBlank_of_isMark hx)]
    rintro c ⟨⟩
    exact hm

theorem Ends.mono {marks marks' : List Char} (h : Ends marks rest) (hs : marks' ⊆ marks) :
    Ends marks' rest :=
  ⟨h.run, fun c hc hm => h.next c hc (hs hm)⟩

theorem Ends.eat?_eq_none {marks : List Char} (h : Ends marks rest) (hx : x ∈ marks) :
    eat? x rest = none :=
  eat?_eq_none_of fun c hc he => h.next c hc (he ▸ hx)

/-! ## Names -/

theorem dropWhile_append_of_head {p : Char → Bool} {t : List Char} (ht : ∀ c ∈ t, p c = true)
    (hr : ∀ c ∈ rest.head?, p c = false) :
    (t ++ rest).takeWhile p = t ∧ (t ++ rest).dropWhile p = rest := by
  rw [List.takeWhile_append_of_pos ht, List.dropWhile_append_of_pos ht]
  cases rest with
  | nil => simp
  | cons c rest => simp [hr c rfl]

theorem isBlank_of_isNameChar (h : isNameChar x = true) : isBlank x = false := by
  rw [Bool.eq_false_iff]
  intro hb
  rw [(run_of_isBlank hb).1] at h
  cases h

theorem isBlank_of_isNameStart (h : isNameStart x = true) : isBlank x = false :=
  isBlank_of_isNameChar (isNameChar_of_isNameStart h)

theorem isDigit_of_isNameStart (h : isNameStart x = true) : x.isDigit = false := by
  rw [Bool.eq_false_iff]
  intro hd
  rcases Bool.or_eq_true_iff.1 h with ha | hu
  · rw [isAlpha_iff] at ha
    rw [isDigit_iff] at hd
    omega
  · rw [beq_iff_eq] at hu
    subst hu
    cases hd

theorem readName_sound {n : String} (h : Reads (readName cs) n rest) :
    ∃ s, NameText s n ∧ cs = s ++ rest := by
  unfold readName at h
  split at h
  · rename_i c r hs
    split at h
    · rename_i hc
      obtain ⟨rfl, rfl⟩ := reads_ok.1 h
      obtain ⟨w, hw, hcs⟩ := exists_blanks cs
      refine ⟨w ++ c :: r.takeWhile isNameChar, .mk hw ?_, ?_⟩
      · simp [isName, hc]
      · rw [List.append_assoc, List.cons_append, List.takeWhile_append_dropWhile, ← hs]
        exact hcs
    · exact absurd h not_reads_error
  · exact absurd h not_reads_error

theorem NameText.skipBlank_eq {s : List Char} {n : String} (h : NameText s n) (rest : List Char) :
    ∃ c t, skipBlank (s ++ rest) = c :: (t ++ rest) ∧ isNameStart c = true ∧
      (∀ c ∈ t, isNameChar c = true) ∧ n = String.ofList (c :: t) := by
  obtain @⟨w, t, hw, ht⟩ := h
  cases t with
  | nil => cases ht
  | cons c t =>
    simp only [isName, Bool.and_eq_true, List.all_eq_true] at ht
    refine ⟨c, t, ?_, ht.1, ht.2, rfl⟩
    rw [List.append_assoc, hw.skipBlank_append]
    exact skipBlank_cons (isBlank_of_isNameStart ht.1) _

theorem NameText.reads {s : List Char} {n : String} (h : NameText s n) {marks : List Char}
    (hr : Ends marks rest) : Reads (readName (s ++ rest)) n rest := by
  obtain ⟨c, t, hs, hc, ht, rfl⟩ := h.skipBlank_eq rest
  obtain ⟨htake, hdrop⟩ := dropWhile_append_of_head ht fun c hc => (hr.run c hc).1
  unfold readName
  split
  · rename_i c' r hs'
    cases hs.symm.trans hs'
    rw [if_pos hc, reads_ok, htake]
    exact ⟨rfl, hdrop⟩
  · rename_i hs'
    cases hs.symm.trans hs'

theorem NameText.eat?_eq_none {s : List Char} {n : String} (h : NameText s n)
    (hx : isNameStart x = false) (rest : List Char) : eat? x (s ++ rest) = none := by
  obtain ⟨c, t, hs, hc, -⟩ := h.skipBlank_eq rest
  refine eat?_eq_none_of ?_
  rw [hs]
  rintro _ ⟨⟩ rfl
  rw [hx] at hc
  cases hc

/-! ## Strings -/

theorem readStringBody_sound {body : List Char} (h : readStringBody cs = some (body, rest)) :
    ∃ s, StringText s body ∧ cs = s ++ '"' :: rest := by
  fun_induction readStringBody cs generalizing body rest with
  | case1 => cases h
  | case2 r =>
    cases h
    exact ⟨[], .nil, rfl⟩
  | case3 => cases h
  | case4 c r ih =>
    obtain ⟨⟨body', r'⟩, hb, he⟩ := Option.map_eq_some_iff.1 h
    cases he
    obtain ⟨s, hs, rfl⟩ := ih hb
    by_cases hc : c = 'n'
    · subst hc
      exact ⟨_, .lineFeed hs, rfl⟩
    · exact ⟨'\\' :: c :: s, by rw [if_neg hc]; exact .escaped hc hs, rfl⟩
  | case5 c r hq hlast hpair ih =>
    have hb : c ≠ '\\' := by
      intro hc
      cases r with
      | nil => exact hlast hc rfl
      | cons d r => exact hpair d r hc rfl
    obtain ⟨⟨body', r'⟩, hr, he⟩ := Option.map_eq_some_iff.1 h
    cases he
    obtain ⟨s, hs, rfl⟩ := ih hr
    exact ⟨c :: s, .plain hq hb hs, rfl⟩

theorem StringText.reads {s body : List Char} (h : StringText s body) (rest : List Char) :
    readStringBody (s ++ '"' :: rest) = some (body, rest) := by
  induction h with
  | nil => rfl
  | plain hq hb h ih =>
    rw [List.cons_append, readStringBody, ih]
    · rfl
    all_goals grind
  | lineFeed h ih => simp [readStringBody, ih]
  | escaped hc h ih => simp [readStringBody, ih, hc]

end QueryShape.Annotation
