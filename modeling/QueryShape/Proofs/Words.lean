import QueryShape.Proofs.AnnotationToken
import QueryShape.Text.Words

/-!
# Words and names

Splitting a text into words loses what is neither letter nor digit and nothing else (`flatten_words`).
So a text of name characters stays one in snake case, though it loses the underscores in front, and it
is a name if and only if its first letter or digit is a letter (`isName_snakeCase`).
-/

set_option autoImplicit false

namespace QueryShape.Text

theorem isAlphanumeric_dot : isAlphanumeric '.' = false := by decide +kernel

/-! ## Pieces -/

theorem splitAtChars_ne_nil (p : Char → Bool) (cs : List Char) : splitAtChars p cs ≠ [] := by
  cases cs with
  | nil => simp [splitAtChars]
  | cons c cs =>
    rw [splitAtChars]
    split
    · simp
    · split <;> simp

/-- What stands before a separator and what stands after it are split on their own. -/
theorem splitAtChars_append {p : Char → Bool} {c : Char} (hc : p c = true) (cs ds : List Char) :
    splitAtChars p (cs ++ c :: ds) = splitAtChars p cs ++ splitAtChars p ds := by
  induction cs with
  | nil =>
    obtain ⟨piece, pieces, hd⟩ := List.exists_cons_of_ne_nil (splitAtChars_ne_nil p ds)
    simp [splitAtChars, hd, hc]
  | cons x cs ih =>
    obtain ⟨piece, pieces, hcs⟩ := List.exists_cons_of_ne_nil (splitAtChars_ne_nil p cs)
    rw [List.cons_append, splitAtChars, ih, splitAtChars, hcs]
    dsimp only [List.cons_append]
    split <;> rfl

theorem flatten_splitAtChars (p : Char → Bool) (cs : List Char) :
    (splitAtChars p cs).flatten = cs.filter fun c => !p c := by
  induction cs with
  | nil => rfl
  | cons c cs ih =>
    obtain ⟨piece, pieces, hcs⟩ := List.exists_cons_of_ne_nil (splitAtChars_ne_nil p cs)
    rw [hcs] at ih
    rw [splitAtChars, hcs, List.filter_cons, ← ih]
    cases p c <;> simp

/-! ## Words -/

theorem flatten_wordsFrom (run : CaseRun) (word cs : List Char) :
    (wordsFrom run word cs).flatten = word.reverse ++ cs := by
  fun_induction wordsFrom run word cs with
  | case1 run => rfl
  | case2 run word hne => simp
  | case3 run word c => simp
  | case4 run word c n rest next hsplit ih => simp [ih]
  | case5 run word c n rest next hgo hsplit ih => simp [ih]
  | case6 run word c n rest next hgo hgo' ih => simp [ih]

/-- After an upper-case letter a word has begun. -/
theorem ne_nil_of_mem_wordsFrom {run : CaseRun} {word cs : List Char} (h : run = .upper → word ≠ []) :
    ∀ w ∈ wordsFrom run word cs, w ≠ [] := by
  fun_induction wordsFrom run word cs with
  | case1 run => simp
  | case2 run word hne => simpa using hne
  | case3 run word c => simp
  | case4 run word c n rest next hsplit ih => simpa using ih
  | case5 run word c n rest next hgo hsplit ih =>
    simp only [Bool.and_eq_true, decide_eq_true_eq] at hsplit
    rw [List.forall_mem_cons]
    exact ⟨by simpa using h hsplit.1.1, ih (by simp)⟩
  | case6 run word c n rest next hgo hgo' ih => exact ih (by simp)

theorem flatten_words (cs : List Char) : (words cs).flatten = cs.filter isAlphanumeric := by
  have hpiece : List.flatten ∘ wordsFrom .none [] = id :=
    funext fun piece => flatten_wordsFrom .none [] piece
  rw [words, List.flatMap, List.flatten_flatten, List.map_map, hpiece, List.map_id,
    flatten_splitAtChars]
  simp

theorem ne_nil_of_mem_words {cs : List Char} : ∀ w ∈ words cs, w ≠ [] := by
  intro w hw
  obtain ⟨piece, -, hw⟩ := List.mem_flatMap.1 hw
  exact ne_nil_of_mem_wordsFrom (by simp) w hw

/-! ## ASCII -/

theorem toNat_lt_of_isNameChar {c : Char} (h : isNameChar c = true) : c.toNat < 128 := by
  simp only [isNameChar, Char.isAlphanum, Bool.or_eq_true, Annotation.isAlpha_iff,
    Annotation.isDigit_iff, beq_iff_eq] at h
  rcases h with (h | h) | rfl
  · omega
  · omega
  · decide

/-- What is known of the first 128 characters holds of the characters of names. -/
theorem of_isNameChar {P : Char → Prop} (hP : ∀ n < 128, P (Char.ofNat n)) {c : Char}
    (hc : isNameChar c = true) : P c := by
  have h := hP c.toNat (toNat_lt_of_isNameChar hc)
  rwa [Char.ofNat_toNat] at h

theorem isAlphanumeric_of_isNameChar {c : Char} (h : isNameChar c = true) :
    isAlphanumeric c = c.isAlphanum :=
  of_isNameChar (P := fun c => isAlphanumeric c = c.isAlphanum) (by decide +kernel) h

theorem toLower_of_isNameChar {c : Char} (h : isNameChar c = true) : toLower c = [c.toLower] :=
  of_isNameChar (P := fun c => toLower c = [c.toLower]) (by decide +kernel) h

theorem isAlphanum_toLower {c : Char} (h : c.isAlphanum = true) : c.toLower.isAlphanum = true :=
  of_isNameChar (P := fun c => c.isAlphanum = true → c.toLower.isAlphanum = true) (by decide +kernel)
    (by simp [isNameChar, h]) h

/-- A letter can start a name and a digit cannot. -/
theorem isNameStart_toLower {c : Char} (h : c.isAlphanum = true) :
    isNameStart c.toLower = c.isAlpha :=
  of_isNameChar (P := fun c => c.isAlphanum = true → isNameStart c.toLower = c.isAlpha)
    (by decide +kernel) (by simp [isNameChar, h]) h

theorem lowerWord_eq {w : List Char} (h : ∀ c ∈ w, c.isAlphanum = true) :
    lowerWord w = w.map Char.toLower := by
  fun_induction lowerWord w with
  | case1 => rfl
  | case2 => exact absurd (h 'Σ' (List.mem_singleton_self _)) (by decide)
  | case3 c cs _ ih =>
    rw [List.forall_mem_cons] at h
    rw [toLower_of_isNameChar (by simp [isNameChar, h.1]), ih h.2]
    rfl

/-! ## Snake case -/

theorem head?_intercalate {α : Type} (sep : List α) {ws : List (List α)} (h : ∀ w ∈ ws, w ≠ []) :
    (sep.intercalate ws).head? = ws.flatten.head? := by
  match ws, h with
  | [], _ => rfl
  | [w], _ => simp [List.intercalate_singleton]
  | w :: w' :: ws, h =>
    obtain ⟨x, w, rfl⟩ := List.exists_cons_of_ne_nil (h w List.mem_cons_self)
    simp [List.intercalate_cons_cons]

theorem mem_intercalate {α : Type} {sep : List α} {x : α} {ws : List (List α)}
    (h : x ∈ sep.intercalate ws) : x ∈ sep ∨ x ∈ ws.flatten := by
  induction ws with
  | nil => cases h
  | cons w ws ih =>
    cases ws with
    | nil => simpa [List.intercalate_singleton] using Or.inr h
    | cons w' ws =>
      rw [List.intercalate_cons_cons, List.mem_append, List.mem_append] at h
      rcases h with (h | h) | h
      · exact .inr (by simp [h])
      · exact .inl h
      · refine (ih h).imp_right fun h => ?_
        rw [List.flatten_cons, List.mem_append]
        exact .inr h

/-- A text is a name if it has name characters only and starts as a name does. -/
theorem isName_eq {cs : List Char} (h : ∀ c ∈ cs, isNameChar c = true) :
    isName cs = cs.head?.any isNameStart := by
  cases cs with
  | nil => rfl
  | cons c cs =>
    rw [List.forall_mem_cons] at h
    rw [isName, List.all_eq_true.2 h.2, Bool.and_true]
    rfl

theorem flatten_words_of_name {cs : List Char} (h : ∀ c ∈ cs, isNameChar c = true) :
    (words cs).flatten = cs.filter Char.isAlphanum := by
  rw [flatten_words]
  exact List.filter_congr fun c hc => isAlphanumeric_of_isNameChar (h c hc)

theorem snakeCase_eq {cs : List Char} (h : ∀ c ∈ cs, isNameChar c = true) :
    snakeCase cs = ['_'].intercalate ((words cs).map (·.map Char.toLower)) := by
  rw [snakeCase]
  congr 1
  refine List.map_congr_left fun w hw => lowerWord_eq fun c hc => ?_
  have hmem : c ∈ (words cs).flatten := List.mem_flatten_of_mem hw hc
  rw [flatten_words_of_name h] at hmem
  exact (List.mem_filter.1 hmem).2

/-- A text of name characters stays one. -/
theorem isNameChar_of_mem_snakeCase {cs : List Char} (h : ∀ c ∈ cs, isNameChar c = true) :
    ∀ c ∈ snakeCase cs, isNameChar c = true := by
  intro c hc
  rw [snakeCase_eq h] at hc
  rcases mem_intercalate hc with hc | hc
  · rw [List.mem_singleton.1 hc]
    decide
  · rw [← List.map_flatten, flatten_words_of_name h] at hc
    obtain ⟨x, hx, rfl⟩ := List.mem_map.1 hc
    rw [isNameChar, isAlphanum_toLower (List.mem_filter.1 hx).2, Bool.true_or]

theorem head?_snakeCase {cs : List Char} (h : ∀ c ∈ cs, isNameChar c = true) :
    (snakeCase cs).head? = (cs.find? Char.isAlphanum).map Char.toLower := by
  have hne : ∀ w ∈ (words cs).map (·.map Char.toLower), w ≠ [] := by
    rw [List.forall_mem_map]
    intro w hw
    simpa using ne_nil_of_mem_words w hw
  rw [snakeCase_eq h, head?_intercalate _ hne, ← List.map_flatten, flatten_words_of_name h,
    List.head?_map, List.head?_filter]

/-- In snake case a text is a name if and only if its first letter or digit is a letter. -/
theorem isName_snakeCase {cs : List Char} (h : ∀ c ∈ cs, isNameChar c = true) :
    isName (snakeCase cs) = (cs.find? Char.isAlphanum).any Char.isAlpha := by
  rw [isName_eq (isNameChar_of_mem_snakeCase h), head?_snakeCase h]
  cases hfind : cs.find? Char.isAlphanum with
  | none => rfl
  | some c => exact isNameStart_toLower (List.find?_some hfind)

end QueryShape.Text
