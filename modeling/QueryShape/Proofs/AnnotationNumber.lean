import QueryShape.Proofs.AnnotationToken

/-!
# Reading numbers and scalars

A number is cut out of the text as the longest run of number characters (`numberRun`), with a sign
inside only after a point or an exponent mark. A float that reads as binary64 has no other sign
(`read?_mark`), so its whole token is the run (`NumberText.reads`).
-/

set_option autoImplicit false

namespace QueryShape.Annotation

open Text

variable {cs rest : List Char} {x : Char}

/-! ## Numbers -/

theorem numberRun_append (float : Bool) (cs : List Char) :
    (numberRun float cs).1 ++ (numberRun float cs).2.1 = cs := by
  fun_induction numberRun float cs with
  | case1 => rfl
  | case2 f c cs _ run rest f' he ih => rw [he] at ih; simp [← ih]
  | case3 f c cs _ _ run rest f' he ih => rw [he] at ih; simp [← ih]
  | case4 => rfl

theorem all_numberRun (float : Bool) (cs : List Char) :
    (numberRun float cs).1.all isNumberChar = true := by
  fun_induction numberRun float cs with
  | case1 => rfl
  | case2 f c cs hc run rest f' he ih =>
    rw [he] at ih
    grind [isNumberChar]
  | case3 f c cs _ hc run rest f' he ih =>
    rw [he] at ih
    grind [isNumberChar, isFloatMark]
  | case4 => rfl

theorem isFloatMark_of_isDigit {c : Char} (h : c.isDigit = true) : isFloatMark c = false := by
  rw [Bool.eq_false_iff]
  intro hm
  simp only [isFloatMark, Bool.or_eq_true, decide_eq_true_eq] at hm
  rcases hm with (rfl | rfl) | rfl <;> cases h

/-- A run is that of a float if it has a point or an exponent mark. -/
theorem numberRun_float (float : Bool) (cs : List Char) :
    (numberRun float cs).2.2 = (float || (numberRun float cs).1.any isFloatMark) := by
  fun_induction numberRun float cs with
  | case1 => simp
  | case2 f c cs hc run rest f' he ih =>
    rw [he] at ih
    have hm : isFloatMark c = true → f = true := by
      intro hm
      rcases Bool.or_eq_true_iff.1 hc with hd | hs
      · rw [isFloatMark_of_isDigit hd] at hm
        cases hm
      · exact (Bool.and_eq_true_iff.1 hs).2
    grind
  | case3 f c cs _ hc run rest f' he ih =>
    rw [he] at ih
    grind [isFloatMark]
  | case4 => simp

theorem readInt?_negative (ds : List Char) :
    readInt? ('-' :: ds) =
      if ds ≠ [] ∧ ds.all Char.isDigit = true ∧ Binary64.digitsValue ds ≤ Nat.pow 2 63 then
        some (Int64.ofInt (-Binary64.digitsValue ds))
      else none := by
  have hint : Int.pow 2 63 = 9223372036854775808 := rfl
  have hnat : Nat.pow 2 63 = 9223372036854775808 := rfl
  unfold readInt?
  simp only [↓reduceIte, Bool.and_eq_true, decide_eq_true_eq, hint, hnat]
  congr 1
  rw [eq_iff_iff]
  constructor
  · rintro ⟨⟨⟨hne, hds⟩, hle⟩, -⟩
    exact ⟨hne, hds, by omega⟩
  · rintro ⟨hne, hds, hle⟩
    exact ⟨⟨⟨hne, hds⟩, by omega⟩, by omega⟩

theorem readInt?_natural {ds : List Char} (h : ds.head? ≠ some '-') :
    readInt? ds =
      if ds ≠ [] ∧ ds.all Char.isDigit = true ∧ Binary64.digitsValue ds < Nat.pow 2 63 then
        some (Int64.ofInt (Binary64.digitsValue ds))
      else none := by
  have hint : Int.pow 2 63 = 9223372036854775808 := rfl
  have hnat : Nat.pow 2 63 = 9223372036854775808 := rfl
  unfold readInt?
  split
  rename_i neg ds' hds
  split at hds
  · simp at h
  · cases hds
    simp only [Bool.false_eq_true, ↓reduceIte, Bool.and_eq_true, decide_eq_true_eq]
    congr 1
    rw [hint, hnat, eq_iff_iff]
    constructor
    · rintro ⟨⟨⟨hne, hds⟩, -⟩, hlt⟩
      exact ⟨hne, hds, by omega⟩
    · rintro ⟨hne, hds, hlt⟩
      exact ⟨⟨⟨hne, hds⟩, by omega⟩, by omega⟩

theorem readInt?_sound {t : List Char} {i : Int64} (h : readInt? t = some i) :
    NumberText t (.int i) := by
  by_cases ht : t.head? = some '-'
  · obtain ⟨ds, rfl⟩ := List.head?_eq_some_iff.1 ht
    rw [readInt?_negative] at h
    split at h
    · rename_i hds
      cases h
      exact .negative hds.1 hds.2.1 hds.2.2
    · cases h
  · rw [readInt?_natural ht] at h
    split at h
    · rename_i hds
      cases h
      exact .natural hds.1 hds.2.1 hds.2.2
    · cases h

theorem readNumber?_sound {run : List Char} {v : Value} (hx : (x = '-' || x.isDigit) = true)
    (hrun : run.all isNumberChar = true)
    (h : readNumber? (x :: run) (run.any isFloatMark) = some v) : NumberText (x :: run) v := by
  unfold readNumber? at h
  split at h
  · rename_i hm
    obtain ⟨y, hy, rfl⟩ := Option.map_eq_some_iff.1 h
    exact .float hx hrun hm hy
  · obtain ⟨i, hi, rfl⟩ := Option.map_eq_some_iff.1 h
    exact readInt?_sound hi

theorem Ends.numberRun_eq {marks : List Char} (hr : Ends marks rest) (float : Bool) :
    numberRun float rest = ([], rest, float) := by
  cases rest with
  | nil => rfl
  | cons c rest =>
    have hc := (hr.run c rfl).2
    simp only [isNumberChar, isFloatMark, Bool.or_eq_false_iff] at hc
    simp [numberRun, hc]

theorem numberRun_digits (float : Bool) {ds : List Char} (hds : ds.all Char.isDigit = true) :
    numberRun float (ds ++ cs) = (ds ++ (numberRun float cs).1, (numberRun float cs).2) := by
  induction ds with
  | nil => rfl
  | cons d ds ih =>
    simp only [List.all_cons, Bool.and_eq_true] at hds
    simp [numberRun, hds.1, ih hds.2]

theorem numberRun_mark (hx : isFloatMark x = true) (cs : List Char) :
    numberRun false (x :: cs) = (x :: (numberRun true cs).1, (numberRun true cs).2) := by
  have hd : x.isDigit = false := by
    rw [Bool.eq_false_iff]
    intro hd
    rw [isFloatMark_of_isDigit hd] at hx
    cases hx
  rw [isFloatMark] at hx
  simp [numberRun, hd, hx]

/-- Once a point or an exponent mark was seen, every number character belongs to the run. -/
theorem Ends.numberRun_true {marks run : List Char} (hr : Ends marks rest)
    (hrun : run.all isNumberChar = true) : numberRun true (run ++ rest) = (run, rest, true) := by
  induction run with
  | nil => exact hr.numberRun_eq true
  | cons c run ih =>
    simp only [List.all_cons, Bool.and_eq_true] at hrun
    have hc := hrun.1
    simp only [isNumberChar, isFloatMark, Bool.or_eq_true] at hc
    simp only [List.cons_append, numberRun, ih hrun.2]
    grind

theorem readExponent?_mark {e : Int} (h : Binary64.readExponent? (x :: rest) = some e) :
    isFloatMark x = true := by
  rw [Binary64.readExponent?.eq_def] at h
  dsimp only at h
  split at h
  · rename_i hx
    simp only [Bool.or_eq_true] at hx
    simp only [isFloatMark, Bool.or_eq_true]
    exact hx.elim (fun h => .inl (.inr h)) .inr
  · cases h

/-- After its leading digits a number goes on with a point or an exponent mark. -/
theorem readUnsigned?_mark {negative : Bool} {y : Binary64}
    (h : Binary64.readUnsigned? negative cs = some y) (hd : cs.dropWhile Char.isDigit = x :: rest) :
    isFloatMark x = true := by
  unfold Binary64.readUnsigned? at h
  rw [hd] at h
  dsimp only at h
  split at h
  · rename_i hp
    cases hp
    rfl
  · split at h
    · cases h
    · obtain ⟨e, he, -⟩ := Option.map_eq_some_iff.1 h
      exact readExponent?_mark he

theorem toLower_of_isNumberChar {c : Char} (h : isNumberChar c = true) :
    c.toLower ≠ 'i' ∧ c.toLower ≠ 'n' := by
  simp only [isNumberChar, isFloatMark, Bool.or_eq_true, decide_eq_true_eq] at h
  rcases h with ((hd | rfl) | rfl) | ((rfl | rfl) | rfl)
  · have hl : c.toLower = c := by
      unfold Char.toLower
      rw [dif_neg]
      rw [isDigit_iff, Char.toNat] at hd
      simp only [ge_iff_le, UInt32.le_iff_toNat_le, Char.reduceVal, UInt32.reduceToNat]
      omega
    rw [hl]
    constructor <;> rintro rfl <;> cases hd
  all_goals decide

/-- The words for what is not finite have letters that no number has. -/
theorem readWord?_eq_none {negative : Bool} {cs : List Char} (h : cs.all isNumberChar = true) :
    Binary64.readWord? negative cs = none := by
  have hne : ∀ c ∈ (cs.map Char.toLower).head?, c ≠ 'i' ∧ c ≠ 'n' := by
    cases cs with
    | nil => simp
    | cons c cs =>
      rintro _ ⟨⟩
      exact toLower_of_isNumberChar (List.all_eq_true.1 h c List.mem_cons_self)
  have hword : ∀ word : String, (word.toList.head? = some 'i' ∨ word.toList.head? = some 'n') →
      String.ofList (cs.map Char.toLower) ≠ word := by
    rintro _ hw rfl
    rw [String.toList_ofList] at hw
    rcases hw with hw | hw
    · exact (hne _ hw).1 rfl
    · exact (hne _ hw).2 rfl
  simp [Binary64.readWord?, hword "inf" (by decide), hword "infinity" (by decide),
    hword "nan" (by decide)]

theorem read?_digit (hx : x.isDigit = true) (cs : List Char) :
    Binary64.read? (x :: cs) =
      (Binary64.readUnsigned? false (x :: cs)).orElse fun _ => Binary64.readWord? false (x :: cs) := by
  unfold Binary64.read?
  split
  rename_i negative cs' he
  split at he
  · rename_i hc
    cases hc
    cases hx
  · rename_i hc
    cases hc
    cases hx
  · cases he
    rfl

/-- A float goes on with a point or an exponent mark after its sign and its leading digits. -/
theorem read?_mark {run : List Char} {y : Binary64} (hx : (x = '-' || x.isDigit) = true)
    (hrun : run.all isNumberChar = true) (h : Binary64.read? (x :: run) = some y) {m : Char}
    (hm : run.dropWhile Char.isDigit = m :: rest) : isFloatMark m = true := by
  have key : ∀ negative cs, cs.all isNumberChar = true → cs.dropWhile Char.isDigit = m :: rest →
      ((Binary64.readUnsigned? negative cs).orElse fun _ => Binary64.readWord? negative cs) = some y →
      isFloatMark m = true := by
    intro negative cs hcs hd h
    rw [readWord?_eq_none hcs] at h
    cases hu : Binary64.readUnsigned? negative cs with
    | none => rw [hu] at h; cases h
    | some z => exact readUnsigned?_mark hu hd
  by_cases hd : x.isDigit = true
  · have hall : (x :: run).all isNumberChar = true := by
      simp only [List.all_cons, hrun, isNumberChar, hd, Bool.true_or, Bool.and_self]
    rw [read?_digit hd] at h
    exact key false (x :: run) hall (by simpa [hd] using hm) h
  · simp only [hd, Bool.or_false, decide_eq_true_eq] at hx
    subst hx
    exact key true run hrun hm h

theorem NumberText.head {t : List Char} {v : Value} (h : NumberText t v) :
    ∃ c run, t = c :: run ∧ (c = '-' || c.isDigit) = true := by
  cases h with
  | natural hne hds hlt =>
    cases t with
    | nil => exact absurd rfl hne
    | cons d ds =>
      simp only [List.all_cons, Bool.and_eq_true] at hds
      exact ⟨d, ds, rfl, by simp [hds.1]⟩
  | negative => exact ⟨_, _, rfl, rfl⟩
  | float hc => exact ⟨_, _, rfl, hc⟩

theorem isBlank_of_startsNumber (hx : (x = '-' || x.isDigit) = true) : isBlank x = false := by
  rw [Bool.eq_false_iff]
  intro hb
  have hn := (run_of_isBlank hb).2
  simp only [isNumberChar, Bool.or_eq_false_iff] at hn
  simp [hn] at hx

/-- A number is the whole run that is cut out of the text, and is read as what it denotes. -/
theorem NumberText.reads {t : List Char} {v : Value} (h : NumberText t v) {marks : List Char}
    (hr : Ends marks rest) : ∃ c run float, t = c :: run ∧ (c = '-' || c.isDigit) = true ∧
      numberRun false (run ++ rest) = (run, rest, float) ∧ readNumber? (c :: run) float = some v := by
  have hdigits : ∀ ds : List Char, ds.all Char.isDigit = true →
      numberRun false (ds ++ rest) = (ds, rest, false) := by
    intro ds hds
    rw [numberRun_digits false hds, hr.numberRun_eq, List.append_nil]
  cases h with
  | natural hne hds hlt =>
    cases t with
    | nil => exact absurd rfl hne
    | cons d ds =>
      have hd := hds
      simp only [List.all_cons, Bool.and_eq_true] at hd
      refine ⟨d, ds, false, rfl, by simp [hd.1], hdigits ds hd.2, ?_⟩
      have hhead : (d :: ds).head? ≠ some '-' := by
        rintro ⟨⟩
        cases hd.1
      simp only [readNumber?, Bool.false_eq_true, ↓reduceIte, readInt?_natural hhead]
      rw [if_pos ⟨hne, hds, hlt⟩]
      rfl
  | @negative ds hne hds hle =>
    refine ⟨'-', ds, false, rfl, rfl, hdigits ds hds, ?_⟩
    simp only [readNumber?, Bool.false_eq_true, ↓reduceIte, readInt?_negative]
    rw [if_pos ⟨hne, hds, hle⟩]
    rfl
  | @float c run y hc hrun hmark hy =>
    refine ⟨c, run, true, rfl, hc, ?_, by simp [readNumber?, hy]⟩
    have hsplit : run.takeWhile Char.isDigit ++ run.dropWhile Char.isDigit = run :=
      List.takeWhile_append_dropWhile
    cases hd : run.dropWhile Char.isDigit with
    | nil =>
      -- digits alone have no mark
      rw [hd, List.append_nil] at hsplit
      obtain ⟨d, hmem, hm⟩ := List.any_eq_true.1 hmark
      rw [← hsplit] at hmem
      rw [isFloatMark_of_isDigit (List.all_eq_true.1 List.all_takeWhile d hmem)] at hm
      cases hm
    | cons m run' =>
      have hm := read?_mark hc hrun hy hd
      rw [hd] at hsplit
      have hrun' : run'.all isNumberChar = true := by
        rw [← hsplit] at hrun
        simp only [List.all_append, List.all_cons, Bool.and_eq_true] at hrun
        exact hrun.2.2
      rw [← hsplit, List.append_assoc, numberRun_digits false List.all_takeWhile, List.cons_append,
        numberRun_mark hm, hr.numberRun_true hrun']

/-! ## Scalars -/

theorem valueText_word {s : List Char} {n : String} (h : NameText s n) : ValueText s (wordValue n) := by
  unfold wordValue
  split
  · subst_vars; exact .wordTrue h
  split
  · subst_vars; exact .wordFalse h
  split
  · subst_vars; exact .wordNull h
  · exact .enum h (by simp [*])

theorem readScalar_sound {c : Char} {r : List Char} {hs : skipBlank cs = c :: r} {v : Value}
    (h : Reads (readScalar cs c r hs) v rest) : ∃ s, ValueText s v ∧ cs = s ++ rest := by
  unfold readScalar at h
  split at h
  · rename_i hc
    subst hc
    split at h
    · rename_i body r' hb
      obtain ⟨rfl, rfl⟩ := reads_ok.1 h
      obtain ⟨q, hq, rfl⟩ := exists_mark hs
      obtain ⟨s, hbody, rfl⟩ := readStringBody_sound hb
      exact ⟨_, .string hq hbody, by simp⟩
    · exact absurd h not_reads_error
  · split at h
    · rename_i hc
      dsimp only at h
      split at h
      · rename_i v' hv
        obtain ⟨rfl, rfl⟩ := reads_ok.1 h
        obtain ⟨w, hw, hcs⟩ := exists_blanks cs
        rw [numberRun_float, Bool.false_or] at hv
        refine ⟨_, .number hw (readNumber?_sound hc (all_numberRun false r) hv), ?_⟩
        rw [List.append_assoc, List.cons_append, numberRun_append, ← hs]
        exact hcs
      · exact absurd h not_reads_error
    · split at h
      · obtain ⟨n, hn, rfl⟩ := reads_map.1 h
        obtain ⟨s, hs, hcs⟩ := readName_sound hn
        exact ⟨s, valueText_word hs, hcs⟩
      · exact absurd h not_reads_error

section ReadScalar

variable {r : List Char} {v : Value} (hs : skipBlank cs = x :: r)
include hs

theorem reads_readScalar_string (hx : x = '"') {body : List Char}
    (h : readStringBody r = some (body, rest)) :
    Reads (readScalar cs x r hs) (.string (String.ofList body)) rest := by
  unfold readScalar
  rw [if_pos hx]
  split
  · rename_i hb
    cases h.symm.trans hb
    exact reads_ok.2 ⟨rfl, rfl⟩
  · rename_i hb
    cases h.symm.trans hb

theorem reads_readScalar_number (hx : (x = '-' || x.isDigit) = true) {run : List Char} {float : Bool}
    (hr : numberRun false r = (run, rest, float)) (h : readNumber? (x :: run) float = some v) :
    Reads (readScalar cs x r hs) v rest := by
  have hq : x ≠ '"' := by rintro rfl; cases hx
  unfold readScalar
  rw [if_neg hq, if_pos hx]
  dsimp only
  split
  · rename_i v' hv
    rw [hr, h] at hv
    cases hv
    exact reads_ok.2 ⟨rfl, congrArg (·.2.1) hr⟩
  · rename_i hv
    rw [hr, h] at hv
    cases hv

theorem reads_readScalar_word (hx : isNameStart x = true) {n : String} (h : Reads (readName cs) n rest) :
    Reads (readScalar cs x r hs) (wordValue n) rest := by
  have hq : x ≠ '"' := by rintro rfl; cases hx
  have hm : x ≠ '-' := by rintro rfl; cases hx
  have hn : ¬ (x = '-' || x.isDigit) = true := by
    simp [isDigit_of_isNameStart hx, hm]
  unfold readScalar
  rw [if_neg hq, if_neg hn, if_pos hx]
  exact reads_map.2 ⟨n, h, rfl⟩

end ReadScalar

end QueryShape.Annotation
