import Mathlib
import QueryShape.Proofs.AnnotationNumber
import QueryShape.Proofs.AnnotationScan

/-!
# Where reading an annotation stops

`Steady`: what a scan leaves is the end of what it was given, and what it answers hangs on no character
behind the one at which it stops or which it leaves first.
-/

set_option autoImplicit false

namespace QueryShape.Annotation

open Text Scan

variable {α β : Type} {text cs rest : List Char} {x : Char}

/-! ## Steady scans -/

/-- The stop is in the text, and not before `cs` if something else was expected there. -/
structure Stop.Within (text cs : List Char) (stop : Stop) : Prop where
  suffix : stop.rest <:+ text
  expected : ∀ what found, stop.fault = .expected what found →
    ∃ rest, rest <:+ cs ∧ stop = stopAt what rest

/-- `s` moves only forward from `cs`, and stops in the text. What it answers, `s'` answers on every text
that agrees with `cs` up to the first character that is left, or at which something else was expected. -/
structure Steady (text : List Char) (s s' : Scan α) (cs : List Char) : Prop where
  left : ∀ {a rest}, s cs = .ok (a, rest) → rest <:+ cs
  within : ∀ {stop}, s cs = .error stop → stop.Within text cs
  ok_of_agree : ∀ {p q c t a}, cs = p ++ c :: t → isBlank c = false →
    s cs = .ok (a, q ++ c :: t) → ∀ t', s' (p ++ c :: t') = .ok (a, q ++ c :: t')
  error_of_agree : ∀ {p c t what}, cs = p ++ c :: t → isBlank c = false →
    s cs = .error ⟨.expected what (some c), c :: t⟩ →
      ∀ t', s' (p ++ c :: t') = .error ⟨.expected what (some c), c :: t'⟩

theorem skipBlank_suffix (cs : List Char) : skipBlank cs <:+ cs := List.dropWhile_suffix _

theorem skipBlank_append_cons {c : Char} (hc : isBlank c = false) (p t : List Char) :
    skipBlank (p ++ c :: t) = skipBlank p ++ c :: t := by
  induction p with
  | nil => exact skipBlank_cons hc t
  | cons d p ih =>
    unfold skipBlank at *
    rw [List.cons_append]
    by_cases hd : isBlank d = true
    · rw [List.dropWhile_cons_of_pos hd, List.dropWhile_cons_of_pos hd, ih]
    · rw [List.dropWhile_cons_of_neg hd, List.dropWhile_cons_of_neg hd, List.cons_append]

theorem not_append_cons_suffix {c : Char} {t q : List Char} : ¬ q ++ c :: t <:+ t := by
  intro h
  have hlen := h.length_le
  simp only [List.length_append, List.length_cons] at hlen
  omega

theorem suffix_of_cons (h : x :: rest <:+ cs) : rest <:+ cs := (List.suffix_cons x rest).trans h

theorem Stop.Within.suffix_of_expected {stop : Stop} (h : stop.Within text cs) {what : Expectation}
    {found : Option Char} (he : stop.fault = .expected what found) : stop.rest <:+ cs := by
  obtain ⟨rest, hr, rfl⟩ := h.expected what found he
  exact (skipBlank_suffix rest).trans hr

theorem Stop.Within.mono {stop : Stop} (h : stop.Within text rest) (hr : rest <:+ cs) :
    stop.Within text cs := by
  refine ⟨h.suffix, fun what found he => ?_⟩
  obtain ⟨r, hrest, hs⟩ := h.expected what found he
  exact ⟨r, hrest.trans hr, hs⟩

theorem Steady.congr {s s' g g' : Scan α} (h : Steady text s s' cs) (hg : g cs = s cs)
    (hg' : ∀ {p c t}, cs = p ++ c :: t → isBlank c = false →
      ∀ t', g' (p ++ c :: t') = s' (p ++ c :: t')) : Steady text g g' cs where
  left he := h.left (hg.symm.trans he)
  within he := h.within (hg.symm.trans he)
  ok_of_agree hp hc he t' := (hg' hp hc t').trans (h.ok_of_agree hp hc (hg.symm.trans he) t')
  error_of_agree hp hc he t' :=
    (hg' hp hc t').trans (h.error_of_agree hp hc (hg.symm.trans he) t')

theorem steady_done (a : α) : Steady text (done a) (done a) cs where
  left h := by
    cases h
    exact List.suffix_refl _
  within h := by cases h
  ok_of_agree hcs _ h t' := by
    subst hcs
    obtain ⟨rfl, hq⟩ := Prod.mk.inj (Except.ok.inj h)
    rw [List.append_left_inj] at hq
    rw [done, hq]
  error_of_agree _ _ h := by cases h

theorem steady_fail (hcs : cs <:+ text) (what : Expectation) :
    Steady (α := α) text (fail what) (fail what) cs where
  left h := by cases h
  within h := by
    cases h
    refine ⟨(skipBlank_suffix cs).trans hcs, fun _ _ he => ?_⟩
    cases he
    exact ⟨cs, List.suffix_refl _, rfl⟩
  ok_of_agree _ _ h := by cases h
  error_of_agree {p c t w} hcs hc h t' := by
    subst hcs
    obtain ⟨hf, hr⟩ := Stop.mk.inj (Except.error.inj h)
    rw [skipBlank_append_cons hc] at hf hr
    have hp : skipBlank p = [] := List.append_left_eq_self.1 hr
    rw [hp] at hf
    cases hf
    rw [fail, stopAt, skipBlank_append_cons hc, hp]
    rfl

/-- A fault other than an unexpected token, at a place that was passed before. -/
theorem steady_stray {fault : Fault} {o : List Char} {s' : Scan α} (ho : o <:+ text)
    (hf : ∀ what found, fault ≠ .expected what found) :
    Steady text (fun _ => .error ⟨fault, o⟩) s' cs where
  left h := by cases h
  within h := by
    cases h
    exact ⟨ho, fun what found he => absurd he (hf what found)⟩
  ok_of_agree _ _ h := by cases h
  error_of_agree _ _ h := by
    cases h
    exact absurd rfl (hf _ _)

theorem steady_andThen {s s' : Scan α} {k k' : α → Scan β} (hcs : cs <:+ text)
    (hs : Steady text s s' cs)
    (hk : ∀ a rest, rest <:+ cs → rest <:+ text → Steady text (k a) (k' a) rest) :
    Steady text (s.andThen k) (s'.andThen k') cs := by
  cases h : s cs with
  | error stop =>
    have hrun : (s.andThen k) cs = .error stop := by rw [Scan.andThen, h]; rfl
    refine ⟨fun he => ?_, fun he => ?_, fun _ _ he => ?_, fun hp hc he t' => ?_⟩
    · cases hrun.symm.trans he
    · cases hrun.symm.trans he
      exact hs.within h
    · cases hrun.symm.trans he
    · cases hrun.symm.trans he
      rw [Scan.andThen, hs.error_of_agree hp hc h t']
      rfl
  | ok e =>
    obtain ⟨a, rest⟩ := e
    have hrest := hs.left h
    have hka := hk a rest hrest (hrest.trans hcs)
    have hrun : (s.andThen k) cs = k a rest := by rw [Scan.andThen, h]; rfl
    refine ⟨fun he => ?_, fun he => ?_, fun {p q c t b} hp hc he t' => ?_,
      fun {p c t what} hp hc he t' => ?_⟩
    · exact (hka.left (hrun.symm.trans he)).trans hrest
    · exact (hka.within (hrun.symm.trans he)).mono hrest
    · rw [hrun] at he
      -- what the second scan leaves is left by the first one, too
      obtain ⟨u, hu⟩ := hka.left he
      rw [← List.append_assoc] at hu
      subst hu
      rw [Scan.andThen, hs.ok_of_agree hp hc h t']
      exact hka.ok_of_agree rfl hc he t'
    · rw [hrun] at he
      obtain ⟨u, hu⟩ := (hka.within he).suffix_of_expected rfl
      subst hu
      rw [Scan.andThen, hs.ok_of_agree hp hc h t']
      exact hka.error_of_agree rfl hc he t'

/-! ## Scans that look at the next token -/

/-- The next token of a text that goes on with `c` begins with `c`, or it begins before `c` and is the
same whatever comes after `c`. -/
theorem skipBlank_agree {c d : Char} {p t : List Char} (hc : isBlank c = false)
    (h : skipBlank (p ++ c :: t) = d :: rest) :
    (rest = t ∧ ∀ t', skipBlank (p ++ c :: t') = d :: t') ∨
      ∃ q, rest = q ++ c :: t ∧ ∀ t', skipBlank (p ++ c :: t') = d :: (q ++ c :: t') := by
  rw [skipBlank_append_cons hc] at h
  cases hp : skipBlank p with
  | nil =>
    rw [hp] at h
    cases h
    refine .inl ⟨rfl, fun t' => ?_⟩
    rw [skipBlank_append_cons hc, hp, List.nil_append]
  | cons e q =>
    rw [hp] at h
    cases h
    refine .inr ⟨q, rfl, fun t' => ?_⟩
    rw [skipBlank_append_cons hc, hp, List.cons_append]

theorem steady_byFirst {k k' : Char → Option (Scan α)} {s s' : Scan α} (hcs : cs <:+ text)
    (hk : ∀ c rest, c :: rest <:+ cs → c :: rest <:+ text →
      Option.Rel (fun f f' => Steady text f f' rest) (k c) (k' c))
    (hs : Steady text s s' cs) : Steady text (byFirst k s) (byFirst k' s') cs := by
  cases hb : skipBlank cs with
  | nil =>
    refine hs.congr (byFirst_of_nil hb) ?_
    rintro p c t rfl hc
    rw [skipBlank_append_cons hc] at hb
    simp at hb
  | cons d rest =>
    have hd : d :: rest <:+ cs := hb ▸ skipBlank_suffix cs
    have hrest : rest <:+ cs := suffix_of_cons hd
    have h := hk d rest hd (hd.trans hcs)
    generalize hkd : k d = o, hkd' : k' d = o' at h
    cases h with
    | none =>
      refine hs.congr (by rw [byFirst_of_cons hb, hkd]; rfl) ?_
      rintro p c t rfl hc t'
      obtain ⟨-, ht⟩ | ⟨q, -, ht⟩ := skipBlank_agree hc hb
      · rw [byFirst_of_cons (ht t'), hkd']
        rfl
      · rw [byFirst_of_cons (ht t'), hkd']
        rfl
    | @some f f' hf =>
      have hrun : byFirst k s cs = f rest := by rw [byFirst_of_cons hb, hkd]; rfl
      refine ⟨fun he => (hf.left (hrun.symm.trans he)).trans hrest,
        fun he => (hf.within (hrun.symm.trans he)).mono hrest,
        fun {p q c t a} hp hc he t' => ?_, fun {p c t what} hp hc he t' => ?_⟩
      · rw [hrun] at he
        subst hp
        obtain ⟨rfl, -⟩ | ⟨u, rfl, ht⟩ := skipBlank_agree hc hb
        · exact absurd (hf.left he) not_append_cons_suffix
        · rw [byFirst_of_cons (ht t'), hkd']
          exact hf.ok_of_agree rfl hc he t'
      · rw [hrun] at he
        subst hp
        obtain ⟨rfl, -⟩ | ⟨u, rfl, ht⟩ := skipBlank_agree hc hb
        · exact absurd ((hf.within he).suffix_of_expected rfl) (not_append_cons_suffix (q := []))
        · rw [byFirst_of_cons (ht t'), hkd']
          exact hf.error_of_agree rfl hc he t'

theorem steady_choose {s s' f f' : Scan α} (hcs : cs <:+ text)
    (hf : ∀ rest, x :: rest <:+ cs → x :: rest <:+ text → Steady text f f' rest)
    (hs : Steady text s s' cs) : Steady text (choose x f s) (choose x f' s') cs := by
  refine steady_byFirst hcs (fun c rest hc hr => ?_) hs
  split
  · rename_i he
    subst he
    exact .some (hf rest hc hr)
  · exact .none

/-- A choice that texts agreeing up to a token make in the same way. -/
theorem steady_ite {P : List Char → Prop} [DecidablePred P] {s s' f f' : Scan α}
    (hP : ∀ {p c} t t', isBlank c = false → (P (p ++ c :: t) ↔ P (p ++ c :: t')))
    (hs : Steady text s s' cs) (hf : Steady text f f' cs) :
    Steady text (fun cs => if P cs then s cs else f cs) (fun cs => if P cs then s' cs else f' cs) cs := by
  by_cases h : P cs
  · refine hs.congr (if_pos h) ?_
    rintro p c t rfl hc t'
    exact if_pos ((hP t t' hc).1 h)
  · refine hf.congr (if_neg h) ?_
    rintro p c t rfl hc t'
    exact if_neg fun h' => h ((hP t t' hc).2 h')

theorem steady_demand (hcs : cs <:+ text) (x : Char) : Steady text (demand x) (demand x) cs :=
  steady_choose hcs (fun _ _ _ => steady_done ()) (steady_fail hcs _)

theorem steady_optionally {s s' : Scan α} (hcs : cs <:+ text)
    (hs : ∀ rest, rest <:+ text → Steady text s s' rest) :
    Steady text (optionally x s) (optionally x s') cs := by
  refine steady_choose hcs (fun rest _ hr => ?_) (steady_done none)
  have hrest := suffix_of_cons hr
  exact steady_andThen hrest (hs rest hrest) fun a _ _ _ => steady_done (some a)

/-! ## Tokens -/

/-- A run of characters that stops before or at `c` is the same whatever comes after `c`. -/
theorem span_agree {f : Char → Bool} {c : Char} {p q t : List Char}
    (h : (p ++ c :: t).dropWhile f = q ++ c :: t) (t' : List Char) :
    (p ++ c :: t').dropWhile f = q ++ c :: t' ∧
      (p ++ c :: t').takeWhile f = (p ++ c :: t).takeWhile f := by
  induction p with
  | nil =>
    by_cases hc : f c = true
    · rw [List.nil_append, List.dropWhile_cons_of_pos hc] at h
      exact absurd (h ▸ List.dropWhile_suffix f) not_append_cons_suffix
    · rw [List.nil_append, List.dropWhile_cons_of_neg hc] at h
      have hq : q = [] := List.append_left_eq_self.1 h.symm
      simp [hq, hc]
  | cons d p ih =>
    by_cases hd : f d = true
    · rw [List.cons_append, List.dropWhile_cons_of_pos hd] at h
      obtain ⟨h₁, h₂⟩ := ih h
      rw [List.cons_append, List.cons_append, List.dropWhile_cons_of_pos hd,
        List.takeWhile_cons_of_pos hd, List.takeWhile_cons_of_pos hd, h₁, h₂]
      exact ⟨rfl, rfl⟩
    · rw [List.cons_append, List.dropWhile_cons_of_neg hd, ← List.cons_append,
        List.append_left_inj] at h
      subst h
      rw [List.cons_append, List.cons_append, List.dropWhile_cons_of_neg hd,
        List.takeWhile_cons_of_neg hd, List.takeWhile_cons_of_neg hd]
      exact ⟨rfl, rfl⟩

theorem steady_nameRest (c : Char) : Steady text (nameRest c) (nameRest c) cs where
  left h := by
    cases h
    exact List.dropWhile_suffix _
  within h := by cases h
  ok_of_agree hcs _ h t' := by
    subst hcs
    obtain ⟨ha, hq⟩ := Prod.mk.inj (Except.ok.inj h)
    obtain ⟨hdrop, htake⟩ := span_agree hq t'
    rw [nameRest, hdrop, htake, ha]
  error_of_agree _ _ h := by cases h

/-- The run of a number takes a character or ends before it, whatever follows. -/
theorem numberRun_cons_cases (float : Bool) (d : Char) :
    (∃ g, ∀ cs, numberRun float (d :: cs) = (d :: (numberRun g cs).1, (numberRun g cs).2)) ∨
      ∀ cs, numberRun float (d :: cs) = ([], d :: cs, float) := by
  by_cases hd : (d.isDigit || ((d = '+' || d = '-') && float)) = true
  · exact .inl ⟨float, fun cs => by rw [numberRun, if_pos hd]⟩
  by_cases he : (d = '.' || d = 'e' || d = 'E') = true
  · exact .inl ⟨true, fun cs => by rw [numberRun, if_neg hd, if_pos he]⟩
  · exact .inr fun cs => by rw [numberRun, if_neg hd, if_neg he]

theorem numberRun_suffix (float : Bool) (cs : List Char) : (numberRun float cs).2.1 <:+ cs :=
  ⟨_, numberRun_append float cs⟩

theorem numberRun_agree {float : Bool} {c : Char} {p q t : List Char}
    (h : (numberRun float (p ++ c :: t)).2.1 = q ++ c :: t) (t' : List Char) :
    numberRun float (p ++ c :: t') =
      ((numberRun float (p ++ c :: t)).1, q ++ c :: t', (numberRun float (p ++ c :: t)).2.2) := by
  induction p generalizing float with
  | nil =>
    obtain ⟨g, hg⟩ | hg := numberRun_cons_cases float c
    · rw [List.nil_append, hg] at h
      exact absurd (h ▸ numberRun_suffix g t) not_append_cons_suffix
    · rw [List.nil_append, hg] at h
      have hq : q = [] := List.append_left_eq_self.1 h.symm
      rw [List.nil_append, List.nil_append, hg, hg, hq, List.nil_append]
  | cons d p ih =>
    obtain ⟨g, hg⟩ | hg := numberRun_cons_cases float d
    · rw [List.cons_append, hg] at h
      rw [List.cons_append, List.cons_append, hg, hg, ih h]
    · rw [List.cons_append, hg, ← List.cons_append, List.append_left_inj] at h
      rw [List.cons_append, List.cons_append, hg, hg, ← h, List.cons_append]

theorem steady_numberScan {c : Char} (h : c :: cs <:+ text) :
    Steady text (numberScan c) (numberScan c) cs where
  left he := by
    unfold numberScan at he
    split at he
    · cases he
      exact numberRun_suffix false cs
    · cases he
  within he := by
    unfold numberScan at he
    split at he
    · cases he
    · cases he
      exact ⟨h, fun _ _ he => by cases he⟩
  ok_of_agree hcs _ he t' := by
    subst hcs
    unfold numberScan at *
    split at he
    · rename_i hv
      obtain ⟨ha, hq⟩ := Prod.mk.inj (Except.ok.inj he)
      rw [numberRun_agree hq t', hv, ha]
    · cases he
  error_of_agree _ _ he := by
    unfold numberScan at he
    split at he
    · cases he
    · cases he

theorem readStringBody_agree {c : Char} {p q t body : List Char}
    (h : readStringBody (p ++ c :: t) = some (body, q ++ c :: t)) (t' : List Char) :
    readStringBody (p ++ c :: t') = some (body, q ++ c :: t') := by
  obtain ⟨s, hs, hcs⟩ := readStringBody_sound h
  rw [← List.cons_append, ← List.append_assoc, List.append_left_inj] at hcs
  subst hcs
  rw [List.append_assoc]
  exact hs.reads (q ++ c :: t')

theorem steady_stringScan (h : '"' :: cs <:+ text) : Steady text stringScan stringScan cs where
  left he := by
    unfold stringScan at he
    split at he
    · rename_i hb
      cases he
      obtain ⟨s, -, hs⟩ := readStringBody_sound hb
      exact ⟨s ++ ['"'], by rw [hs, List.append_assoc, List.singleton_append]⟩
    · cases he
  within he := by
    unfold stringScan at he
    split at he
    · cases he
    · cases he
      exact ⟨h, fun _ _ he => by cases he⟩
  ok_of_agree hcs _ he t' := by
    subst hcs
    unfold stringScan at *
    split at he
    · rename_i hb
      cases he
      rw [readStringBody_agree hb t']
    · cases he
  error_of_agree _ _ he := by
    unfold stringScan at he
    split at he
    · cases he
    · cases he

/-! ## Readers -/

/-- A scan that is, from every place `o`, another one that may come back to `o` when it fails. -/
theorem steady_of_eq {s : Scan α} {g : List Char → Scan α} (hs : ∀ cs, s cs = g cs cs)
    (h : ∀ o, Steady text (g cs) (g o) cs) : Steady text s s cs where
  left he := (h cs).left ((hs cs).symm.trans he)
  within he := (h cs).within ((hs cs).symm.trans he)
  ok_of_agree hp hc he t' :=
    (hs _).trans ((h _).ok_of_agree hp hc ((hs cs).symm.trans he) t')
  error_of_agree hp hc he t' :=
    (hs _).trans ((h _).error_of_agree hp hc ((hs cs).symm.trans he) t')

theorem steady_nameScan (hcs : cs <:+ text) : Steady text nameScan nameScan cs := by
  refine steady_of_eq (g := fun _ => _) nameScan_eq fun _ =>
    steady_byFirst hcs (fun c rest _ _ => ?_) (steady_fail hcs _)
  split
  · exact .some (steady_nameRest c)
  · exact .none

theorem steady_typeScan (cs : List Char) (hcs : cs <:+ text) : Steady text typeScan typeScan cs := by
  refine steady_of_eq (g := fun _ => _) typeScan_eq fun _ =>
    steady_andThen hcs (steady_choose hcs (fun rest hc hr => ?_) (steady_nameScan hcs))
      fun inner rest _ hr => steady_choose hr (fun _ _ _ => steady_done _) (steady_done _)
  have hlen : rest.length < cs.length := hc.length_le
  have hrest := suffix_of_cons hr
  exact steady_andThen hrest (steady_typeScan rest hrest) fun item _ _ hr =>
    steady_andThen hr (steady_demand hr _) fun _ _ _ _ => steady_done _
termination_by cs.length

theorem steady_wordScan (hcs : cs <:+ text) : Steady text wordScan wordScan cs := by
  refine steady_byFirst hcs (fun c rest _ hr => ?_) (steady_fail hcs _)
  split
  · exact .some (steady_numberScan hr)
  split
  · exact .some (steady_andThen (suffix_of_cons hr) (steady_nameRest c) fun word _ _ _ =>
      steady_done _)
  · exact .none

theorem steady_scalarScan (hcs : cs <:+ text) : Steady text scalarScan scalarScan cs :=
  steady_choose hcs (fun _ _ hr => steady_stringScan hr) (steady_wordScan hcs)

mutual

theorem steady_valueScan (cs : List Char) (hcs : cs <:+ text) :
    Steady text valueScan valueScan cs := by
  refine steady_of_eq (g := fun _ => _) valueScan_eq fun _ =>
    steady_choose hcs (fun rest hc hr => ?_) (steady_choose hcs (fun rest hc hr => ?_)
      (steady_scalarScan hcs))
  · have hlen : rest.length < cs.length := hc.length_le
    have hrest := suffix_of_cons hr
    exact steady_choose hrest (fun _ _ _ => steady_done _)
      (steady_andThen hrest (steady_itemsScan rest hrest) fun items _ _ _ => steady_done _)
  · have hlen : rest.length < cs.length := hc.length_le
    have hrest := suffix_of_cons hr
    exact steady_choose hrest (fun _ _ _ => steady_done _)
      (steady_andThen hrest (steady_fieldsScan rest hrest) fun fields _ _ _ => steady_done _)
termination_by 2 * cs.length

theorem steady_itemsScan (cs : List Char) (hcs : cs <:+ text) :
    Steady text itemsScan itemsScan cs := by
  refine steady_of_eq (g := fun _ => _) itemsScan_eq fun _ =>
    steady_andThen hcs (steady_valueScan cs hcs) fun v r₁ hc₁ hr₁ =>
      steady_choose hr₁ (fun r₂ hc₂ hr₂ => ?_)
        (steady_andThen hr₁ (steady_demand hr₁ _) fun _ _ _ _ => steady_done _)
  have hlen : r₂.length < cs.length := (hc₂.trans hc₁).length_le
  have hrest := suffix_of_cons hr₂
  exact steady_andThen hrest (steady_itemsScan r₂ hrest) fun vs _ _ _ => steady_done _
termination_by 2 * cs.length + 1

theorem steady_fieldsScan (cs : List Char) (hcs : cs <:+ text) :
    Steady text fieldsScan fieldsScan cs := by
  refine steady_of_eq (g := fun _ => _) fieldsScan_eq fun _ =>
    steady_andThen hcs (steady_nameScan hcs) fun key r₁ hc₁ hr₁ =>
      steady_andThen hr₁ (steady_demand hr₁ _) fun _ r₂ hc₂ hr₂ => ?_
  have hlen₂ : r₂.length ≤ cs.length := (hc₂.trans hc₁).length_le
  refine steady_andThen hr₂ (steady_valueScan r₂ hr₂) fun v r₃ hc₃ hr₃ =>
    steady_choose hr₃ (fun r₄ hc₄ hr₄ => ?_)
      (steady_andThen hr₃ (steady_demand hr₃ _) fun _ _ _ _ => steady_done _)
  have hlen₄ : r₄.length < r₂.length := (hc₄.trans hc₃).length_le
  have hrest := suffix_of_cons hr₄
  exact steady_andThen hrest (steady_fieldsScan r₄ hrest) fun fs _ _ _ => steady_done _
termination_by 2 * cs.length + 1

end

theorem steady_variableNameScan (hcs : cs <:+ text) :
    Steady text variableNameScan variableNameScan cs := by
  refine steady_ite (fun {p c} t t' _ => ?_)
    (steady_andThen hcs (steady_nameScan hcs) fun name _ _ _ => steady_done _) (steady_done _)
  cases p with
  | nil => rfl
  | cons d p => rfl

theorem steady_argumentScan (hcs : cs <:+ text) : Steady text argumentScan argumentScan cs := by
  refine steady_choose hcs (fun rest _ hr => ?_) ?_
  · have hrest := suffix_of_cons hr
    exact steady_andThen hrest (steady_variableNameScan hrest) fun name _ _ hr =>
      steady_andThen hr (steady_optionally hr steady_typeScan) fun type _ _ hr =>
        steady_andThen hr (steady_optionally hr steady_valueScan) fun default _ _ _ =>
          steady_done _
  · exact steady_andThen hcs (steady_valueScan cs hcs) fun value _ _ hr =>
      steady_andThen hr (steady_optionally hr steady_typeScan) fun type _ _ _ => steady_done _

theorem steady_argumentsScan (seen : List String) (cs : List Char) (hcs : cs <:+ text) :
    Steady text (argumentsScan seen) (argumentsScan seen) cs := by
  refine steady_of_eq (argumentsScan_eq seen) fun o =>
    steady_andThen hcs (steady_nameScan hcs) fun key r₁ hc₁ hr₁ =>
      steady_andThen hr₁ (steady_demand hr₁ _) fun _ r₂ hc₂ hr₂ =>
        steady_andThen hr₂ (steady_argumentScan hr₂) fun argument r₃ hc₃ hr₃ => ?_
  split
  · exact steady_stray ((skipBlank_suffix cs).trans hcs) fun _ _ he => by cases he
  refine steady_choose hr₃ (fun r₄ hc₄ hr₄ => ?_)
    (steady_andThen hr₃ (steady_demand hr₃ _) fun _ _ _ _ => steady_done _)
  have hlen : r₄.length < cs.length := (hc₄.trans (hc₃.trans (hc₂.trans hc₁))).length_le
  have hrest := suffix_of_cons hr₄
  exact steady_andThen hrest (steady_argumentsScan _ r₄ hrest) fun arguments _ _ _ => steady_done _
termination_by cs.length

theorem steady_itemScan (leading : Bool) (hcs : cs <:+ text) :
    Steady text (itemScan leading) (itemScan leading) cs := by
  refine steady_of_eq (itemScan_eq leading) fun o =>
    steady_andThen hcs (steady_nameScan hcs) fun name r₁ _ hr₁ =>
      steady_choose hr₁ (fun r₂ _ hr₂ => ?_)
        (steady_andThen hr₁ (steady_optionally hr₁ fun _ => steady_nameScan) fun value _ _ _ =>
          steady_done _)
  have hrest := suffix_of_cons hr₂
  split
  · exact steady_choose hrest (fun _ _ _ => steady_done _)
      (steady_andThen hrest (steady_argumentsScan [] r₂ hrest) fun arguments _ _ _ =>
        steady_done _)
  · exact steady_stray ((skipBlank_suffix cs).trans hcs) fun _ _ he => by cases he

theorem steady_end (a : α) :
    Steady text (fun _ => .ok (a, [])) (fun _ => .ok (a, [])) cs where
  left h := by
    cases h
    exact List.nil_suffix
  within h := by cases h
  ok_of_agree _ _ h := by simp at h
  error_of_agree _ _ h := by cases h

theorem steady_allScan (leading : Bool) (cs : List Char) (hcs : cs <:+ text) :
    Steady text (allScan leading) (allScan leading) cs := by
  refine steady_of_eq (g := fun _ => _) (allScan_eq leading) fun _ =>
    steady_andThen hcs (steady_itemScan leading hcs) fun item r₁ hc₁ hr₁ =>
      steady_ite (fun {p c} t t' hc => ?_) (steady_end _)
        (steady_choose hr₁ (fun r₂ hc₂ hr₂ => ?_) (steady_fail hr₁ _))
  · rw [skipBlank_append_cons hc, skipBlank_append_cons hc]
    simp
  · have hlen : r₂.length < cs.length := (hc₂.trans hc₁).length_le
    have hrest := suffix_of_cons hr₂
    exact steady_andThen hrest (steady_allScan false r₂ hrest) fun items _ _ _ => steady_done _
termination_by cs.length

theorem readChars_eq_error {stop : Stop} :
    readChars cs = .error stop ↔ skipBlank cs ≠ [] ∧ allScan true cs = .error stop := by
  unfold readChars allScan
  by_cases h : skipBlank cs = []
  · simp [h]
  · cases readAll true cs with
    | error e => simp [h, Except.map]
    | ok items => simp [h, Except.map]

theorem read_eq_error {text : String} {e : SyntaxError} :
    read text = .error e ↔ ∃ stop, readChars text.toList = .error stop ∧
      e = ⟨stop.fault, byteLength text.toList - byteLength stop.rest⟩ := by
  unfold read
  cases readChars text.toList with
  | error stop => simp [eq_comm]
  | ok a => simp

/-- A text that reading refuses for a character `c` is refused in the same way whatever follows `c`. -/
theorem readChars_agree {c : Char} {p t : List Char} {what : Expectation} (hc : isBlank c = false)
    (h : readChars (p ++ c :: t) = .error ⟨.expected what (some c), c :: t⟩) (t' : List Char) :
    readChars (p ++ c :: t') = .error ⟨.expected what (some c), c :: t'⟩ := by
  obtain ⟨-, hall⟩ := readChars_eq_error.1 h
  refine readChars_eq_error.2 ⟨?_, ?_⟩
  · rw [skipBlank_append_cons hc]
    simp
  · exact (steady_allScan true _ (List.suffix_refl _)).error_of_agree rfl hc hall t'

theorem within_of_readChars {stop : Stop} (h : readChars cs = .error stop) : stop.Within cs cs :=
  (steady_allScan true cs (List.suffix_refl cs)).within (readChars_eq_error.1 h).2

end QueryShape.Annotation
