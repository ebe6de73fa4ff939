import QueryShape.Proofs.AnnotationCursor
import QueryShape.Proofs.AnnotationNumber
import QueryShape.Proofs.AnnotationScan

/-!
# Positions follow what is left

A reader by positions that begins between two characters ends between two characters. It gives what the
scan gives on the characters that are left, and leaves what that one leaves, up to blanks: looking for a
mark passes the blanks before it even where another one comes. It fails where the scan fails, for the same
reason. `Tracks` says all this; that reading by positions never slips is `Cursor.decode_eq`.
-/

set_option autoImplicit false

namespace QueryShape.Annotation.Cursor

open Text Scan

variable {α β γ : Type} {text : String} {cur : Cursor text} {cs rest : List Char}

/-! ## Characters -/

theorem bump_of_at_nil (h : cur.At []) : bump cur = .ok none := by
  have hp := peek_of_at h
  unfold bump
  split
  · rename_i he
    cases hp.symm.trans he
  · rfl
  · rename_i he
    cases hp.symm.trans he

theorem bump_of_at_cons {c : Char} (h : cur.At (c :: rest)) :
    ∃ next, bump cur = .ok (some (c, next)) ∧ next.1.pos = cur.pos + c.utf8Size ∧ next.1.At rest := by
  have hp := peek_of_at h
  unfold bump
  split
  · rename_i c' he
    cases hp.symm.trans he
    obtain ⟨before, htext, hpos⟩ := h
    refine ⟨_, rfl, rfl, before ++ [c], by simp [htext], ?_⟩
    simp [byteLength_append, byteLength, hpos]
  · rename_i he
    cases hp.symm.trans he
  · rename_i he
    cases hp.symm.trans he

theorem ok_bind {ε : Type} (a : α) (f : α → Except ε β) : (Except.ok a >>= f) = f a := rfl

theorem passWhile_of_at {p : Char → Bool} (h : cur.At cs) :
    ∃ next, passWhile p cur = .ok next ∧ next.1.At (cs.dropWhile p) := by
  induction cs generalizing cur with
  | nil =>
    rw [passWhile, bump_of_at_nil h]
    exact ⟨_, rfl, h⟩
  | cons c cs ih =>
    obtain ⟨next, hb, -, hn⟩ := bump_of_at_cons h
    rw [passWhile, hb, ok_bind]
    by_cases hc : p c
    · obtain ⟨last, he, hl⟩ := ih hn
      simp only [hc, if_true, he, ok_bind]
      refine ⟨_, rfl, ?_⟩
      rwa [List.dropWhile_cons_of_pos hc]
    · simp only [hc]
      refine ⟨_, rfl, ?_⟩
      rwa [List.dropWhile_cons_of_neg hc]

/-- What is left at a position, but for the blanks before it. -/
def Near (cur : Cursor text) (rest : List Char) : Prop :=
  ∃ rest', cur.At rest' ∧ skipBlank rest' = skipBlank rest

theorem At.near (h : cur.At rest) : cur.Near rest := ⟨rest, h, rfl⟩

theorem At.near_of_skipBlank (h : cur.At (skipBlank rest)) : cur.Near rest :=
  ⟨_, h, List.dropWhile_idempotent _ _⟩

theorem skipBlanks_of_near (h : cur.Near cs) :
    ∃ next, skipBlanks cur = .ok next ∧ next.1.At (skipBlank cs) := by
  obtain ⟨rest, hat, heq⟩ := h
  rw [← heq]
  exact passWhile_of_at hat

/-! ## Answers -/

/-- The answer by positions is the answer on characters, or the same fault at the same place. -/
inductive Tracks (text : String) (R : α → β → Prop) : Except Halt α → Except Stop β → Prop where
  | ok {a : α} {b : β} (h : R a b) : Tracks text R (.ok a) (.ok b)
  | fault {fault : Fault} {found : Cursor text} {rest : List Char} (h : found.At rest) :
      Tracks text R (.error (.fault ⟨fault, found.pos⟩)) (.error ⟨fault, rest⟩)

/-- One and the same answer, with the same characters left. -/
def Leaves {p : Cursor text → Prop} (e : α × Subtype p) (e' : α × List Char) : Prop :=
  e.1 = e'.1 ∧ e.2.1.Near e'.2

theorem Tracks.bind {α' β' : Type} {R : α → β → Prop} {S : α' → β' → Prop} {r : Except Halt α}
    {r' : Except Stop β} {f : α → Except Halt α'} {g : β → Except Stop β'} (h : Tracks text R r r')
    (hf : ∀ a b, R a b → Tracks text S (f a) (g b)) : Tracks text S (r >>= f) (r' >>= g) := by
  cases h with
  | ok h => exact hf _ _ h
  | fault h => exact .fault h

theorem tracks_done {p : Cursor text → Prop} {next : Cursor text} {a : α} (hp : p next)
    (h : next.Near rest) :
    Tracks text Leaves (.ok (a, (⟨next, hp⟩ : Subtype p))) (done a rest) :=
  .ok ⟨rfl, h⟩

theorem tracks_fail {R : α → β × List Char → Prop} {what : Expectation} {found : Option Char}
    (h : cur.At (skipBlank cs)) (hfound : found = (skipBlank cs).head?) :
    Tracks text R (.error (unexpected what found cur)) (fail what cs) := by
  subst hfound
  exact .fault h

theorem tracks_andThen {p : Cursor text → Prop} {R : γ → β × List Char → Prop}
    {r : Except Halt (α × Subtype p)} {f : α × Subtype p → Except Halt γ} {s : Scan α}
    {k : α → Scan β} (hr : Tracks text Leaves r (s cs))
    (hf : ∀ a next hp rest, next.Near rest → Tracks text R (f (a, ⟨next, hp⟩)) (k a rest)) :
    Tracks text R (r >>= f) ((s.andThen k) cs) := by
  refine hr.bind ?_
  rintro ⟨a, next, hp⟩ ⟨b, rest⟩ ⟨rfl, h⟩
  exact hf a next hp rest h

/-- Saying that an answer is further ahead leaves it as it is. -/
theorem tracks_ahead {p q : Cursor text → Prop} {r : Except Halt (α × Subtype p)}
    {f : α × Subtype p → Except Halt (α × Subtype q)} {r' : Except Stop (α × List Char)}
    (hr : Tracks text Leaves r r')
    (hf : ∀ a next hp, ∃ hq, f (a, ⟨next, hp⟩) = .ok (a, ⟨next, hq⟩)) :
    Tracks text Leaves (r >>= f) r' := by
  cases hr with
  | @ok e e' h =>
    obtain ⟨hq, he⟩ := hf e.1 e.2.1 e.2.2
    rw [ok_bind, he]
    exact .ok h
  | fault h => exact .fault h

theorem tracks_choose {R : γ → β × List Char → Prop} {f : Ahead cur ⊕ Onward cur → Except Halt γ}
    {s s' : Scan β} {x : Char} (h : cur.Near cs)
    (hyes : ∀ next hn rest, next.At rest → Tracks text R (f (.inl ⟨next, hn⟩)) (s rest))
    (hno : ∀ next hn, next.At (skipBlank cs) → Tracks text R (f (.inr ⟨next, hn⟩)) (s' cs)) :
    Tracks text R (eat x cur >>= f) (choose x s s' cs) := by
  obtain ⟨⟨start, hs⟩, he, hat⟩ := skipBlanks_of_near h
  rw [eat, he, ok_bind]
  dsimp only
  cases hb : skipBlank cs with
  | nil =>
    unfold choose
    rw [byFirst_of_nil hb, bump_of_at_nil (hb ▸ hat)]
    exact hno start hs hat
  | cons c rest =>
    obtain ⟨⟨next, hn⟩, he', -, hat'⟩ := bump_of_at_cons (hb ▸ hat)
    rw [choose_of_cons hb, he', ok_bind]
    by_cases hc : c = x
    · simp only [hc, if_true]
      exact hyes next _ rest hat'
    · simp only [hc, if_false]
      exact hno start hs hat

theorem tracks_demand {R : γ → β × List Char → Prop} {f : Ahead cur → Except Halt γ} {k : Scan β}
    {x : Char} (h : cur.Near cs)
    (hf : ∀ next hn rest, next.At rest → Tracks text R (f ⟨next, hn⟩) (k rest)) :
    Tracks text R (expect x cur >>= f) (((demand x).andThen fun _ => k) cs) := by
  have hexpect : Tracks text (fun (next : Ahead cur) e => next.1.At e.2) (expect x cur)
      (demand x cs) := by
    refine tracks_choose h (fun next hn rest hat => .ok hat) fun next hn hat => ?_
    dsimp only
    rw [peek_of_at hat]
    exact tracks_fail hat rfl
  refine hexpect.bind ?_
  rintro ⟨next, hn⟩ ⟨_, rest⟩ hat
  exact hf next hn rest hat

/-! ## Tokens and types -/

theorem name_tracks (h : cur.Near cs) : Tracks text Leaves (name cur) (nameScan cs) := by
  obtain ⟨⟨start, hs⟩, he, hat⟩ := skipBlanks_of_near h
  rw [name, he, ok_bind, nameScan_eq]
  dsimp only
  cases hb : skipBlank cs with
  | nil =>
    rw [byFirst_of_nil hb, bump_of_at_nil (hb ▸ hat)]
    exact tracks_fail hat (by rw [hb]; rfl)
  | cons c rest =>
    rw [hb] at hat
    obtain ⟨⟨next, hn⟩, he', -, hat'⟩ := bump_of_at_cons hat
    rw [byFirst_of_cons hb, he', ok_bind]
    by_cases hc : isNameStart c
    · obtain ⟨⟨last, hl⟩, hw, hlast⟩ := passWhile_of_at (p := isNameChar) hat'
      have hword : slice start last = .ok (String.ofList (c :: rest.takeWhile isNameChar)) := by
        refine slice_of_at ?_ hlast
        rwa [List.cons_append, List.takeWhile_append_dropWhile]
      simp only [hc, if_true, hw, ok_bind, hword]
      exact tracks_done _ hlast.near
    · simp only [hc]
      exact tracks_fail (hb ▸ hat) (by rw [hb]; rfl)

theorem type_tracks (cur : Cursor text) (cs : List Char) (h : cur.Near cs) :
    Tracks text Leaves (type cur) (typeScan cs) := by
  rw [type, typeScan_eq]
  refine tracks_andThen ?_ fun inner r hr cs' hn => ?_
  · refine tracks_choose h (fun r₁ h₁ cs₁ hat => ?_) fun r₁ h₁ hat => ?_
    · refine tracks_andThen (type_tracks r₁ cs₁ hat.near) fun item r₂ h₂ cs₂ hn => ?_
      exact tracks_demand hn fun r₃ h₃ cs₃ hat => tracks_done _ hat.near
    · exact tracks_ahead (name_tracks hat.near_of_skipBlank) fun _ _ _ => ⟨_, rfl⟩
  · refine tracks_choose hn (fun r₁ h₁ cs₁ hat => ?_) fun r₁ h₁ hat => ?_
    · exact tracks_done _ hat.near
    · exact tracks_done _ hat.near_of_skipBlank
termination_by cur.left

/-! ## Values -/

theorem stringBody_of_at (h : cur.At cs) :
    (stringBody cur = .ok none ∧ readStringBody cs = none) ∨
      ∃ s next rest, stringBody cur = .ok (some (s, next)) ∧ readStringBody cs = some (s, rest) ∧
        next.1.At rest := by
  fun_induction readStringBody cs generalizing cur with
  | case1 =>
    rw [stringBody, bump_of_at_nil h]
    exact .inl ⟨rfl, rfl⟩
  | case2 rest =>
    obtain ⟨next, hb, -, hn⟩ := bump_of_at_cons h
    rw [stringBody, hb]
    exact .inr ⟨_, _, _, rfl, rfl, hn⟩
  | case3 =>
    obtain ⟨next, hb, -, hn⟩ := bump_of_at_cons h
    rw [stringBody, hb, ok_bind]
    dsimp only
    rw [if_neg (by decide), if_pos rfl, bump_of_at_nil hn]
    exact .inl ⟨rfl, rfl⟩
  | case4 c rest ih =>
    obtain ⟨next, hb, -, hn⟩ := bump_of_at_cons h
    obtain ⟨next', hb', -, hn'⟩ := bump_of_at_cons hn
    rw [stringBody, hb, ok_bind]
    dsimp only
    rw [if_neg (by decide), if_pos rfl, hb', ok_bind]
    dsimp only
    obtain ⟨he, hr⟩ | ⟨s, last, r, he, hr, hl⟩ := ih hn'
    · rw [he, hr]
      exact .inl ⟨rfl, rfl⟩
    · rw [he, hr]
      exact .inr ⟨_, _, _, rfl, rfl, hl⟩
  | case5 c rest hquote hend hslash ih =>
    obtain ⟨next, hb, -, hn⟩ := bump_of_at_cons h
    rw [stringBody, hb, ok_bind]
    dsimp only
    have hc : c ≠ '\\' := fun hc => by
      cases rest with
      | nil => exact hend hc rfl
      | cons d rest => exact hslash d rest hc rfl
    rw [if_neg hquote, if_neg hc]
    obtain ⟨he, hr⟩ | ⟨s, last, r, he, hr, hl⟩ := ih hn
    · rw [he, hr]
      exact .inl ⟨rfl, rfl⟩
    · rw [he, hr]
      exact .inr ⟨_, _, _, rfl, rfl, hl⟩

theorem passNumber_of_at (float : Bool) (h : cur.At cs) :
    ∃ next, passNumber float cur = .ok ((numberRun float cs).2.2, next) ∧
      next.1.At (numberRun float cs).2.1 := by
  induction cs generalizing cur float with
  | nil =>
    rw [passNumber, bump_of_at_nil h]
    exact ⟨_, rfl, h⟩
  | cons c cs ih =>
    obtain ⟨next, hb, -, hn⟩ := bump_of_at_cons h
    rw [passNumber, hb, ok_bind, numberRun]
    dsimp only
    split
    · obtain ⟨last, he, hl⟩ := ih float hn
      rw [he]
      exact ⟨_, rfl, hl⟩
    split
    · obtain ⟨last, he, hl⟩ := ih true hn
      rw [he]
      exact ⟨_, rfl, hl⟩
    · exact ⟨_, rfl, h⟩

theorem scalar_tracks {start : Cursor text} {c : Char} {next : Ahead start}
    (hb : skipBlank cs = c :: rest) (hat : start.At (c :: rest)) (hn : next.1.At rest) :
    Tracks text Leaves (scalar start c next) (scalarScan cs) := by
  unfold scalarScan wordScan
  rw [scalar, choose_of_cons hb, byFirst_of_cons hb]
  by_cases hq : c = '"'
  · rw [if_pos hq, if_pos hq]
    unfold stringScan
    subst hq
    obtain ⟨he, hr⟩ | ⟨s, ⟨last, hl⟩, r, he, hr, hlast⟩ := stringBody_of_at hn
    · rw [he, hr]
      exact .fault hat
    · rw [he, hr]
      exact tracks_done _ hlast.near
  rw [if_neg hq, if_neg hq]
  split
  · obtain ⟨⟨last, hl⟩, he, hlast⟩ := passNumber_of_at false hn
    have htoken : slice start last = .ok (String.ofList (c :: (numberRun false rest).1)) := by
      refine slice_of_at ?_ hlast
      rwa [List.cons_append, numberRun_append]
    rw [he, ok_bind, Option.elim_some]
    unfold numberScan
    dsimp only
    rw [htoken, ok_bind, String.toList_ofList]
    cases readNumber? (c :: (numberRun false rest).1) (numberRun false rest).2.2 with
    | none => exact .fault hat
    | some v => exact tracks_done _ hlast.near
  split
  · rename_i hc
    have hname := name_tracks (hb ▸ hat : start.At (skipBlank cs)).near_of_skipBlank
    rw [nameScan_eq, byFirst_of_cons hb, if_pos hc, Option.elim_some] at hname
    rw [Option.elim_some]
    exact tracks_andThen hname fun word r h cs' hn => tracks_done _ hn
  · exact tracks_fail (hb ▸ hat) (by rw [hb]; rfl)

mutual

theorem value_tracks (cur : Cursor text) (cs : List Char) (h : cur.Near cs) :
    Tracks text Leaves (value cur) (valueScan cs) := by
  obtain ⟨⟨start, hs⟩, he, hat⟩ := skipBlanks_of_near h
  rw [value, he, ok_bind, valueScan_eq]
  dsimp only
  cases hb : skipBlank cs with
  | nil =>
    unfold choose scalarScan choose wordScan
    rw [byFirst_of_nil hb, byFirst_of_nil hb, byFirst_of_nil hb, byFirst_of_nil hb,
      bump_of_at_nil (hb ▸ hat)]
    exact tracks_fail hat (by rw [hb]; rfl)
  | cons c rest =>
    rw [hb] at hat
    obtain ⟨⟨next, hn⟩, he', -, hat'⟩ := bump_of_at_cons hat
    have hlt : next.left < cur.left := Nat.lt_of_lt_of_le hn hs
    rw [he', ok_bind, choose_of_cons hb, choose_of_cons hb]
    dsimp only
    by_cases hl : c = '['
    · rw [if_pos hl, if_pos hl]
      refine tracks_choose hat'.near (fun r hr cs₁ hat => ?_) fun r₁ h₁ hat => ?_
      · exact tracks_done _ hat.near
      · exact tracks_andThen (items_tracks r₁ rest hat.near_of_skipBlank) fun vs r₂ h₂ cs₂ hn =>
          tracks_done _ hn
    rw [if_neg hl, if_neg hl]
    by_cases ho : c = '{'
    · rw [if_pos ho, if_pos ho]
      refine tracks_choose hat'.near (fun r hr cs₁ hat => ?_) fun r₁ h₁ hat => ?_
      · exact tracks_done _ hat.near
      · exact tracks_andThen (fields_tracks r₁ rest hat.near_of_skipBlank) fun fs r₂ h₂ cs₂ hn =>
          tracks_done _ hn
    · rw [if_neg ho, if_neg ho]
      exact tracks_ahead (scalar_tracks hb hat hat') fun _ _ _ => ⟨_, rfl⟩
termination_by (cur.left, 0)

theorem items_tracks (cur : Cursor text) (cs : List Char) (h : cur.Near cs) :
    Tracks text Leaves (items cur) (itemsScan cs) := by
  rw [items, itemsScan_eq]
  refine tracks_andThen (value_tracks cur cs h) fun v r₁ h₁ cs₁ hn =>
    tracks_choose hn (fun r₂ h₂ cs₂ hat => ?_) fun r₂ h₂ hat => ?_
  · exact tracks_andThen (items_tracks r₂ cs₂ hat.near) fun vs r₃ h₃ cs₃ hn => tracks_done _ hn
  · exact tracks_demand hat.near_of_skipBlank fun r₃ h₃ cs₃ hat => tracks_done _ hat.near
termination_by (cur.left, 1)

theorem fields_tracks (cur : Cursor text) (cs : List Char) (h : cur.Near cs) :
    Tracks text Leaves (fields cur) (fieldsScan cs) := by
  rw [fields, fieldsScan_eq]
  refine tracks_andThen (name_tracks h) fun key r₁ h₁ cs₁ hn =>
    tracks_demand hn fun r₂ h₂ cs₂ hat =>
      tracks_andThen (value_tracks r₂ cs₂ hat.near) fun v r₃ h₃ cs₃ hn =>
        tracks_choose hn (fun r₄ h₄ cs₄ hat => ?_) fun r₄ h₄ hat => ?_
  · exact tracks_andThen (fields_tracks r₄ cs₄ hat.near) fun fs r₅ h₅ cs₅ hn => tracks_done _ hn
  · exact tracks_demand hat.near_of_skipBlank fun r₅ h₅ cs₅ hat => tracks_done _ hat.near
termination_by (cur.left, 1)

end

/-! ## Arguments and items -/

theorem optional_tracks {m : Char} {read : (cur : Cursor text) → Except Halt (α × Ahead cur)}
    {s : Scan α} (hread : ∀ cur cs, cur.Near cs → Tracks text Leaves (read cur) (s cs))
    (h : cur.Near cs) : Tracks text Leaves (optional m read cur) (optionally m s cs) := by
  refine tracks_choose h (fun r₁ h₁ cs₁ hat => ?_) fun r₁ h₁ hat => ?_
  · exact tracks_andThen (hread r₁ cs₁ hat.near) fun a r₂ h₂ cs₂ hn => tracks_done _ hn
  · exact tracks_done _ hat.near_of_skipBlank

theorem variableName_tracks (h : cur.At cs) :
    Tracks text Leaves (variableName cur) (variableNameScan cs) := by
  unfold variableName variableNameScan
  rw [peek_of_at h, ok_bind]
  split
  · exact tracks_andThen (name_tracks h.near) fun word r hr cs' hn => tracks_done _ hn
  · exact tracks_done _ h.near

theorem argument_tracks (h : cur.Near cs) :
    Tracks text Leaves (argument cur) (argumentScan cs) := by
  refine tracks_choose h (fun r₁ h₁ cs₁ hat => ?_) fun r₁ h₁ hat => ?_
  · exact tracks_andThen (variableName_tracks hat) fun word r₂ h₂ cs₂ hn =>
      tracks_andThen (optional_tracks type_tracks hn) fun type r₃ h₃ cs₃ hn =>
        tracks_andThen (optional_tracks value_tracks hn) fun default r₄ h₄ cs₄ hn => tracks_done _ hn
  · exact tracks_andThen (value_tracks r₁ cs hat.near_of_skipBlank) fun v r₂ h₂ cs₂ hn =>
      tracks_andThen (optional_tracks type_tracks hn) fun type r₃ h₃ cs₃ hn => tracks_done _ hn

theorem arguments_tracks (seen : List String) (cur : Cursor text) (cs : List Char) (h : cur.Near cs) :
    Tracks text Leaves (arguments seen cur) (argumentsScan seen cs) := by
  obtain ⟨⟨start, hs⟩, he, hat⟩ := skipBlanks_of_near h
  rw [arguments, he, ok_bind, argumentsScan_eq]
  refine tracks_andThen (name_tracks hat.near_of_skipBlank) fun key r₁ h₁ cs₁ hn =>
    tracks_demand hn fun r₂ h₂ cs₂ hat₂ =>
      tracks_andThen (argument_tracks hat₂.near) fun arg r₃ h₃ cs₃ hn => ?_
  dsimp only
  split
  · exact .fault hat
  · refine tracks_choose hn (fun r₄ h₄ cs₄ hat => ?_) fun r₄ h₄ hat => ?_
    · have hlt : r₄.left < cur.left := by omega
      exact tracks_andThen (arguments_tracks (key :: seen) r₄ cs₄ hat.near) fun args r₅ h₅ cs₅ hn =>
        tracks_done _ hn
    · exact tracks_demand hat.near_of_skipBlank fun r₅ h₅ cs₅ hat => tracks_done _ hat.near
termination_by cur.left

theorem item_tracks (leading : Bool) (h : cur.Near cs) :
    Tracks text Leaves (item leading cur) (itemScan leading cs) := by
  obtain ⟨⟨start, hs⟩, he, hat⟩ := skipBlanks_of_near h
  rw [item, he, ok_bind, itemScan_eq]
  refine tracks_andThen (name_tracks hat.near_of_skipBlank) fun word r₁ h₁ cs₁ hn =>
    tracks_choose hn (fun r₂ h₂ cs₂ hat₂ => ?_) fun r₂ h₂ hat₂ => ?_
  · dsimp only
    split
    · refine tracks_choose hat₂.near (fun r₃ h₃ cs₃ hat => ?_) fun r₃ h₃ hat => ?_
      · exact tracks_done _ hat.near
      · exact tracks_andThen (arguments_tracks [] r₃ cs₂ hat.near_of_skipBlank)
          fun args r₄ h₄ cs₄ hn => tracks_done _ hn
    · exact .fault hat
  · exact tracks_andThen (optional_tracks (fun _ _ => name_tracks) hat₂.near_of_skipBlank)
      fun v r₃ h₃ cs₃ hn => tracks_done _ hn

/-- All items; a character passed in place of a comma is reported from before it. -/
theorem all_tracks (leading : Bool) (cur : Cursor text) (cs : List Char) (h : cur.Near cs) :
    Tracks text (fun its e => its = e.1) (all leading cur) (allScan leading cs) := by
  rw [all, allScan_eq]
  refine tracks_andThen (item_tracks leading h) fun it r₁ h₁ cs₁ hn => ?_
  obtain ⟨⟨r₂, h₂⟩, he, hat⟩ := skipBlanks_of_near hn
  dsimp only
  rw [he, ok_bind]
  dsimp only
  cases hb : skipBlank cs₁ with
  | nil =>
    rw [bump_of_at_nil (hb ▸ hat), if_pos rfl]
    exact .ok rfl
  | cons c rest =>
    rw [hb] at hat
    obtain ⟨⟨next, hnext⟩, he', hpos, hat'⟩ := bump_of_at_cons hat
    rw [he', ok_bind, if_neg (List.cons_ne_nil c rest), choose_of_cons hb]
    dsimp only
    split
    · have hlt : next.left < cur.left := by dsimp only at hnext; omega
      refine (all_tracks false next rest hat'.near).bind ?_
      rintro its ⟨its', rest'⟩ rfl
      exact .ok rfl
    · have hbefore : unexpectedBefore (.char ',') c next = unexpected (.char ',') (some c) r₂ := by
        dsimp only at hpos
        rw [unexpectedBefore, if_pos (by omega), unexpected, hpos, Nat.add_sub_cancel]
      rw [hbefore]
      exact tracks_fail (hb ▸ hat) (by rw [hb]; rfl)
termination_by cur.left

/-! ## Annotations -/

theorem At.pos_eq (h : cur.At rest) : cur.pos = byteLength text.toList - byteLength rest := by
  obtain ⟨before, htext, hpos⟩ := h
  rw [htext, byteLength_append, Nat.add_sub_cancel, hpos]

/-- Reading by positions gives what reading gives, and never slips. -/
theorem decode_eq (text : String) : decode text = (read text).mapError .fault := by
  have hstart : (start text).Near text.toList := at_start.near
  obtain ⟨⟨first, hf⟩, he, hat⟩ := skipBlanks_of_near hstart
  rw [decode, he, ok_bind, read, readChars]
  dsimp only
  rw [peek_of_at hat, ok_bind]
  cases hb : skipBlank text.toList with
  | nil => rfl
  | cons c rest =>
    have hall := all_tracks true first text.toList hat.near_of_skipBlank
    rw [if_neg (List.cons_ne_nil c rest)]
    unfold allScan at hall
    generalize all true first = r at hall ⊢
    cases hr : readAll true text.toList with
    | ok its =>
      rw [hr] at hall
      cases hall with
      | ok h => subst h; rfl
    | error stop =>
      rw [hr] at hall
      cases hall with
      | fault h => exact congrArg (fun n => Except.error (Halt.fault ⟨_, n⟩)) h.pos_eq

end QueryShape.Annotation.Cursor
