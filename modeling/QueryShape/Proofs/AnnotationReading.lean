import QueryShape.Proofs.AnnotationValue

/-!
# Reading annotations follows the grammar

`read_iff_derives`: a text is read as an annotation just if it is blank or derived by the
grammar, and what is read is what the text denotes.

The optional parts of an argument or a flag are told apart by the mark before them. So a text of one is
read as a whole only where none of these marks follows it, as `Ends` says of what follows: after an
argument come a comma or the closing parenthesis, after a flag a comma or the end of the text.
-/

set_option autoImplicit false

namespace QueryShape.Annotation

open Text

variable {α : Type} {cs s rest marks : List Char} {x : Char}

/-! ## Optional parts -/

theorem Optionally.ends {P : List Char → α → Prop} {o : Option α} (h : Optionally x P s o)
    (hx : isMark x = true) (hm : x ∉ marks) (hr : Ends marks rest) : Ends marks (s ++ rest) := by
  cases h with
  | none => exact hr
  | some hmark _ =>
    rw [List.append_assoc]
    exact hmark.ends hx marks _ hm

theorem optional_sound {P : List Char → α → Prop} {read : (cs : List Char) → Reading α cs}
    (hread : ∀ {cs a rest}, Reads (read cs) a rest → ∃ s, P s a ∧ cs = s ++ rest) {o : Option α}
    (h : Reads (optional x read cs) o rest) : ∃ s, Optionally x P s o ∧ cs = s ++ rest := by
  unfold optional at h
  split at h
  · rename_i r₁ h₁ he
    obtain ⟨m, hm, hcs⟩ := eat?_sound he
    obtain ⟨⟨a, r₂, h₂⟩, ha, h⟩ := reads_bind.1 h
    obtain ⟨rfl, rfl⟩ := reads_pure.1 h
    obtain ⟨s, hs, hr₁⟩ := hread ⟨h₂, ha⟩
    exact ⟨m ++ s, .some hm hs, by rw [hcs, hr₁, List.append_assoc]⟩
  · obtain ⟨rfl, rfl⟩ := reads_pure.1 h
    exact ⟨[], .none, rfl⟩

theorem Optionally.reads {P : List Char → α → Prop} {read : (cs : List Char) → Reading α cs}
    {o : Option α} (h : Optionally x P s o) (hx : isMark x = true)
    (hread : ∀ {s a}, P s a → Reads (read (s ++ rest)) a rest) (hr : Ends [x] rest) :
    Reads (optional x read (s ++ rest)) o rest := by
  unfold optional
  cases h with
  | none =>
    rw [List.nil_append, hr.eat?_eq_none List.mem_cons_self]
    exact reads_pure.2 ⟨rfl, rfl⟩
  | some hm hs =>
    obtain ⟨h₁, he⟩ := hm.eat?_eq (isBlank_of_isMark hx) (_ ++ rest)
    obtain ⟨h₂, ha⟩ := hread hs
    rw [List.append_assoc, he]
    exact reads_bind.2 ⟨_, ha, reads_pure.2 ⟨rfl, rfl⟩⟩

/-! ## Arguments -/

theorem readVariableName_sound {name : Option String} (h : Reads (readVariableName cs) name rest) :
    ∃ s, VariableName s name ∧ cs = s ++ rest := by
  unfold readVariableName at h
  split at h
  · rename_i hs
    obtain ⟨⟨n, r, hr⟩, hn, h⟩ := reads_bind.1 h
    obtain ⟨rfl, rfl⟩ := reads_pure.1 h
    obtain ⟨c, cs, rfl, hc⟩ : ∃ c cs', cs = c :: cs' ∧ isNameStart c = true := by
      cases cs with
      | nil => simp at hs
      | cons c cs => exact ⟨c, cs, rfl, by simpa using hs⟩
    obtain ⟨_, hname, hcs⟩ := readName_sound ⟨hr, hn⟩
    -- no blank is skipped before the first character of a name
    obtain @⟨w, t, hw, ht⟩ := hname
    cases w with
    | nil => exact ⟨t, .present ht, hcs⟩
    | cons b w =>
      cases hcs
      have hb := hw c List.mem_cons_self
      rw [isBlank_of_isNameStart hc] at hb
      cases hb
  · obtain ⟨rfl, rfl⟩ := reads_pure.1 h
    exact ⟨[], .absent, rfl⟩

theorem VariableName.reads {n : List Char} {name : Option String} (h : VariableName n name)
    (hr : Ends marks rest) : Reads (readVariableName (n ++ rest)) name rest := by
  unfold readVariableName
  cases h with
  | absent =>
    have hhead : ¬ ([] ++ rest).head?.any isNameStart = true := by
      intro hany
      cases rest with
      | nil => cases hany
      | cons c rest =>
        have hc := (hr.run c rfl).1
        rw [isNameChar_of_isNameStart hany] at hc
        cases hc
    rw [if_neg hhead]
    exact reads_pure.2 ⟨rfl, rfl⟩
  | present ht =>
    have hhead : (n ++ rest).head?.any isNameStart = true := by
      cases n with
      | nil => cases ht
      | cons c t =>
        simp only [isName, Bool.and_eq_true] at ht
        exact ht.1
    obtain ⟨_, hn⟩ := (NameText.mk (w := []) (by simp [Blanks]) ht).reads hr
    rw [if_pos hhead]
    exact reads_bind.2 ⟨_, hn, reads_pure.2 ⟨rfl, rfl⟩⟩

theorem readArgument_sound {a : Argument} (h : Reads (readArgument cs) a rest) :
    ∃ s, ArgumentText s a ∧ cs = s ++ rest := by
  unfold readArgument at h
  split at h
  · rename_i r₁ h₁ he
    obtain ⟨d, hd, hcs⟩ := eat?_sound he
    obtain ⟨⟨name, r₂, h₂⟩, hn, h⟩ := reads_bind.1 h
    obtain ⟨⟨type, r₃, h₃⟩, ht, h⟩ := reads_bind.1 h
    obtain ⟨⟨default, r₄, h₄⟩, hv, h⟩ := reads_bind.1 h
    obtain ⟨rfl, rfl⟩ := reads_pure.1 h
    obtain ⟨n, hn, hr₁⟩ := readVariableName_sound ⟨h₂, hn⟩
    obtain ⟨t, ht, hr₂⟩ := optional_sound readType_sound ⟨h₃, ht⟩
    obtain ⟨v, hv, hr₃⟩ := optional_sound readValue_sound ⟨h₄, hv⟩
    exact ⟨_, .ofVariable hd hn ht hv, by simp [hcs, hr₁, hr₂, hr₃]⟩
  · obtain ⟨⟨value, r₁, h₁⟩, hv, h⟩ := reads_bind.1 h
    obtain ⟨⟨type, r₂, h₂⟩, ht, h⟩ := reads_bind.1 h
    obtain ⟨rfl, rfl⟩ := reads_pure.1 h
    obtain ⟨v, hv, hcs⟩ := readValue_sound ⟨h₁, hv⟩
    obtain ⟨t, ht, hr₁⟩ := optional_sound readType_sound ⟨h₂, ht⟩
    exact ⟨_, .ofLiteral hv ht, by simp [hcs, hr₁]⟩

theorem ArgumentText.reads {a : Argument} (h : ArgumentText s a) (hr : Ends [':', '=', '!'] rest) :
    Reads (readArgument (s ++ rest)) a rest := by
  cases h with
  | @ofVariable d n t v name type default hd hn ht hv =>
    have hassoc : d ++ (n ++ (t ++ v)) ++ rest = d ++ (n ++ (t ++ (v ++ rest))) := by simp
    have hrv : Ends [':', '!'] (v ++ rest) := hv.ends (by decide) (by decide) (hr.mono (by decide))
    have hrt : Ends ['!'] (t ++ (v ++ rest)) := ht.ends (by decide) (by decide) (hrv.mono (by decide))
    obtain ⟨h₁, he⟩ := hd.eat?_eq (by decide) (n ++ (t ++ (v ++ rest)))
    obtain ⟨h₂, hname⟩ := hn.reads hrt
    obtain ⟨h₃, htype⟩ := ht.reads (by decide) (fun ht => ht.reads (hrv.mono (by decide)))
      (hrv.mono (by decide))
    obtain ⟨h₄, hvalue⟩ := hv.reads (by decide) (fun hv => hv.reads hr) (hr.mono (by decide))
    rw [hassoc, readArgument, he]
    exact reads_bind.2 ⟨_, hname, reads_bind.2 ⟨_, htype, reads_bind.2 ⟨_, hvalue,
      reads_pure.2 ⟨rfl, rfl⟩⟩⟩⟩
  | @ofLiteral v t value type hv ht =>
    have hrt : Ends [] (t ++ rest) := ht.ends (by decide) (by decide) (hr.mono (by decide))
    obtain ⟨h₁, hvalue⟩ := hv.reads hrt
    obtain ⟨h₂, htype⟩ := ht.reads (by decide) (fun ht => ht.reads (hr.mono (by decide)))
      (hr.mono (by decide))
    rw [List.append_assoc, readArgument, hv.eat?_eq_none (by decide)]
    exact reads_bind.2 ⟨_, hvalue, reads_bind.2 ⟨_, htype, reads_pure.2 ⟨rfl, rfl⟩⟩⟩

theorem readArguments_sound {seen : List String} {cs rest : List Char}
    {arguments : List (String × Argument)} (h : Reads (readArguments seen cs) arguments rest) :
    ∃ s m, Separated (Keyed ArgumentText) s arguments ∧ Mark ')' m ∧ cs = s ++ (m ++ rest) ∧
      (arguments.map Prod.fst).Nodup ∧ ∀ key ∈ arguments.map Prod.fst, key ∉ seen := by
  rw [readArguments] at h
  obtain ⟨⟨key, r₁, h₁⟩, hk, h⟩ := reads_bind.1 h
  obtain ⟨⟨r₂, h₂⟩, hcolon, h⟩ := reads_bind.1 h
  obtain ⟨⟨argument, r₃, h₃⟩, ha, h⟩ := reads_bind.1 h
  obtain ⟨k, hk, hcs⟩ := readName_sound ⟨h₁, hk⟩
  obtain ⟨colon, hcolon, hr₁⟩ := expect_sound hcolon
  obtain ⟨s, hs, hr₂⟩ := readArgument_sound ⟨h₃, ha⟩
  dsimp only at h
  split at h
  · obtain ⟨_, he, -⟩ := reads_bind.1 h
    cases he
  rename_i hkey
  split at h
  · rename_i r₄ h₄ he
    obtain ⟨m, hm, hr₃⟩ := eat?_sound he
    obtain ⟨⟨as, r₅, h₅⟩, has, h⟩ := reads_bind.1 h
    obtain ⟨rfl, rfl⟩ := reads_pure.1 h
    obtain ⟨t, c, ht, hc, hr₄, hd, hseen⟩ := readArguments_sound ⟨h₅, has⟩
    refine ⟨_, c, .cons (.mk hk hcolon hs) hm ht, hc, by simp [hcs, hr₁, hr₂, hr₃, hr₄], ?_, ?_⟩
    · exact List.nodup_cons.2 ⟨fun hmem => hseen key hmem List.mem_cons_self, hd⟩
    · rw [List.map_cons, List.forall_mem_cons]
      exact ⟨hkey, fun k hk hmem => hseen k hk (List.mem_cons_of_mem _ hmem)⟩
  · obtain ⟨⟨r₄, h₄⟩, he, h⟩ := reads_bind.1 h
    obtain ⟨rfl, rfl⟩ := reads_pure.1 h
    obtain ⟨c, hc, hr₃⟩ := expect_sound he
    refine ⟨_, c, .one (.mk hk hcolon hs), hc, by simp [hcs, hr₁, hr₂, hr₃], ?_, ?_⟩
    · exact List.nodup_singleton key
    · simpa using hkey
termination_by cs.length

theorem Separated.reads_arguments {seen : List String} {arguments : List (String × Argument)}
    {m : List Char} (h : Separated (Keyed ArgumentText) s arguments) (hm : Mark ')' m)
    (hd : (arguments.map Prod.fst).Nodup) (hseen : ∀ key ∈ arguments.map Prod.fst, key ∉ seen)
    (rest : List Char) : Reads (readArguments seen (s ++ (m ++ rest))) arguments rest := by
  induction h generalizing seen with
  | @one s e h =>
    obtain ⟨t, r, h, -, ⟨h₁, hkey⟩, h₂, hcolon⟩ := h.reads_key (m ++ rest)
    obtain ⟨h₃, ha⟩ := h.reads (hm.ends (by decide) _ rest (by decide))
    obtain ⟨h₄, hclose⟩ := hm.expect_eq (by decide) rest
    rw [readArguments]
    refine reads_bind.2 ⟨_, hkey, reads_bind.2 ⟨_, hcolon, reads_bind.2 ⟨_, ha, ?_⟩⟩⟩
    dsimp only
    rw [if_neg (hseen e.1 List.mem_cons_self), hm.eat?_eq_none (by decide) (by decide)]
    exact reads_bind.2 ⟨_, hclose, reads_pure.2 ⟨rfl, rfl⟩⟩
  | @cons s c t e es h hc ht ih =>
    rw [List.map_cons, List.nodup_cons] at hd
    rw [List.map_cons, List.forall_mem_cons] at hseen
    have hseen' : ∀ k ∈ es.map Prod.fst, k ∉ e.1 :: seen := by
      intro k hk hmem
      rcases List.mem_cons.1 hmem with he | hmem
      · exact hd.1 (he ▸ hk)
      · exact hseen.2 k hk hmem
    obtain ⟨u, r, h, -, ⟨h₁, hkey⟩, h₂, hcolon⟩ := h.reads_key (c ++ (t ++ (m ++ rest)))
    obtain ⟨h₃, ha⟩ := h.reads (hc.ends (by decide) _ (t ++ (m ++ rest)) (by decide))
    obtain ⟨h₄, he⟩ := hc.eat?_eq (by decide) (t ++ (m ++ rest))
    obtain ⟨h₅, hes⟩ := ih hd.2 hseen'
    rw [List.append_assoc, List.append_assoc, readArguments]
    refine reads_bind.2 ⟨_, hkey, reads_bind.2 ⟨_, hcolon, reads_bind.2 ⟨_, ha, ?_⟩⟩⟩
    dsimp only
    rw [if_neg hseen.1, he]
    exact reads_bind.2 ⟨_, hes, reads_pure.2 ⟨rfl, rfl⟩⟩

/-! ## Items -/

theorem readItem_sound {leading : Bool} {item : Item} (h : Reads (readItem leading cs) item rest) :
    (∃ s name arguments, leading = true ∧ item = .call name arguments ∧ CallText s name arguments ∧
      cs = s ++ rest) ∨ ∃ s flag, item = .flag flag ∧ FlagText s flag ∧ cs = s ++ rest := by
  unfold readItem at h
  obtain ⟨⟨name, r₁, h₁⟩, hn, h⟩ := reads_bind.1 h
  obtain ⟨n, hn, hcs⟩ := readName_sound ⟨h₁, hn⟩
  dsimp only at h
  split at h
  · rename_i r₂ h₂ he
    obtain ⟨o, ho, hr₁⟩ := eat?_sound he
    split at h
    · rename_i hl
      refine .inl ?_
      split at h
      · rename_i r₃ h₃ he
        obtain ⟨c, hc, hr₂⟩ := eat?_sound he
        obtain ⟨rfl, rfl⟩ := reads_pure.1 h
        exact ⟨_, name, [], hl, rfl, .mk hn ho .nil List.nodup_nil hc, by simp [hcs, hr₁, hr₂]⟩
      · obtain ⟨⟨arguments, r₃, h₃⟩, ha, h⟩ := reads_bind.1 h
        obtain ⟨rfl, rfl⟩ := reads_pure.1 h
        obtain ⟨s, c, hs, hc, hr₂, hd, -⟩ := readArguments_sound ⟨h₃, ha⟩
        exact ⟨_, name, arguments, hl, rfl, .mk hn ho (.some hs) hd hc, by simp [hcs, hr₁, hr₂]⟩
    · exact absurd h not_reads_error
  · refine .inr ?_
    obtain ⟨⟨value, r₂, h₂⟩, hv, h⟩ := reads_bind.1 h
    obtain ⟨rfl, rfl⟩ := reads_pure.1 h
    obtain ⟨v, hv, hr₁⟩ := optional_sound readName_sound ⟨h₂, hv⟩
    exact ⟨_, _, rfl, .mk hn hv, by simp [hcs, hr₁]⟩

theorem skipBlank_ne_nil_of_readItem {leading : Bool} {item : Item}
    (h : Reads (readItem leading cs) item rest) : skipBlank cs ≠ [] := by
  unfold readItem at h
  obtain ⟨⟨name, r, hr⟩, hn, -⟩ := reads_bind.1 h
  obtain ⟨n, hn, hcs⟩ := readName_sound ⟨hr, hn⟩
  obtain ⟨c, t, hs, -⟩ := hn.skipBlank_eq r
  rw [hcs, hs]
  exact List.cons_ne_nil _ _

theorem CallText.reads {name : String} {arguments : List (String × Argument)}
    (h : CallText s name arguments) (rest : List Char) :
    Reads (readItem true (s ++ rest)) (.call name arguments) rest := by
  obtain @⟨n, o, s, c, name, arguments, hn, ho, h, hd, hc⟩ := h
  have hassoc : n ++ (o ++ (s ++ c)) ++ rest = n ++ (o ++ (s ++ (c ++ rest))) := by simp
  obtain ⟨h₁, hname⟩ := hn.reads (ho.ends (by decide) [] (s ++ (c ++ rest)) List.not_mem_nil)
  obtain ⟨h₂, hopen⟩ := ho.eat?_eq (by decide) (s ++ (c ++ rest))
  rw [hassoc, readItem]
  refine reads_bind.2 ⟨_, hname, ?_⟩
  dsimp only
  rw [hopen]
  dsimp only
  rw [if_pos rfl]
  cases h with
  | nil =>
    obtain ⟨h₃, hclose⟩ : ∃ h, eat? ')' ([] ++ (c ++ rest)) = some ⟨rest, h⟩ :=
      hc.eat?_eq (by decide) rest
    rw [hclose]
    exact reads_pure.2 ⟨rfl, rfl⟩
  | some h =>
    obtain ⟨h₃, ha⟩ := h.reads_arguments hc hd (fun _ _ => List.not_mem_nil) rest
    rw [h.eat?_eq_none (fun ha => ha.eat?_eq_none (x := ')') (by decide))]
    exact reads_bind.2 ⟨_, ha, reads_pure.2 ⟨rfl, rfl⟩⟩

theorem FlagText.reads {leading : Bool} {flag : Flag} (h : FlagText s flag)
    (hr : Ends ['(', '='] rest) : Reads (readItem leading (s ++ rest)) (.flag flag) rest := by
  obtain @⟨n, v, name, value, hn, hv⟩ := h
  have hrv : Ends ['('] (v ++ rest) := hv.ends (by decide) (by decide) (hr.mono (by decide))
  obtain ⟨h₁, hname⟩ := hn.reads hrv
  obtain ⟨h₂, hvalue⟩ := hv.reads (by decide) (fun hv => hv.reads hr) (hr.mono (by decide))
  rw [List.append_assoc, readItem]
  refine reads_bind.2 ⟨_, hname, ?_⟩
  dsimp only
  rw [hrv.eat?_eq_none List.mem_cons_self]
  exact reads_bind.2 ⟨_, hvalue, reads_pure.2 ⟨rfl, rfl⟩⟩

/-- One item, and either the end of the text or a comma and further items. -/
theorem readAll_sound {leading : Bool} {items : List Item} (h : readAll leading cs = .ok items) :
    ∃ item r, Reads (readItem leading cs) item r ∧
      ((items = [item] ∧ Blanks r) ∨ ∃ m r' items', items = item :: items' ∧ Mark ',' m ∧
        r = m ++ r' ∧ r'.length < cs.length ∧ readAll false r' = .ok items') := by
  rw [readAll] at h
  obtain ⟨⟨item, r₁, h₁⟩, hi, h⟩ := bind_eq_ok.1 h
  refine ⟨item, r₁, ⟨h₁, hi⟩, ?_⟩
  dsimp only at h
  split at h
  · rename_i hr
    cases h
    exact .inl ⟨rfl, blanks_of_skipBlank hr⟩
  · obtain ⟨⟨r₂, h₂⟩, he, h⟩ := bind_eq_ok.1 h
    obtain ⟨items', hs, h⟩ := bind_eq_ok.1 h
    obtain ⟨m, hm, hr₁⟩ := expect_sound he
    cases h
    exact .inr ⟨m, r₂, items', rfl, hm, hr₁, Nat.lt_trans h₂ h₁, hs⟩

/-- Items without a leading call are flags. -/
theorem readAll_flags_sound {cs : List Char} {leading : Bool} {items : List Item}
    (h : readAll leading cs = .ok items)
    (hl : leading = true → ∀ name arguments, items.head? ≠ some (.call name arguments)) :
    ∃ s w flags, items = flags.map .flag ∧ Separated FlagText s flags ∧ Blanks w ∧ cs = s ++ w := by
  obtain ⟨item, r, hi, h⟩ := readAll_sound h
  obtain ⟨_, name, arguments, hlead, rfl, -⟩ | ⟨s, flag, rfl, hs, hcs⟩ := readItem_sound hi
  · obtain ⟨rfl, -⟩ | ⟨_, _, _, rfl, -⟩ := h
    · exact absurd rfl (hl hlead name arguments)
    · exact absurd rfl (hl hlead name arguments)
  obtain ⟨rfl, hr⟩ | ⟨m, r', items', rfl, hm, hr, hlt, hall⟩ := h
  · exact ⟨s, r, [flag], rfl, .one hs, hr, hcs⟩
  · obtain ⟨t, w, flags, rfl, ht, hw, hr'⟩ := readAll_flags_sound hall (fun h => by cases h)
    exact ⟨_, w, flag :: flags, rfl, .cons hs hm ht, hw, by simp [hcs, hr, hr']⟩
termination_by cs.length

theorem ofItems_flags (flags : List Flag) : ofItems (flags.map .flag) = { flags } := by
  induction flags with
  | nil => rfl
  | cons flag flags ih => rw [List.map_cons, ofItems, ih]

theorem readAll_last {leading : Bool} {item : Item} (hi : Reads (readItem leading cs) item rest)
    (hr : Blanks rest) : readAll leading cs = .ok [item] := by
  obtain ⟨h₁, hi⟩ := hi
  rw [readAll]
  refine bind_eq_ok.2 ⟨_, hi, ?_⟩
  dsimp only
  rw [if_pos hr.skipBlank_eq_nil]
  rfl

theorem readAll_cons {leading : Bool} {item : Item} {items : List Item} {m : List Char}
    (hi : Reads (readItem leading cs) item (m ++ rest)) (hm : Mark ',' m)
    (h : readAll false rest = .ok items) : readAll leading cs = .ok (item :: items) := by
  obtain ⟨h₁, hi⟩ := hi
  obtain ⟨h₂, he⟩ := hm.expect_eq (by decide) rest
  rw [readAll]
  refine bind_eq_ok.2 ⟨_, hi, ?_⟩
  dsimp only
  rw [if_neg (by rw [hm.skipBlank_eq (by decide)]; exact List.cons_ne_nil _ _)]
  exact bind_eq_ok.2 ⟨_, he, bind_eq_ok.2 ⟨items, h, rfl⟩⟩

theorem Separated.readAll_flags {flags : List Flag} {w : List Char} (h : Separated FlagText s flags)
    (hw : Blanks w) (leading : Bool) : readAll leading (s ++ w) = .ok (flags.map .flag) := by
  induction h generalizing leading with
  | one h => exact readAll_last (h.reads (hw.ends _)) hw
  | @cons s m t flag flags h hm ht ih =>
    rw [List.append_assoc, List.append_assoc]
    exact readAll_cons (h.reads (hm.ends (by decide) _ (t ++ w) (by decide))) hm (ih false)

theorem readChars_of_readAll {items : List Item} (h : readAll true cs = .ok items) :
    readChars cs = .ok (ofItems items) := by
  have hne : skipBlank cs ≠ [] := by
    obtain ⟨item, r, hi, -⟩ := readAll_sound h
    exact skipBlank_ne_nil_of_readItem hi
  rw [readChars, if_neg hne, h]
  rfl

theorem readChars_sound {a : Annotation} (h : readChars cs = .ok a) :
    (Blanks cs ∧ a = {}) ∨ Derives cs a := by
  unfold readChars at h
  split at h
  · rename_i hs
    cases h
    exact .inl ⟨blanks_of_skipBlank hs, rfl⟩
  refine .inr ?_
  cases hall : readAll true cs with
  | error stop =>
    rw [hall] at h
    cases h
  | ok items =>
    rw [hall] at h
    cases h
    obtain ⟨item, r, hi, h⟩ := readAll_sound hall
    obtain ⟨s, name, arguments, -, rfl, hs, hcs⟩ | ⟨s, flag, rfl, -⟩ := readItem_sound hi
    · obtain ⟨rfl, hr⟩ | ⟨m, r', items', rfl, hm, hr, -, hrest⟩ := h
      · exact hcs ▸ .call hs hr
      · obtain ⟨t, w, flags, rfl, ht, hw, hr'⟩ := readAll_flags_sound hrest (fun h => by cases h)
        rw [hcs, hr, hr', ofItems, ofItems_flags]
        exact .callFlags hs hm ht hw
    · have hhead : ∀ name arguments, items.head? ≠ some (.call name arguments) := by
        obtain ⟨rfl, -⟩ | ⟨_, _, _, rfl, -⟩ := h <;> simp
      obtain ⟨t, w, flags, rfl, ht, hw, hcs⟩ := readAll_flags_sound hall fun _ => hhead
      rw [hcs, ofItems_flags]
      exact .flags ht hw

theorem Derives.readChars_eq {a : Annotation} (h : Derives cs a) : readChars cs = .ok a := by
  cases h with
  | flags h hw => rw [readChars_of_readAll (h.readAll_flags hw true), ofItems_flags]
  | @call s w name arguments h hw => exact readChars_of_readAll (readAll_last (h.reads w) hw)
  | @callFlags s m t w name arguments flags h hm hf hw =>
    rw [readChars_of_readAll (readAll_cons (h.reads (m ++ (t ++ w))) hm (hf.readAll_flags hw false)),
      ofItems, ofItems_flags]

theorem readChars_eq_ok_iff {a : Annotation} :
    readChars cs = .ok a ↔ (Blanks cs ∧ a = {}) ∨ Derives cs a := by
  constructor
  · exact readChars_sound
  · rintro (⟨hb, rfl⟩ | hd)
    · rw [readChars, if_pos hb.skipBlank_eq_nil]
    · exact hd.readChars_eq

/-- Reading accepts exactly the blank texts and those of the grammar, and gives what they denote. -/
theorem read_iff_derives (text : String) (a : Annotation) :
    read text = .ok a ↔ (Blanks text.toList ∧ a = {}) ∨ Derives text.toList a := by
  rw [← readChars_eq_ok_iff, read]
  split
  · rename_i hr
    rw [hr, Except.ok.injEq, Except.ok.injEq]
  · rename_i hr
    rw [hr]
    simp

end QueryShape.Annotation
