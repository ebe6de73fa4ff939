import Mathlib
import QueryShape.Proofs.AnnotationLocality
import QueryShape.Proofs.CursorTracking

/-!
# Where a fault of an annotation is reported

`read_error_local`: reading an annotation by byte positions slices it between characters only, and gives
what reading gives. The offsets of all faults lie between two characters, and a fault that names the
character found there is the same for every text that begins with the same characters up to it.
-/

set_option autoImplicit false

namespace QueryShape.Annotation

open Text

variable {cs rest : List Char}

/-! ## Places in a text -/

/-- Where `rest` begins, if it is the end of the text. -/
def place (text : String) (rest : List Char) : String.Pos.Raw :=
  ⟨byteLength text.toList - byteLength rest⟩

theorem place_of_append {text : String} {p rest : List Char} (h : text.toList = p ++ rest) :
    place text rest = ⟨byteLength p⟩ := by
  rw [place, h, byteLength_append, Nat.add_sub_cancel]

theorem isValid_place {text : String} {rest : List Char} (h : rest <:+ text.toList) :
    (place text rest).IsValid text := by
  obtain ⟨p, hp⟩ := h
  rw [place_of_append hp.symm]
  exact isValid_byteLength hp.symm

theorem get?_place {text : String} {rest : List Char} (h : rest <:+ text.toList) :
    String.Pos.Raw.get? text (place text rest) = rest.head? := by
  obtain ⟨p, hp⟩ := h
  rw [place_of_append hp.symm, byteLength_eq_utf8Len, ← String.get?_of_valid p rest, hp,
    String.ofList_toList]

theorem eq_of_byteLength_eq {p q t u : List Char} (h : p ++ t = q ++ u)
    (hlen : byteLength p = byteLength q) : p = q := by
  induction p generalizing q with
  | nil =>
    cases q with
    | nil => rfl
    | cons d q =>
      have := d.utf8Size_pos
      simp only [byteLength] at hlen
      omega
  | cons c p ih =>
    cases q with
    | nil =>
      have := c.utf8Size_pos
      simp only [byteLength] at hlen
      omega
    | cons d q =>
      obtain ⟨rfl, hrest⟩ := List.cons.inj h
      simp only [byteLength, Nat.add_left_cancel_iff] at hlen
      rw [ih hrest hlen]

/-! ## Faults -/

theorem isBlank_of_skipBlank {c : Char} (h : skipBlank cs = c :: rest) : isBlank c = false := by
  have hd := List.head?_dropWhile_not isBlank cs
  rw [← skipBlank, h] at hd
  simpa using hd

/-- A stop at an unexpected character has that character, which is no blank, next. -/
theorem Stop.Within.eq_of_found {text : List Char} {stop : Stop} (h : stop.Within text cs)
    {what : Expectation} {c : Char} (hf : stop.fault = .expected what (some c)) :
    isBlank c = false ∧ ∃ t, stop = ⟨.expected what (some c), c :: t⟩ := by
  obtain ⟨rest, -, rfl⟩ := h.expected what (some c) hf
  have hhead : (skipBlank rest).head? = some c := (Fault.expected.inj hf).2
  obtain ⟨t, ht⟩ := List.head?_eq_some_iff.1 hhead
  refine ⟨isBlank_of_skipBlank ht, t, ?_⟩
  rw [stopAt, ht]
  rfl

theorem Stop.Within.rest_of_end {text : List Char} {stop : Stop} (h : stop.Within text cs)
    {what : Expectation} (hf : stop.fault = .expected what none) : stop.rest = [] := by
  obtain ⟨rest, -, rfl⟩ := h.expected what none hf
  exact List.head?_eq_none_iff.1 (Fault.expected.inj hf).2

/-- A text refused for a character is refused in the same way as soon as that character is seen. -/
theorem read_agree {text text' : String} {pre : List Char} {c : Char} {what : Expectation}
    (h : read text = .error ⟨.expected what (some c), byteLength pre⟩)
    (hpre : pre ++ [c] <+: text.toList) (hpre' : pre ++ [c] <+: text'.toList) :
    read text' = .error ⟨.expected what (some c), byteLength pre⟩ := by
  obtain ⟨stop, hstop, he⟩ := read_eq_error.1 h
  obtain ⟨hfault, hoffset⟩ := SyntaxError.mk.inj he
  have hin := within_of_readChars hstop
  obtain ⟨hc, t, rfl⟩ := hin.eq_of_found hfault.symm
  obtain ⟨p, hp⟩ := hin.suffix
  -- the stop lies as many bytes from the start as `pre` is long, so `pre` is what comes before it
  obtain ⟨u, hu⟩ := hpre
  have hlen : byteLength pre = byteLength p := by
    rw [hoffset, ← hp, byteLength_append, Nat.add_sub_cancel]
  rw [List.append_assoc] at hu
  obtain rfl := eq_of_byteLength_eq (hu.trans hp.symm) hlen
  obtain ⟨u', hu'⟩ := hpre'
  rw [List.append_assoc, List.singleton_append] at hu'
  rw [← hp] at hstop
  refine read_eq_error.2 ⟨_, hu' ▸ readChars_agree hc hstop u', ?_⟩
  rw [← hu', byteLength_append, Nat.add_sub_cancel]

theorem read_error_local (text : String) :
    Cursor.decode text = (read text).mapError .fault ∧
      ∀ e, read text = .error e →
        (⟨e.offset⟩ : String.Pos.Raw).IsValid text ∧ e.offset ≤ text.utf8ByteSize ∧
        (∀ what c, e.fault = .expected what (some c) →
          String.Pos.Raw.get? text ⟨e.offset⟩ = some c ∧
            ∀ pre, pre ++ [c] <+: text.toList → byteLength pre = e.offset →
              ∀ text' : String, pre ++ [c] <+: text'.toList → read text' = .error e) ∧
        ∀ what, e.fault = .expected what none → e.offset = text.utf8ByteSize := by
  refine ⟨Cursor.decode_eq text, fun e he => ?_⟩
  obtain ⟨stop, hstop, heq⟩ := read_eq_error.1 he
  have hfault : e.fault = stop.fault := by rw [heq]
  have hoffset : e.offset = (place text stop.rest).byteIdx := by rw [heq, place]
  have hin := within_of_readChars hstop
  refine ⟨?_, ?_, fun what c hf => ⟨?_, fun pre hpre hn text' hpre' => ?_⟩, fun what hf => ?_⟩
  · rw [hoffset]
    exact isValid_place hin.suffix
  · rw [hoffset, utf8ByteSize_eq_byteLength]
    exact Nat.sub_le _ _
  · obtain ⟨-, t, hst⟩ := hin.eq_of_found (hfault.symm.trans hf)
    rw [hoffset]
    exact (get?_place hin.suffix).trans (by rw [hst]; rfl)
  · have hexact : e = ⟨.expected what (some c), byteLength pre⟩ := by rw [← hf, hn]
    rw [hexact] at he ⊢
    exact read_agree he hpre hpre'
  · rw [hoffset, utf8ByteSize_eq_byteLength, place, hin.rest_of_end (hfault.symm.trans hf)]
    rfl

/-- After a no-break space, which takes two bytes, a value is missing; no matter what follows. -/
theorem read_error_local_of_mark :
    read "a(x:\u00a0?" = .error ⟨.expected .value (some '?'), 6⟩ ∧
      Cursor.decode "a(x:\u00a0?" = .error (.fault ⟨.expected .value (some '?'), 6⟩) ∧
      read "a(x:\u00a0? 1, b) c" = .error ⟨.expected .value (some '?'), 6⟩ := by
  have h : read "a(x:\u00a0?" = .error ⟨.expected .value (some '?'), 6⟩ := by cbv
  have hlocal := read_error_local "a(x:\u00a0?"
  refine ⟨h, hlocal.1.trans (by rw [h]; rfl), ?_⟩
  exact ((hlocal.2 _ h).2.2.1 .value '?' rfl).2 "a(x:\u00a0".toList (by decide) (by decide) _ (by decide)

end QueryShape.Annotation
