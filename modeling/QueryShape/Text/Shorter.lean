/-!
# Shorter texts

What a reader leaves of a text, with the proof that it took something. Repeated reading ends because
the text gets shorter.
-/

set_option autoImplicit false

namespace QueryShape.Text

/-- Fewer characters than `cs`. -/
abbrev Shorter (cs : List Char) := { rest : List Char // rest.length < cs.length }

theorem length_dropWhile_le (p : Char → Bool) (cs : List Char) : (cs.dropWhile p).length ≤ cs.length :=
  (List.dropWhile_sublist p).length_le

/-- What stands after the characters that are skipped and one more is shorter. -/
theorem length_lt_of_dropWhile {p : Char → Bool} {cs rest : List Char} {c : Char}
    (h : cs.dropWhile p = c :: rest) : rest.length < cs.length := by
  have := length_dropWhile_le p cs
  rw [h, List.length_cons] at this
  omega

theorem length_lt_cons (c : Char) (rest : List Char) : rest.length < (c :: rest).length :=
  Nat.lt_succ_self _

theorem length_drop_lt_cons (n : Nat) (c : Char) (rest : List Char) :
    (rest.drop n).length < (c :: rest).length :=
  Nat.lt_succ_of_le (List.drop_sublist n rest).length_le

/-- What is left of a shorter text is shorter. -/
theorem length_lt_trans {cs rest r : List Char} (h : rest.length < cs.length)
    (hr : r.length < rest.length) : r.length < cs.length :=
  Nat.lt_trans hr h

theorem length_dropWhile_lt (p : Char → Bool) {cs rest : List Char}
    (h : rest.length < cs.length) : (rest.dropWhile p).length < cs.length :=
  Nat.lt_of_le_of_lt (length_dropWhile_le p rest) h

end QueryShape.Text
