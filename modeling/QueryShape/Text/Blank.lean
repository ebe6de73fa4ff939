/-!
# White space

The characters of the Unicode property White_Space. It holds the line and paragraph separators, the
no-break spaces and the ideographic space, and none of the zero-width characters.
-/

set_option autoImplicit false

namespace QueryShape.Text

/-- White space in the sense of Unicode. -/
def isBlank (c : Char) : Bool :=
  let n := c.toNat
  (0x09 ≤ n && n ≤ 0x0D) || n == 0x20 || n == 0x85 || n == 0xA0 || n == 0x1680 ||
    (0x2000 ≤ n && n ≤ 0x200A) || n == 0x2028 || n == 0x2029 || n == 0x202F || n == 0x205F ||
    n == 0x3000

/-- The text without the white space at its ends. -/
def trim (cs : List Char) : List Char :=
  ((cs.dropWhile isBlank).reverse.dropWhile isBlank).reverse

theorem length_trim_le (cs : List Char) : (trim cs).length ≤ cs.length := by
  unfold trim
  have h₁ := (List.dropWhile_sublist isBlank (l := cs)).length_le
  have h₂ := (List.dropWhile_sublist isBlank (l := (cs.dropWhile isBlank).reverse)).length_le
  simp only [List.length_reverse] at *
  omega

end QueryShape.Text
