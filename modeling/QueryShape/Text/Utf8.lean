/-!
# Bytes of a text

Positions in a text are counted in the bytes of its UTF-8 form.
-/

set_option autoImplicit false

namespace QueryShape.Text

/-- How many bytes the characters take. -/
def byteLength : List Char → Nat
  | [] => 0
  | c :: cs => c.utf8Size + byteLength cs

theorem byteLength_append (as bs : List Char) :
    byteLength (as ++ bs) = byteLength as + byteLength bs := by
  induction as with
  | nil => rw [List.nil_append, byteLength, Nat.zero_add]
  | cons a as ih => rw [List.cons_append, byteLength, byteLength, ih, Nat.add_assoc]

end QueryShape.Text
