/-!
# Indentation

The indentation of a level is the unit once for each level. The texts are kept, and there are more of
them as deeper levels are asked for.
-/

set_option autoImplicit false

namespace QueryShape

/-- A unit of indentation with the texts of the first levels. -/
structure Indent where
  unit : String
  levels : Array String
  levels_eq : ∀ (i : Nat) (h : i < levels.size), levels[i] = String.join (List.replicate i unit)

namespace Indent

/-- Only the margin. -/
def ofUnit (unit : String) : Indent where
  unit := unit
  levels := #[""]
  levels_eq i h := by
    obtain rfl : i = 0 := by simpa using h
    rfl

/-- The next level. -/
def push (t : Indent) : Indent where
  unit := t.unit
  levels := t.levels.push (String.join (List.replicate t.levels.size t.unit))
  levels_eq i h := by
    rw [Array.getElem_push]
    split
    · exact t.levels_eq i _
    · rw [Array.size_push] at h
      rw [show i = t.levels.size by omega]

/-- The levels up to this one. -/
def upTo (level : Nat) (t : Indent) : Indent :=
  if t.levels.size ≤ level then upTo level t.push else t
termination_by level + 1 - t.levels.size
decreasing_by
  simp only [push, Array.size_push]
  omega

theorem lt_size_upTo (level : Nat) (t : Indent) : level < (t.upTo level).levels.size := by
  fun_induction upTo level t with
  | case1 t _ ih => exact ih
  | case2 t h => omega

theorem unit_upTo (level : Nat) (t : Indent) : (t.upTo level).unit = t.unit := by
  fun_induction upTo level t with
  | case1 t _ ih => exact ih
  | case2 => rfl

/-- The indentation of a level, which is kept. -/
def read (level : Nat) (t : Indent) : String × Indent :=
  let kept := t.upTo level
  have h : level < kept.levels.size := lt_size_upTo level t
  (kept.levels[level], kept)

/-- Whatever was asked for before, a level gives the same text. -/
theorem read_text (level : Nat) (t : Indent) :
    (t.read level).1 = String.join (List.replicate level t.unit) := by
  rw [read, levels_eq, unit_upTo]

end Indent

end QueryShape
