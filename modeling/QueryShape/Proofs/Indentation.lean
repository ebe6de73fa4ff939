import QueryShape.Proofs.WriterOutline

/-!
# Indentation

The unit of indentation decides what stands before each line and nothing else
(`compile_indent_only`). `Leveled n lines` says that the level of each line is the number of braces of
selection sets that are open at its start, of which `n` are open before the first line; it holds of the
lines of every selection and every group (`Selection.leveled`, `Group.leveled`).
-/

set_option autoImplicit false

namespace QueryShape

/-! ## Counting braces -/

/-- How many braces of selection sets the lines open. -/
def opened (ls : List Line) : Nat := (ls.flatMap (·.pieces)).count .opening

/-- How many braces of selection sets the lines close. -/
def closed (ls : List Line) : Nat := (ls.flatMap (·.pieces)).count .closing

/-- The line starts with a brace that closes a selection set. -/
def Line.isClosing (l : Line) : Bool := l.pieces.head? == some .closing

@[simp] theorem opened_nil : opened [] = 0 := rfl

@[simp] theorem closed_nil : closed [] = 0 := rfl

@[simp] theorem opened_cons (l : Line) (ls : List Line) :
    opened (l :: ls) = l.pieces.count .opening + opened ls := by
  rw [opened, List.flatMap_cons, List.count_append]
  rfl

@[simp] theorem closed_cons (l : Line) (ls : List Line) :
    closed (l :: ls) = l.pieces.count .closing + closed ls := by
  rw [closed, List.flatMap_cons, List.count_append]
  rfl

@[simp] theorem opened_append (xs ys : List Line) : opened (xs ++ ys) = opened xs + opened ys := by
  rw [opened, List.flatMap_append, List.count_append]
  rfl

@[simp] theorem closed_append (xs ys : List Line) : closed (xs ++ ys) = closed xs + closed ys := by
  rw [closed, List.flatMap_append, List.count_append]
  rfl

/-- No braces of selection sets are among the pieces. -/
def BraceFree (ps : List Piece) : Prop := .opening ∉ ps ∧ .closing ∉ ps

/-- What braces of selection sets a line may have. -/
inductive BraceShape : List Piece → Prop
  /-- The line ends with a brace that stays open. -/
  | opens {head : List Piece} : BraceFree head → BraceShape (head ++ [.opening])
  /-- The line is a brace that closes a selection set. -/
  | closes : BraceShape [.closing]
  | none {ps : List Piece} : BraceFree ps → BraceShape ps
  /-- The line ends with the brace that closes the only one that it opens. -/
  | both {head inner : List Piece} : BraceFree head → BraceFree inner →
      BraceShape (head ++ .opening :: inner ++ [.closing])

namespace BraceFree

variable {ps qs : List Piece}

theorem text_cons (s : String) (h : BraceFree ps) : BraceFree (.text s :: ps) := by
  simpa [BraceFree] using h

theorem append (hp : BraceFree ps) (hq : BraceFree qs) : BraceFree (ps ++ qs) :=
  ⟨fun h => (List.mem_append.1 h).elim hp.1 hq.1, fun h => (List.mem_append.1 h).elim hp.2 hq.2⟩

theorem count_opening (h : BraceFree ps) : ps.count .opening = 0 := List.count_eq_zero.2 h.1

theorem count_closing (h : BraceFree ps) : ps.count .closing = 0 := List.count_eq_zero.2 h.2

/-- What follows these pieces starts with a closing brace if the line does. -/
theorem isClosing_append (h : BraceFree ps) {level : Nat}
    (hq : Line.isClosing ⟨level, qs⟩ = false) : Line.isClosing ⟨level, ps ++ qs⟩ = false := by
  cases ps with
  | nil => exact hq
  | cons p ps =>
    have hp : p ≠ .closing := fun he => h.2 (he ▸ List.mem_cons_self)
    simpa [Line.isClosing] using hp

end BraceFree

theorem braceFree_argumentPieces (operands : List (String × Operand)) :
    BraceFree (argumentPieces operands) := by
  have hoperand : ∀ a, BraceFree (operandPieces a) := by
    rintro ⟨key, text | ⟨name, explicit⟩⟩ <;> simp [BraceFree, operandPieces, Operand.piece]
  cases operands with
  | nil => simp [BraceFree, argumentPieces]
  | cons a rest =>
    have hrest : BraceFree (rest.flatMap fun b => .text ", " :: operandPieces b) := by
      simp [BraceFree, (hoperand _).1, (hoperand _).2]
    rw [argumentPieces]
    exact (((hoperand a).append hrest).append (by simp [BraceFree])).text_cons "("

/-! ## Levels -/

/-- The lines stand in `n` braces, and close the braces that they open. A line that starts with a
closing brace stands outside of the group that it closes. -/
structure Leveled (n : Nat) (ls : List Line) : Prop where
  level : ∀ before l after, ls = before ++ l :: after →
    l.level + closed before + (if l.isClosing then 1 else 0) = n + opened before
  balanced : opened ls = closed ls
  inside : ∀ l ∈ ls, n ≤ l.level
  shape : ∀ l ∈ ls, BraceShape l.pieces

/-- A line of two lists put together is a line of the second, or comes before it. -/
theorem append_eq_append_cons {α : Type} {xs ys before after : List α} {x : α}
    (h : xs ++ ys = before ++ x :: after) :
    (∃ zs, before = xs ++ zs ∧ ys = zs ++ x :: after) ∨
      ∃ zs, xs = before ++ x :: zs ∧ after = zs ++ ys := by
  rcases List.append_eq_append_iff.1 h with ⟨zs, hb, hy⟩ | ⟨zs, hx, hy⟩
  · exact .inl ⟨zs, hb, hy⟩
  · cases zs with
    | nil =>
      rw [List.append_nil] at hx
      exact .inl ⟨[], by rw [hx, List.append_nil], hy.symm⟩
    | cons z zs =>
      obtain ⟨rfl, rfl⟩ := List.cons.inj hy
      exact .inr ⟨zs, hx, rfl⟩

namespace Leveled

variable {n : Nat} {xs ys : List Line}

theorem nil (n : Nat) : Leveled n [] := by
  refine ⟨?_, rfl, ?_, ?_⟩
  · intro before l after h
    simp at h
  all_goals
    intro l hl
    exact (List.not_mem_nil hl).elim

/-- A line that leaves no brace open. -/
theorem single {ps : List Piece} (n : Nat) (hs : BraceShape ps)
    (hc : Line.isClosing ⟨n, ps⟩ = false) (hb : ps.count .opening = ps.count .closing) :
    Leveled n [⟨n, ps⟩] := by
  refine ⟨?_, by simpa using hb, ?_, ?_⟩
  · intro before l after h
    obtain ⟨rfl, rfl, rfl⟩ : before = [] ∧ l = ⟨n, ps⟩ ∧ after = [] := by
      simpa using List.singleton_eq_append_iff.1 h
    simp [hc]
  · intro l hl
    rw [List.mem_singleton.1 hl]
  · intro l hl
    rw [List.mem_singleton.1 hl]
    exact hs

theorem none {ps : List Piece} (n : Nat) (h : BraceFree ps) : Leveled n [⟨n, ps⟩] := by
  have hnil : Line.isClosing ⟨n, []⟩ = false := rfl
  refine single n (.none h) ?_ (by rw [h.count_opening, h.count_closing])
  simpa using h.isClosing_append hnil

theorem append (hx : Leveled n xs) (hy : Leveled n ys) : Leveled n (xs ++ ys) := by
  refine ⟨?_, ?_, ?_, ?_⟩
  · intro before l after h
    rcases append_eq_append_cons h with ⟨zs, rfl, hz⟩ | ⟨zs, hz, -⟩
    · -- the first lines close what they open, so they do not count
      have hlevel := hy.level zs l after hz
      have hbalanced := hx.balanced
      simp only [opened_append, closed_append]
      omega
    · exact hx.level before l zs hz
  · simp only [opened_append, closed_append, hx.balanced, hy.balanced]
  · intro l hl
    exact (List.mem_append.1 hl).elim (hx.inside l) (hy.inside l)
  · intro l hl
    exact (List.mem_append.1 hl).elim (hx.shape l) (hy.shape l)

/-- Lines between a line that opens a brace and the line that closes it. -/
theorem enclose {head : List Piece} (hh : BraceFree head) (hx : Leveled (n + 1) xs) :
    Leveled n (⟨n, head ++ [.opening]⟩ :: (xs ++ [⟨n, [.closing]⟩])) := by
  have hopening : (head ++ [Piece.opening]).count .opening = 1 := by
    rw [List.count_append, hh.count_opening]
    rfl
  have hclosing : (head ++ [Piece.opening]).count .closing = 0 := by
    rw [List.count_append, hh.count_closing]
    rfl
  have hmem : ∀ l, l ∈ (⟨n, head ++ [.opening]⟩ :: (xs ++ [⟨n, [.closing]⟩]) : List Line) →
      l = ⟨n, head ++ [.opening]⟩ ∨ l ∈ xs ∨ l = ⟨n, [.closing]⟩ := by
    intro l hl
    simpa using hl
  have hbalanced := hx.balanced
  refine ⟨?_, ?_, ?_, ?_⟩
  · intro before l after h
    cases before with
    | nil =>
      obtain ⟨rfl, -⟩ := List.cons.inj h
      have hopens : Line.isClosing ⟨n, [.opening]⟩ = false := rfl
      simp [hh.isClosing_append hopens]
    | cons b bs =>
      obtain ⟨rfl, hbs⟩ := List.cons.inj h
      simp only [opened_cons, closed_cons, hopening, hclosing]
      rcases append_eq_append_cons hbs with ⟨zs, rfl, hz⟩ | ⟨zs, hz, -⟩
      · -- the line that closes the brace: all that stands between is closed
        obtain ⟨rfl, rfl, rfl⟩ : zs = [] ∧ l = ⟨n, [.closing]⟩ ∧ after = [] := by
          simpa using List.singleton_eq_append_iff.1 hz
        have hc : Line.isClosing ⟨n, [.closing]⟩ = true := rfl
        rw [List.append_nil, hc, if_pos rfl]
        dsimp only
        omega
      · have hlevel := hx.level bs l zs hz
        omega
  · simp [hh.count_opening, hh.count_closing, hbalanced, Nat.add_comm]
  · intro l hl
    rcases hmem l hl with rfl | hl | rfl
    · exact Nat.le_refl n
    · exact Nat.le_of_succ_le (hx.inside l hl)
    · exact Nat.le_refl n
  · intro l hl
    rcases hmem l hl with rfl | hl | rfl
    · exact .opens hh
    · exact hx.shape l hl
    · exact .closes

end Leveled

/-! ## The lines of an operation -/

mutual

theorem Selection.leveled (n : Nat) : (s : Selection) → Leveled n (Selection.lines n s)
  | .leaf _ operands => by
    rw [Selection.lines]
    exact .none n ((braceFree_argumentPieces operands).text_cons _)
  | .nested _ operands group => by
    rw [Selection.lines]
    exact Group.leveled n ((braceFree_argumentPieces operands).text_cons _) group
  | .branch _ group => by
    rw [Selection.lines]
    exact Group.leveled n (by simp [BraceFree]) group
  | .spread _ => by
    rw [Selection.lines]
    exact .none n (by simp [BraceFree])

theorem Group.leveled (n : Nat) {head : List Piece} (hh : BraceFree head) :
    (group : Group) → Leveled n (Group.lines n head group)
  | .block selections => by
    rw [Group.lines]
    exact .enclose hh (Selection.leveled_list (n + 1) selections)
  | .spread fragment => by
    have hinner : BraceFree [.text " ...", .text fragment, .text " "] := by simp [BraceFree]
    rw [Group.lines]
    refine .single n ?_ (hh.isClosing_append rfl) ?_
    · simpa using BraceShape.both hh hinner
    · simp [hh.count_opening, hh.count_closing]

theorem Selection.leveled_list (n : Nat) :
    (ss : List Selection) → Leveled n (Selection.linesOfList n ss)
  | [] => .nil n
  | s :: ss => .append (Selection.leveled n s) (Selection.leveled_list n ss)

end

/-- The first line opens a brace at the margin, the last closes it there, and the others stand between
them. -/
def Enclosed (ls : List Line) : Prop :=
  ∃ head inner, ls = ⟨0, head ++ [.opening]⟩ :: (inner ++ [⟨0, [.closing]⟩]) ∧ BraceFree head ∧
    ∀ l ∈ inner, 0 < l.level

theorem FragmentOutline.leveled (f : FragmentOutline) : Leveled 0 f.lines ∧ Enclosed f.lines := by
  have hh : BraceFree [.text "fragment ", .text f.name, .text " on ", .text f.targetType] := by
    simp [BraceFree]
  refine ⟨Group.leveled 0 hh _, _, Selection.linesOfList 1 f.selections, ?_, hh,
    (Selection.leveled_list 1 f.selections).inside⟩
  rw [FragmentOutline.lines, Group.lines]

/-- The unit of indentation is repeated before each line, once for every brace that is open there, and
has no other part in what is compiled. -/
theorem compile_indent_only (g : Graph) :
    (∃ e, ∀ unit, g.compile unit = .error e) ∨
      ∃ o, Outline.ofGraph g = .ok o ∧ Leveled 0 o.lines ∧
        (∀ f ∈ o.fragments, Leveled 0 f.lines ∧ Enclosed f.lines) ∧
        ∀ unit, g.compile unit = .ok ⟨renderLines unit o.lines, o.vars,
          o.fragments.map fun f => ⟨f.name, f.targetType, renderLines unit f.lines⟩⟩ := by
  cases h : Outline.ofGraph g with
  | error e =>
    refine .inl ⟨e, ?_⟩
    intro unit
    exact Graph.compile_eq_error.2 h
  | ok o =>
    refine .inr ⟨o, rfl, Group.leveled 0 (by simp [BraceFree]) o.root, fun f _ => f.leveled, ?_⟩
    intro unit
    exact Graph.compile_of_ofGraph unit h

end QueryShape
