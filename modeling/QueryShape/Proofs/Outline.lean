import QueryShape.Document

/-!
# Outlines of operations

An outline is a compiled operation whose selections are still trees. A group is what stands in braces
after a field, a branch or the head of an operation: either the selections themselves or a single spread
of a fragment.

The text of an outline consists of lines, and a line of pieces, so that the variables and the braces of
selection sets can be told from all other text. `Outline.print` joins the lines with a unit of
indentation, which changes nothing else.
-/

set_option autoImplicit false

namespace QueryShape

/-! ## Selections -/

/-- What is written for an argument. -/
inductive Operand where
  | literal (text : String)
  /-- A variable; `explicit` if it was named, and not called after its place. -/
  | variable (name : String) (explicit : Bool)
deriving DecidableEq, Repr, Inhabited

mutual

inductive Selection where
  | leaf (name : String) (arguments : List (String × Operand))
  | nested (name : String) (arguments : List (String × Operand)) (group : Group)
  /-- The selections for one type of a union. -/
  | branch (type : String) (group : Group)
  | spread (fragment : String)

inductive Group where
  | block (selections : List Selection)
  | spread (fragment : String)

end

instance : Inhabited Group := ⟨.block []⟩

/-! ## Pieces and lines -/

/-- A part of a line. -/
inductive Piece where
  | text (s : String)
  /-- A variable in the place of an argument. -/
  | variable (name : String)
  /-- The brace that opens a selection set. -/
  | opening
  /-- The brace that closes a selection set. -/
  | closing
deriving DecidableEq, Repr

def Piece.render : Piece → String
  | .text s => s
  | .variable name => "$" ++ name
  | .opening => "\x7b"
  | .closing => "\x7d"

/-- Pieces one after the other. -/
def renderPieces (pieces : List Piece) : String := String.join (pieces.map (·.render))

/-- A line of text and how often it is indented. -/
structure Line where
  level : Nat
  pieces : List Piece
deriving DecidableEq, Repr

/-- The line with a copy of the unit for each level before it. -/
def Line.render (unit : String) (l : Line) : String :=
  String.join (List.replicate l.level unit) ++ renderPieces l.pieces

/-- The lines of a text, with their indentation. -/
def renderLines (unit : String) (lines : List Line) : String :=
  "\n".intercalate (lines.map (·.render unit))

def Operand.piece : Operand → Piece
  | .literal text => .text text
  | .variable name _ => .variable name

/-- An argument after its key. -/
def operandPieces (a : String × Operand) : List Piece := [.text a.1, .text ": ", a.2.piece]

/-- The arguments of a field in parentheses, or nothing if there are none. -/
def argumentPieces : List (String × Operand) → List Piece
  | [] => []
  | a :: rest => .text "(" ::
      (operandPieces a ++ rest.flatMap (fun b => .text ", " :: operandPieces b) ++ [.text ")"])

mutual

/-- The lines of a selection at a level. -/
def Selection.lines (level : Nat) : Selection → List Line
  | .leaf name arguments => [⟨level, .text name :: argumentPieces arguments⟩]
  | .nested name arguments group => Group.lines level (.text name :: argumentPieces arguments) group
  | .branch type group => Group.lines level [.text "... on ", .text type, .text " "] group
  | .spread fragment => [⟨level, [.text "...", .text fragment]⟩]

/-- The lines of a group after `head`, which stands before the brace. -/
def Group.lines (level : Nat) (head : List Piece) : Group → List Line
  | .block selections => ⟨level, head ++ [.opening]⟩ ::
      (Selection.linesOfList (level + 1) selections ++ [⟨level, [.closing]⟩])
  | .spread fragment =>
    [⟨level, head ++ [.opening, .text " ...", .text fragment, .text " ", .closing]⟩]

def Selection.linesOfList (level : Nat) : List Selection → List Line
  | [] => []
  | s :: ss => Selection.lines level s ++ Selection.linesOfList level ss

end

/-! ## Outlines -/

/-- A fragment with its selections as trees. -/
structure FragmentOutline where
  /-- The shape that the fragment selects. -/
  shapeId : String
  name : String
  targetType : String
  selections : List Selection
deriving Inhabited

namespace FragmentOutline

/-- The lines of the definition. -/
def lines (f : FragmentOutline) : List Line :=
  Group.lines 0 [.text "fragment ", .text f.name, .text " on ", .text f.targetType]
    (.block f.selections)

def print (unit : String) (f : FragmentOutline) : Fragment :=
  ⟨f.name, f.targetType, renderLines unit f.lines⟩

end FragmentOutline

structure Outline where
  root : Group
  vars : List Variable
  fragments : List FragmentOutline
deriving Inhabited

namespace Outline

/-- The lines of the root. -/
def lines (o : Outline) : List Line := Group.lines 0 [] o.root

def print (unit : String) (o : Outline) : Compiled :=
  ⟨renderLines unit o.lines, o.vars, o.fragments.map (·.print unit)⟩

end Outline

end QueryShape
