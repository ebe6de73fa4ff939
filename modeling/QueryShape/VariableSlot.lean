import QueryShape.Document
import QueryShape.Text.Words

/-!
# Slots of variables

A slot holds a variable of an operation while its uses are collected. A variable has the name that an
argument gives it, or is called after the place of its first use.
-/

set_option autoImplicit false

namespace QueryShape

/-- A variable and its uses so far; `explicit` if it was named, and not called after its place. -/
structure VariableSlot where
  entry : Variable
  explicit : Bool
deriving Inhabited

/-- The name of a variable called after its place: the path and the argument in snake case. -/
def placeName (path : List String) (key : String) : String :=
  let text := "_".intercalate path ++ "_" ++ key
  String.ofList (Text.snakeCase (text.toList.map fun c => if c = ':' then '_' else c))

/-- The name that a variable is given, or else the one after its place. -/
def variableName (path : List String) (key : String) : Option String → String
  | some name => name
  | none => placeName path key

namespace VariableSlot

/-- Whether a slot and a use of its variable fit: both named or both called after their places, and of
one type. -/
def checkUse (slot : VariableSlot) (explicit : Bool) (type : Option String) (path : List String) :
    Except Failure Unit :=
  if slot.explicit ≠ explicit then .error (.nameCollision slot.entry.name path)
  else if slot.entry.type ≠ type then
    .error (.typeConflict slot.entry.name slot.entry.type type path)
  else .ok ()

/-- The slots with one more use of a variable. -/
def addUse (slots : List VariableSlot) (name path : String) : List VariableSlot :=
  slots.map fun s =>
    if s.entry.name = name then
      { s with entry := { s.entry with usagePaths := s.entry.usagePaths ++ [path] } }
    else s

end VariableSlot

end QueryShape
