/-!
# Lists of generic arguments

The text between the angles that follow a name: lifetimes come before all other arguments.
-/

set_option autoImplicit false

namespace QueryShape

/-- An argument of a generic type as it is written in a list. -/
structure GenericArgument where
  isLifetime : Bool
  text : String
  /-- Whether a comma follows it. -/
  comma : Bool
deriving DecidableEq, Repr, Inhabited

namespace GenericArgument

/-- Arguments in a row. Each keeps its own comma, and where one without a comma has come to stand before
another, a comma is put between them. -/
def rowText : (open? : Bool) → List GenericArgument → String
  | _, [] => ""
  | open?, a :: rest =>
    (if open? then "," else "") ++ a.text ++ (if a.comma then "," else "") ++ rowText (!a.comma) rest

/-- The text of a list of arguments, lifetimes first. -/
def listText (arguments : List GenericArgument) : String :=
  "<" ++ rowText false (arguments.filter (·.isLifetime) ++ arguments.filter (!·.isLifetime)) ++ ">"

end GenericArgument

end QueryShape
