import QueryShape.Text.Words

/-!
# Names of fragments

The fragment of a shape is named after the shape's id: the id is cut at every character that cannot
stand in a name, and the pieces are put together, each with its first character in upper case. Where
the name is taken already, a number is added.
-/

set_option autoImplicit false

namespace QueryShape

open Text

/-- The first character in upper case, the others as they are. -/
def capitalized : List Char → List Char
  | [] => []
  | c :: cs => toUpper c ++ cs

/-- The name of the fragment for the shape with this id. -/
def fragmentName (id : String) : String :=
  String.ofList <| (splitAtChars (fun c => !(isAlphanumeric c || c == '_')) id.toList).flatMap capitalized

/-- A name with a number at its end. -/
def numbered (base : String) (n : Nat) : String := base ++ "_" ++ toString n

/-- The name itself, or the first of `base_2`, `base_3`, … that is not taken. One of as many numbers as
there are names taken is free. -/
def freshName (taken : List String) (base : String) : String :=
  if base ∈ taken then
    let candidates := (List.range taken.length).map fun i => numbered base (i + 2)
    (candidates.find? (· ∉ taken)).getD (numbered base (taken.length + 2))
  else base

end QueryShape
