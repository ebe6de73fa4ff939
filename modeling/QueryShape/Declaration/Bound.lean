import QueryShape.Declaration.TypeText

/-!
# Bounds of type parameters

`boundTexts` gives the bounds that a text lists with plus signs between them.
-/

set_option autoImplicit false

namespace QueryShape

/-- The bounds that a text lists, without white space. -/
def boundTexts (bounds : String) : List String :=
  match Phrase.bounds.read (TypeToken.scan bounds.toList) with
  | some (.node _ parts, _) =>
    parts.filterMap fun
      | .leaf _ => none
      | part => some (withoutBlanks part.text)
  | _ => []

end QueryShape
