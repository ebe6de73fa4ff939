import QueryShape.Declaration.Phrase.Printer

/-!
# Types given as text

The text of a type without white space, and the name of what it wraps.
-/

set_option autoImplicit false

namespace QueryShape

def withoutBlanks (text : String) : String := String.ofList (text.toList.filter (!Text.isBlank ·))

/-- The type that a text states. -/
def typeTree? (source : String) : Option TypeTree :=
  (Phrase.type true).readAll (TypeToken.scan source.toList)

/-- The text of a type without white space; what is no type stays as it is. -/
def typeText (source : String) : String :=
  withoutBlanks
    (match typeTree? source with
    | some t => t.text
    | none => TypeToken.listText (TypeToken.scan source.toList))

/-- The wrappers whose name is not the name of what they hold. -/
def isWrapper (name : String) : Bool := name = "Option" || name = "Vec" || name = "Box"

namespace PhraseTree

/-- The segments of a path, in order. Those of a trait that qualifies the path come before its own. -/
def segments : List TypeTree → List TypeTree
  | [] => []
  | node (.segment b) parts :: rest => node (.segment b) parts :: segments rest
  | node .typePath parts :: rest =>
    (parts.filter fun
      | node (.segment _) _ => true
      | _ => false) ++ segments rest
  | _ :: rest => segments rest

/-- The first of the arguments of a segment, if it is a type. -/
def firstType? (parts : List TypeTree) : Option TypeTree := do
  let arguments ← parts.findSome? fun
    | node .arguments arguments => some arguments
    | _ => none
  let first ← arguments.find? fun
    | node _ _ => true
    | leaf _ => false
  match first with
  | node .argument [node (.type sum) t] => some (node (.type sum) t)
  | _ => none

/-- The name of the innermost type inside at most `depth` wrappers; nothing for a type that is no path. -/
def innermostName : (depth : Nat) → TypeTree → String
  | 0, _ => ""
  | depth + 1, node (.type _) [node .pathType parts] =>
    match (segments parts).getLast? with
    | some (node _ (leaf name :: more)) =>
      match if isWrapper name.text then firstType? more else none with
      | some inner => innermostName depth inner
      | none => name.text
    | _ => ""
  | _, _ => ""

end PhraseTree

/-- The name of the innermost type that a text states. -/
def innermostTypeName (source : String) : String :=
  match typeTree? source with
  | some t => t.innermostName (t.tokens.length + 1)
  | none => ""

end QueryShape
