import QueryShape.Declaration
import QueryShape.Declaration.DeriveError

/-!
# Paths of attribute items

What is checked of the path of an item in the list of an attribute. In a `serde` list the words of a path are
names, in a `graphql` list they are any words.
-/

set_option autoImplicit false

namespace QueryShape

/-- An item of the list of an attribute. -/
structure AttributeItem where
  content : Attribute
  /-- Whether its path ends the list. -/
  ends : Bool
deriving Repr, Inhabited

namespace Attribute

/-- The items of a list. Nothing after the last comma is no item. -/
def listItems : List Attribute → List AttributeItem
  | [] => []
  | [word path] => if path = "" then [] else [⟨word path, true⟩]
  | a :: rest => ⟨a, false⟩ :: listItems rest

/-- The list of an attribute. -/
def items : Attribute → Except DeriveError (List AttributeItem)
  | word path => .error (.missingArguments path)
  | assign path _ => .error (.missingParentheses path)
  | list _ items => .ok (listItems items)

end Attribute

namespace AttributeItem

def path (i : AttributeItem) : String := i.content.path

/-- The error that something is missing after these tokens of a path. -/
def missing (i : AttributeItem) (rest : List TypeToken) (e : DeriveError) : DeriveError :=
  if i.ends && rest = [] then .endOfInput e else e

/-- The tokens of a path without two colons in front. -/
def pathTokens (i : AttributeItem) : List TypeToken :=
  match TypeToken.scan i.path.toList with
  | .sign ':' true :: .sign ':' _ :: rest => rest
  | tokens => tokens

/-- What is left after the other words of a path, with an error for what is no such word. -/
def dropWords (isWord : String → Bool) (fault : List TypeToken → DeriveError) :
    List TypeToken → Except DeriveError (List TypeToken)
  | .sign ':' true :: .sign ':' _ :: .word w :: rest =>
    if isWord w then dropWords isWord fault rest else .error (fault (.word w :: rest))
  | .sign ':' true :: .sign ':' _ :: rest => .error (fault rest)
  | rest => .ok rest

/-- Checks a path of names, which nothing follows but a value or a list. The keyword that marks an attribute
as unsafe stands alone. -/
def checkNames (i : AttributeItem) : Except DeriveError Unit := do
  let rest ←
    match TypeToken.scan i.path.toList, i.pathTokens with
    | .word "unsafe" :: rest, _ => .ok rest
    | _, .word w :: rest =>
      if isPathWord w then dropWords isPathWord (fun after => i.missing after .missingSegment) rest
      else .error (.keyword w)
    | _, tokens => .error (i.missing tokens .missingName)
  if rest = [] then .ok () else .error .missingComma

/-- Checks a path of any words. -/
def checkWords (i : AttributeItem) : Except DeriveError Unit := do
  match i.pathTokens with
  | .word _ :: rest =>
    let _ ← dropWords (fun _ => true) (fun after => i.missing after .missingWord) rest
    pure ()
  | .literal _ :: _ => .error .strayLiteral
  | tokens => .error (if i.ends && tokens = [] then .endOfInput .missingItem else .strayToken)

/-- The text that an item assigns. -/
def assigned (i : AttributeItem) : Except DeriveError String :=
  match i.content with
  | .assign _ (.text s) => .ok s
  | .assign _ .other => .error .missingString
  | _ => .error .missingEquals

/-- Checks that nothing follows the path of an item. -/
def alone (i : AttributeItem) : Except DeriveError Unit :=
  match i.content with
  | .word _ => .ok ()
  | _ => .error .missingComma

end AttributeItem

end QueryShape
