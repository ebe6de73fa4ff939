import QueryShape.Declaration.Bound
import QueryShape.Declaration.ItemPath
import QueryShape.Shape
import QueryShape.Text.Words

/-!
# Deriving shapes from declarations

`Declaration.derive` reads the attributes of a declaration and gives the name and the members of its
shape. A record has a member for each field, a union has the discriminator and an embedded member for
each variant.
-/

set_option autoImplicit false

namespace QueryShape

/-- What the attributes of a field or variant say. -/
structure Marks where
  tag : Option String := none
  rename : Option String := none
  flatten : Bool := false
  skip : Bool := false
  scalar : Bool := false
deriving DecidableEq, Repr, Inhabited

namespace Marks

/-- Takes in an item of a `graphql` attribute. -/
def takeGraphql (m : Marks) (item : AttributeItem) : Except DeriveError Marks := do
  item.checkWords
  if item.path = "tag" then pure { m with tag := some (← item.assigned) }
  else if item.path = "flatten" then item.alone; pure { m with flatten := true }
  else if item.path = "skip" then item.alone; pure { m with skip := true }
  else if item.path = "scalar" then item.alone; pure { m with scalar := true }
  else .error .unknownItem

/-- Takes in an item of a `serde` attribute, of which only three kinds matter. -/
def takeSerde (m : Marks) (item : AttributeItem) : Except DeriveError Marks :=
  match item.content with
  | .word path =>
    if path = "flatten" then .ok { m with flatten := true }
    else if path = "skip" then .ok { m with skip := true }
    else .ok m
  | .assign path value =>
    if path = "rename" then
      match value with
      | .text s => .ok { m with rename := some s }
      | .other => .error .renameWithoutString
    else .ok m
  | .list _ _ => .ok m

/-- Takes in an attribute; those that are neither `graphql` nor `serde` say nothing. The paths of a `serde`
attribute are checked before any item of it is taken in. -/
def take (m : Marks) (a : Attribute) : Except DeriveError Marks :=
  if a.path = "graphql" then do (← a.items).foldlM takeGraphql m
  else if a.path = "serde" then do
    let items ← a.items
    items.forM AttributeItem.checkNames
    items.foldlM takeSerde m
  else .ok m

def ofAttributes (attributes : List Attribute) : Except DeriveError Marks := attributes.foldlM take {}

end Marks

namespace TypeExpr

/-- Whether it is a type, and not one of the other things that can be an argument. -/
def isType : TypeExpr → Bool
  | const _ | lifetime _ => false
  | written source => (typeTree? source).isSome
  | _ => true

/-- The name of the innermost type inside `Option`, `Vec` and `Box`. -/
def innermostName : TypeExpr → String
  | path segments arguments =>
    let name := segments.getLast?.getD ""
    match arguments with
    | [] => name
    | t :: _ => if isWrapper name && t.isType then t.innermostName else name
  | written source => innermostTypeName source
  | _ => ""

end TypeExpr

/-- A member of a derived shape. -/
structure DerivedMember where
  ident : String
  tag : Option String := none
  fallbackName : Option String := none
  embedded : Bool := false
  /-- The declared type; nothing for a member that is a scalar whatever its type. -/
  type : Option TypeExpr := none
deriving Repr, Inhabited

/-- A name as it is meant, where a mark in front makes a keyword a name. -/
def plainName (name : String) : String :=
  match name.toList with
  | 'r' :: '#' :: rest => String.ofList rest
  | _ => name

namespace FieldDeclaration

/-- The member of a field. An embedded one has the name of its type, any other the name of the field in
camel case. -/
def member (f : FieldDeclaration) (m : Marks) : DerivedMember where
  ident :=
    if m.flatten then f.type.innermostName
    else String.ofList (Text.camelCase (plainName f.name).toList)
  tag := m.tag
  fallbackName := m.rename
  embedded := m.flatten
  type := if m.scalar then none else some f.type

/-- The member of a field, unless it is skipped. -/
def member? (f : FieldDeclaration) : Except DeriveError (Option DerivedMember) := do
  let m ← Marks.ofAttributes f.attributes
  pure (if m.skip then none else some (f.member m))

end FieldDeclaration

namespace VariantDeclaration

/-- The member of a variant, unless it is skipped. It is embedded, and the attributes other than `skip`
make no difference. -/
def member? (v : VariantDeclaration) : Except DeriveError (Option DerivedMember) := do
  let m ← Marks.ofAttributes v.attributes
  if m.skip then pure none
  else
    match v.payload with
    | .positional [type] => pure (some { ident := v.name, embedded := true, type := some type })
    | _ => .error .variantPayload

end VariantDeclaration

/-- The member that tells the variants of a union apart. -/
def discriminator : DerivedMember := { ident := "__typename", tag := some "__typename,union" }

/-- The name and the members of a derived shape. -/
structure DerivedShape where
  name : String
  members : List DerivedMember
deriving Repr, Inhabited

/-- The shape with what its types refer to. -/
def DerivedShape.toShape {κ : Type} (s : DerivedShape) (id : String) (resolve : TypeExpr → TypeRef κ) :
    Shape κ where
  id := id
  name := some s.name
  members := s.members.map fun m =>
    { ident := m.ident, tag := m.tag, fallbackName := m.fallbackName, embedded := m.embedded,
      type := m.type.elim .scalar resolve }

namespace Declaration

/-- Takes in an item of a `graphql` attribute of the declaration itself. -/
def takeName (_ : Option String) (item : AttributeItem) : Except DeriveError (Option String) := do
  item.checkWords
  if item.path = "name" then some <$> item.assigned else .error .unknownContainerItem

/-- The name that the attributes give to the shape. -/
def givenName (d : Declaration) : Except DeriveError (Option String) :=
  d.attributes.foldlM (fun name a =>
    if a.path = "graphql" then do (← a.items).foldlM takeName name else pure name) none

def members (d : Declaration) : Except DeriveError (List DerivedMember) :=
  match d.body with
  | .record fields => do pure ((← fields.mapM (·.member?)).filterMap id)
  | .union variants => do pure (discriminator :: (← variants.mapM (·.member?)).filterMap id)
  | .positional | .unit => .error .unnamedFields
  | .overlay => .error .overlay

def hasLifetime (d : Declaration) : Bool :=
  d.parameters.any fun
    | .lifetime _ => true
    | _ => false

/-- The shape of a declaration. -/
def derive (d : Declaration) : Except DeriveError DerivedShape := do
  if d.hasLifetime then .error .lifetimeParameter
  else
    let name ← d.givenName
    pure ⟨name.getD d.name, ← d.members⟩

/-! ## Implementations -/

/-- The traits that a derived type has. -/
def derivedTraits : List String := ["::shapeql::GraphQLType", "::shapeql::GraphQLShape"]

/-- The bounds that the implementations put on a type parameter. -/
def parameterBounds : List String := ["::shapeql::GraphQLType", "'static"]

/-- A parameter of the implementations with its bounds. -/
def boundParameter : Parameter → String × List String
  | .type name bounds => (name, bounds.flatMap boundTexts ++ parameterBounds)
  | .lifetime name => ("'" ++ name, [])
  | .const name => ("const" ++ name ++ ":usize", [])

def boundParameters (d : Declaration) : List (String × List String) := d.parameters.map boundParameter

/-- The declared type, applied to its own parameters. -/
def selfType (d : Declaration) : TypeExpr :=
  .path [d.name] (d.parameters.map fun
    | .type name _ => .path [name] []
    | .lifetime name => .lifetime name
    | .const name => .path [name] [])

end Declaration

end QueryShape
