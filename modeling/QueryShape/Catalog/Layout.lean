import QueryShape.Data.OrderedMap
import QueryShape.Json

/-!
# Catalog layouts

What a catalog says, before anything is checked: a namespace, the name of the root shape and the named
shapes with their fields. A field names its type as text or spells out an anonymous shape of its own.
-/

set_option autoImplicit false

namespace QueryShape

structure FieldLayout where
  name : String
  /-- The annotation, still as text. -/
  tag : Option String := none
  /-- The type, still as text. -/
  type : Option String := none
  /-- Whether the fields of the type become fields of the shape itself. -/
  embedded : Bool := false
  /-- The fields of an anonymous shape. -/
  shape : Option (List FieldLayout) := none
deriving Repr, Inhabited

/-- A shape is laid out by its fields. -/
abbrev ShapeLayout := List FieldLayout

structure CatalogLayout where
  /-- The namespace, which is empty for none. -/
  space : String := ""
  root : String
  shapes : OrderedMap String ShapeLayout := []
deriving Repr, Inhabited

/-- A field with its value, if it is set. -/
def Json.optional (name : String) : Option Json → List (String × Json)
  | some j => [(name, j)]
  | none => []

mutual

def FieldLayout.toJson : FieldLayout → Json
  | ⟨name, tag, type, embedded, shape⟩ => .object <|
    [("name", .string name)] ++ Json.optional "tag" (tag.map .string) ++
      Json.optional "type" (type.map .string) ++ [("embedded", .bool embedded)] ++
      FieldLayout.shapeToJson shape

def FieldLayout.shapeToJson : Option (List FieldLayout) → List (String × Json)
  | some fields => [("shape", .object [("fields", .array (FieldLayout.listToJson fields))])]
  | none => []

def FieldLayout.listToJson : List FieldLayout → List Json
  | [] => []
  | f :: fs => f.toJson :: FieldLayout.listToJson fs

end

def ShapeLayout.toJson (fields : ShapeLayout) : Json :=
  .object [("fields", .array (FieldLayout.listToJson fields))]

/-- The written form. A tag, a type and an inline shape are left out where there is none; all else is
always there. -/
def CatalogLayout.toJson (c : CatalogLayout) : Json :=
  .object [("namespace", .string c.space), ("root", .string c.root),
    ("shapes", .object (c.shapes.map fun (name, fields) => (name, ShapeLayout.toJson fields)))]

end QueryShape
