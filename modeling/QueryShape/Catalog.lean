import QueryShape.Catalog.Layout
import QueryShape.Catalog.TypeText
import QueryShape.Shape

/-!
# Catalogs

A catalog is a layout in which the root is one of the shapes, every type can be read, and no field has
both a type and a shape of its own. Its shapes, the anonymous ones included, make up a shape table.
-/

set_option autoImplicit false

namespace QueryShape

/-- Why there is no catalog. -/
inductive CatalogError where
  | unreadableFile (path reason : String)
  | malformedJson
  | malformedToml
  | unsupportedFormat (path : String)
  | unknownShape (name : String)
  | invalidType (shape field type : String)
  /-- A field with a type and a shape of its own. -/
  | conflictingField (shape field : String)
deriving DecidableEq, Repr, Inhabited

def CatalogError.message : CatalogError → String
  | unreadableFile path reason => s!"Cannot read {path}: {reason}"
  | malformedJson => "Invalid JSON catalog"
  | malformedToml => "Invalid TOML catalog"
  | unsupportedFormat path => s!"Unsupported catalog format for {path} (expected .json or .toml)"
  | unknownShape name => s!"Unknown shape '{name}'"
  | invalidType shape field type => s!"Invalid type '{type}' on field [{field}] of {shape}"
  | conflictingField shape field => s!"Field [{field}] of {shape} has both a type and an inline shape"

namespace CatalogLayout

/-- Checks the fields of a shape one after the other, each with the shape inside it. -/
def checkFields (shape : String) : List FieldLayout → Except CatalogError Unit
  | [] => .ok ()
  | ⟨name, _, type, _, inner⟩ :: rest =>
    match type, inner with
    | some _, some _ => .error (.conflictingField shape name)
    | some text, none =>
      if (TypeText.read? text).isNone then .error (.invalidType shape name text)
      else checkFields shape rest
    | none, some fields => do
      checkFields (shape ++ "." ++ name) fields
      checkFields shape rest
    | none, none => checkFields shape rest

def check (c : CatalogLayout) : Except CatalogError Unit :=
  if OrderedMap.contains c.shapes c.root then c.shapes.forM fun (name, fields) => checkFields name fields
  else .error (.unknownShape c.root)

/-! ## Shapes -/

end CatalogLayout

/-- The place of a shape in a catalog: the name of a shape, and the positions of the fields that lead
from it to a shape inside. -/
structure ShapePlace where
  name : String
  path : List Nat := []
deriving DecidableEq, Repr, Inhabited

def ShapePlace.child (p : ShapePlace) (i : Nat) : ShapePlace := { p with path := p.path ++ [i] }

namespace CatalogLayout

/-- What a type refers to: a name that is not one of the shapes stands for scalars. -/
def typeRef (c : CatalogLayout) : TypeText → TypeRef ShapePlace
  | .named name => if OrderedMap.contains c.shapes name then .shape ⟨name, []⟩ else .scalar
  | .list item => .list (c.typeRef item)
  | .optional type => .optional (c.typeRef type)

/-- The type of the field that stands at a place. -/
def fieldType (c : CatalogLayout) (place : ShapePlace) (f : FieldLayout) : TypeRef ShapePlace :=
  match f.shape, f.type.bind TypeText.read? with
  | some _, _ => .shape place
  | none, some t => c.typeRef t
  | none, none => .scalar

def member (c : CatalogLayout) (place : ShapePlace) (f : FieldLayout) : Member ShapePlace :=
  { ident := f.name, tag := f.tag, embedded := f.embedded, type := c.fieldType place f }

/-- The shape at a place. -/
def shapeAt (c : CatalogLayout) (place : ShapePlace) (id : String) (name : Option String)
    (fields : List FieldLayout) : Shape ShapePlace :=
  { id, name, members := fields.mapIdx fun i f => c.member (place.child i) f }

/-- The shapes inside the fields of the shape at a place, the first field having number `i`. An
anonymous shape has the id of the shape around it with the name of its field. -/
def innerShapes (c : CatalogLayout) (place : ShapePlace) (id : String) (i : Nat) :
    List FieldLayout → List (ShapePlace × Shape ShapePlace)
  | [] => []
  | ⟨name, _, _, _, inner⟩ :: rest =>
    let here := match inner with
      | some fields =>
        let id := id ++ "." ++ name
        (place.child i, c.shapeAt (place.child i) id none fields) ::
          c.innerShapes (place.child i) id 0 fields
      | none => []
    here ++ c.innerShapes place id (i + 1) rest

/-- The id of a named shape. -/
def shapeId (c : CatalogLayout) (name : String) : String :=
  if c.space.isEmpty then name else c.space ++ "." ++ name

/-- A named shape and those inside it. -/
def shapesOf (c : CatalogLayout) (name : String) (fields : ShapeLayout) :
    List (ShapePlace × Shape ShapePlace) :=
  (⟨name, []⟩, c.shapeAt ⟨name, []⟩ (c.shapeId name) (some name) fields) ::
    c.innerShapes ⟨name, []⟩ (c.shapeId name) 0 fields

/-- All shapes of the layout. -/
def table (c : CatalogLayout) : ShapeTable ShapePlace :=
  ⟨c.shapes.flatMap fun (name, fields) => c.shapesOf name fields⟩

end CatalogLayout

structure Catalog where
  layout : CatalogLayout
  checked : layout.check = .ok ()

namespace Catalog

def ofLayout (layout : CatalogLayout) : Except CatalogError Catalog :=
  match h : layout.check with
  | .ok () => .ok ⟨layout, h⟩
  | .error e => .error e

def names (c : Catalog) : List String := OrderedMap.keys c.layout.shapes

def table (c : Catalog) : ShapeTable ShapePlace := c.layout.table

/-- The place of a named shape. -/
def find (c : Catalog) (name : String) : Except CatalogError ShapePlace :=
  if OrderedMap.contains c.layout.shapes name then .ok ⟨name, []⟩ else .error (.unknownShape name)

/-- The place of the root. -/
def root (c : Catalog) : ShapePlace := ⟨c.layout.root, []⟩

end Catalog

end QueryShape
