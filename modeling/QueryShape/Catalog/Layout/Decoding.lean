import QueryShape.Catalog.Layout

/-!
# Layouts from data

`CatalogLayout.decode?` makes a layout of a tree of data. A record is an object, whose unknown fields
are passed over and whose known fields come once, or an array with the values of the fields in order.
-/

set_option autoImplicit false

namespace QueryShape

/-- How much a source of data lets through. -/
structure Leniency where
  /-- How many more objects and arrays may stand inside each other; nothing for any number. -/
  depth : Option Nat
  /-- Whether an array may have more items than the record has fields. -/
  surplus : Bool

namespace Leniency

/-- What is let through inside one more object or array. -/
def enter? (l : Leniency) : Option Leniency :=
  match l.depth with
  | none => some l
  | some 0 => none
  | some (n + 1) => some { l with depth := some n }

end Leniency

namespace Json

def string? : Json → Option String
  | string s => some s
  | _ => none

def bool? : Json → Option Bool
  | bool b => some b
  | _ => none

/-- A string or null. -/
def optionalString? : Json → Option (Option String)
  | null => some none
  | string s => some (some s)
  | _ => none

end Json

/-- Sets what was not set before. -/
def assign? {α : Type} (old : Option α) (new : Option α) : Option (Option α) :=
  match old, new with
  | none, some a => some (some a)
  | _, _ => none

/-- The values of a field record that have been read so far. -/
structure FieldLayout.Draft where
  name : Option String := none
  tag : Option (Option String) := none
  type : Option (Option String) := none
  embedded : Option Bool := none
  shape : Option (Option (List FieldLayout)) := none

namespace FieldLayout.Draft

/-- The field, if it has a name. -/
def finish? (d : Draft) : Option FieldLayout :=
  d.name.map fun name => ⟨name, d.tag.getD none, d.type.getD none, d.embedded.getD false,
    d.shape.getD none⟩

/-- Takes in the value of a field that holds no shape; one that is not known changes nothing. -/
def put? (d : Draft) (key : String) (j : Json) : Option Draft :=
  if key = "name" then (assign? d.name j.string?).map ({ d with name := · })
  else if key = "tag" then (assign? d.tag j.optionalString?).map ({ d with tag := · })
  else if key = "type" then (assign? d.type j.optionalString?).map ({ d with type := · })
  else if key = "embedded" then (assign? d.embedded j.bool?).map ({ d with embedded := · })
  else some d

end FieldLayout.Draft

/-- The names of the values in a field record that is written as an array, but for the shape, which
comes last. -/
def FieldLayout.plainFields : List String := ["name", "tag", "type", "embedded"]

mutual

def FieldLayout.decode? (l : Leniency) : Json → Option FieldLayout
  | .object entries => do (← FieldLayout.fromEntries? (← l.enter?) {} entries).finish?
  | .array items => do
    (← FieldLayout.fromItems? (← l.enter?) {} FieldLayout.plainFields items).finish?
  | _ => none

def FieldLayout.fromEntries? (l : Leniency) (d : FieldLayout.Draft) :
    List (String × Json) → Option FieldLayout.Draft
  | [] => some d
  | (key, j) :: rest => do
    let d ← if key = "shape" then
        (assign? d.shape (ShapeLayout.decodeOptional? l j)).map ({ d with shape := · })
      else d.put? key j
    FieldLayout.fromEntries? l d rest

def FieldLayout.fromItems? (l : Leniency) (d : FieldLayout.Draft) :
    List String → List Json → Option FieldLayout.Draft
  | _, [] => some d
  | key :: keys, j :: rest => do FieldLayout.fromItems? l (← d.put? key j) keys rest
  | [], j :: rest => do
    let shape ← ShapeLayout.decodeOptional? l j
    if rest.isEmpty || l.surplus then some { d with shape := some shape } else none

def ShapeLayout.decodeOptional? (l : Leniency) : Json → Option (Option (List FieldLayout))
  | .null => some none
  | .object entries => do
    some <$> ShapeLayout.fromEntries? (← l.enter?) none entries
  | .array items => do some <$> ShapeLayout.fromItems? (← l.enter?) items
  | _ => none

def ShapeLayout.fromEntries? (l : Leniency) (fields : Option (List FieldLayout)) :
    List (String × Json) → Option (List FieldLayout)
  | [] => some (fields.getD [])
  | (key, j) :: rest => do
    let fields ← if key = "fields" then assign? fields (ShapeLayout.fields? l j) else some fields
    ShapeLayout.fromEntries? l fields rest

def ShapeLayout.fromItems? (l : Leniency) : List Json → Option (List FieldLayout)
  | [] => some []
  | j :: rest => do
    let fields ← ShapeLayout.fields? l j
    if rest.isEmpty || l.surplus then some fields else none

def ShapeLayout.fields? (l : Leniency) : Json → Option (List FieldLayout)
  | .array items => do ShapeLayout.fieldList? (← l.enter?) items
  | _ => none

def ShapeLayout.fieldList? (l : Leniency) : List Json → Option (List FieldLayout)
  | [] => some []
  | j :: js => do pure ((← FieldLayout.decode? l j) :: (← ShapeLayout.fieldList? l js))

end

/-- A shape where there has to be one. -/
def ShapeLayout.decode? (l : Leniency) (j : Json) : Option ShapeLayout :=
  (ShapeLayout.decodeOptional? l j).bind id

namespace CatalogLayout

/-- The named shapes; of two with one name the later holds, at the place of the earlier. -/
def decodeShapes? (l : Leniency) : Json → Option (OrderedMap String ShapeLayout)
  | .object entries => do
    let l ← l.enter?
    let shapes ← entries.mapM fun (name, j) => (ShapeLayout.decode? l j).map (name, ·)
    pure (OrderedMap.ofList shapes)
  | _ => none

/-- The values of a catalog record that have been read so far. -/
structure Draft where
  space : Option String := none
  root : Option String := none
  shapes : Option (OrderedMap String ShapeLayout) := none

namespace Draft

def finish? (d : Draft) : Option CatalogLayout :=
  d.root.map fun root => ⟨d.space.getD "", root, d.shapes.getD []⟩

def put? (l : Leniency) (d : Draft) (key : String) (j : Json) : Option Draft :=
  if key = "namespace" then (assign? d.space j.string?).map ({ d with space := · })
  else if key = "root" then (assign? d.root j.string?).map ({ d with root := · })
  else if key = "shapes" then (assign? d.shapes (decodeShapes? l j)).map ({ d with shapes := · })
  else some d

end Draft

/-- The names of the values in a catalog record that is written as an array. -/
def fieldNames : List String := ["namespace", "root", "shapes"]

def decode? (l : Leniency) : Json → Option CatalogLayout
  | .object entries => do
    let l ← l.enter?
    (← entries.foldlM (fun d (key, j) => d.put? l key j) ({} : Draft)).finish?
  | .array items => do
    let l ← l.enter?
    if items.length ≤ fieldNames.length || l.surplus then
      (← (fieldNames.zip items).foldlM (fun d (key, j) => d.put? l key j) ({} : Draft)).finish?
    else none
  | _ => none

end CatalogLayout

end QueryShape
