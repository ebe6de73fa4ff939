import QueryShape.Catalog
import QueryShape.Catalog.Layout.Decoding
import QueryShape.Json.Printer
import QueryShape.Json.Reader
import QueryShape.Toml.Reader

/-!
# Catalog texts

The formats in which catalogs are written.
-/

set_option autoImplicit false

namespace QueryShape

inductive CatalogFormat where
  | json
  | toml
deriving DecidableEq, Repr, Inhabited

namespace CatalogFormat

/-- The format that the extension of a file name stands for, in any case of its letters. -/
def ofExtension? (extension : String) : Option CatalogFormat :=
  match extension.map Char.toLower with
  | "json" => some json
  | "toml" => some toml
  | _ => none

/-- The tree of data in a text. -/
def tree? : CatalogFormat → String → Option Json
  | json => Json.read?
  | toml => Toml.read?

/-- In JSON a record written as an array has at most as many values as fields, and at most 127 records
and arrays stand inside each other. In TOML it may have more, and reading alone bounds the depth. -/
def leniency : CatalogFormat → Leniency
  | json => { depth := some 127, surplus := false }
  | toml => { depth := none, surplus := true }

/-- The error for a text that holds no layout. -/
def malformed : CatalogFormat → CatalogError
  | json => .malformedJson
  | toml => .malformedToml

end CatalogFormat

namespace CatalogLayout

def ofText (format : CatalogFormat) (text : String) : Except CatalogError CatalogLayout :=
  match (format.tree? text).bind (decode? format.leniency) with
  | some c => .ok c
  | none => .error format.malformed

/-- The layout as JSON without white space. -/
def jsonText (c : CatalogLayout) : String := c.toJson.compact

end CatalogLayout

def Catalog.ofText (format : CatalogFormat) (text : String) : Except CatalogError Catalog := do
  Catalog.ofLayout (← CatalogLayout.ofText format text)

end QueryShape
