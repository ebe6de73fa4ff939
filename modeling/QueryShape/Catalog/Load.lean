import QueryShape.Catalog.Format
import QueryShape.Compile
import QueryShape.FileTree

/-!
# Loading catalogs

A catalog from a file, whose extension tells the format. What reads files is left open.
-/

set_option autoImplicit false

namespace QueryShape

namespace Catalog

/-- The catalog in the file at a path, and what happened on the way. The format is settled before the
file is read. -/
def loadLogged (read : String → Except ReadFault String) (path : String) :
    Except CatalogError Catalog × List Event :=
  match (extension? path).bind CatalogFormat.ofExtension? with
  | none => (.error (.unsupportedFormat path), [])
  | some format =>
    match read path with
    | .error fault => (.error (.unreadableFile path fault.reason), [])
    | .ok text => (Catalog.ofText format text, [.loadedCatalog path])

def load (read : String → Except ReadFault String) (path : String) : Except CatalogError Catalog :=
  (loadLogged read path).1

end Catalog

end QueryShape
