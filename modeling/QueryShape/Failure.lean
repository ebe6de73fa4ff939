import QueryShape.Annotation

/-!
# Why shapes give no document
-/

set_option autoImplicit false

namespace QueryShape

inductive Failure where
  /-- There is no root shape, or it has no members. -/
  | nothing
  | malformedTag (shape field : String) (error : Annotation.SyntaxError)
  /-- A shape refers back to itself through these ids. -/
  | cycle (ids : List String)
  /-- A branch of a union leads to a shape that has no name. -/
  | anonymousBranch (field : String) (path : List String)
  /-- A branch of a union leads to no shape with members. -/
  | scalarBranch (field shape : String) (path : List String)
  | typeConflict (name : String) (expected found : Option String) (path : List String)
  /-- A variable named in an annotation and one named after its place have the same name. -/
  | nameCollision (name : String) (path : List String)
  | aliasedDiscriminator (shape field : String)
  | untypedVariable (name : String)
deriving DecidableEq, Repr

namespace Failure

/-- A path of field names as text. -/
def pathText (path : List String) : String := "/".intercalate path

def message : Failure → String
  | nothing => "Nothing to compile: no root shape with visible members"
  | malformedTag shape field e => s!"Invalid annotation on field [{field}] of {shape}: {e.message}"
  | cycle ids => s!"Cyclic reference: " ++ " -> ".intercalate ids
  | anonymousBranch field path =>
    s!"Union member [{field}] at {pathText path} is an anonymous shape; " ++
      "union branches need a type name"
  | scalarBranch field shape path =>
    s!"Union member [{field}] of {shape} at {pathText path} must be a structured shape"
  | typeConflict v expected found path =>
    let expected := expected.getD "<untyped>"
    let found := found.getD "<untyped>"
    s!"Variable ${v} at {pathText path} is declared as {found} but was first declared as {expected}"
  | nameCollision v path =>
    s!"Variable ${v} at {pathText path} collides with a variable of the same name from another source"
  | aliasedDiscriminator shape field =>
    s!"Union discriminator [{field}] of {shape} cannot carry an alias"
  | untypedVariable v => s!"Variable ${v} has no declared type"

/-- The message of the error underneath, if there is one. -/
def source? : Failure → Option String
  | malformedTag _ _ e => some e.message
  | _ => none

end Failure

end QueryShape
