import QueryShape.Graph.Extraction
import QueryShape.Writer

/-!
# Compiling shapes

From a shape of a table to a compiled operation: extract the graph and write its selections.
-/

set_option autoImplicit false

namespace QueryShape

/-- The unit of indentation where none is chosen. -/
def defaultIndent : String := "  "

namespace Graph

/-- The operation of a graph, with a unit of indentation, and what happened on the way. -/
def compileLogged (unit : String) (g : Graph) : Except Failure Compiled × Array Event :=
  match g.root with
  | none => (.error .nothing, #[])
  | some k =>
    if h : k < g.size then
      let root : Fin g.size := ⟨k, h⟩
      let (r, t) := (Writer.selectionSet g root false (g.node root).isUnion 0).run.run
        { indent := .ofUnit unit }
      (r.map t.finish, t.events)
    else (.error .nothing, #[])

/-- The operation of a graph, with a unit of indentation. -/
def compile (unit : String) (g : Graph) : Except Failure Compiled := (g.compileLogged unit).1

end Graph

namespace ShapeTable

variable {κ : Type} [DecidableEq κ]

/-- The operation of a shape of the table, and what happened on the way. Without a root there is nothing
to compile. -/
def compileLogged (t : ShapeTable κ) (unit : String) (root : Option κ) :
    Except Failure Compiled × Array Event :=
  match root with
  | none => (.error .nothing, #[])
  | some key =>
    match Graph.extractLogged t key with
    | (.error e, events) => (.error e, events)
    | (.ok g, events) =>
      let (r, more) := g.compileLogged unit
      (r, events ++ more)

/-- The operation of a shape of the table. -/
def compile (t : ShapeTable κ) (unit : String) (root : Option κ) : Except Failure Compiled :=
  (t.compileLogged unit root).1

end ShapeTable

end QueryShape
