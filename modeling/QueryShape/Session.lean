import QueryShape.Catalog.Format
import QueryShape.Compile

/-!
# Sessions

A session keeps the current unit of indentation, a compiler with a unit of its own, a table of shapes, a
catalog, and the operations compiled so far.
-/

set_option autoImplicit false

namespace QueryShape

structure Session where
  /-- The current unit of indentation. -/
  unit : String := defaultIndent
  /-- The unit of the compiler, which does not follow the current one. -/
  compilerUnit : String := defaultIndent
  shapes : ShapeTable String := {}
  catalog : Option Catalog := none
  results : List Compiled := []

/-- What is to be compiled. -/
inductive Target where
  /-- A shape of the table. -/
  | shape (key : String)
  | catalogShape (name : String)
  | catalogRoot
  | nothing
deriving DecidableEq, Repr, Inhabited

inductive SessionError where
  | catalog (e : CatalogError)
  | compile (e : Failure)
  /-- There is no result with a number. -/
  | noSuchResult
deriving Repr, Inhabited

namespace Session

def setUnit (s : Session) (unit : String) : Session := { s with unit }

/-- A new compiler, with the current unit if none is given. -/
def newCompiler (s : Session) (unit : Option String) : Session :=
  { s with compilerUnit := unit.getD s.unit }

/-- Adds shapes to the table, in the place of those with the same keys. -/
def define (s : Session) (shapes : List (String × Shape String)) : Session :=
  { s with shapes := ⟨shapes.foldl (fun t e => OrderedMap.insert t e.1 e.2) s.shapes.entries⟩ }

/-- Takes in a catalog; the former one stays where there is an error. -/
def readCatalog (s : Session) (format : CatalogFormat) (text : String) :
    Except SessionError (Session × Catalog) :=
  match Catalog.ofText format text with
  | .ok c => .ok ({ s with catalog := some c }, c)
  | .error e => .error (.catalog e)

/-- The operation of a target. Without a catalog there is nothing to compile in it. -/
def outcome (s : Session) (unit : String) : Target → Except SessionError Compiled
  | .shape key => (s.shapes.compile unit (some key)).mapError .compile
  | .catalogShape name =>
    match s.catalog with
    | none => .error (.compile .nothing)
    | some c => do
      let place ← (c.find name).mapError .catalog
      (c.table.compile unit (some place)).mapError .compile
  | .catalogRoot =>
    match s.catalog with
    | none => .error (.compile .nothing)
    | some c => (c.table.compile unit (some c.root)).mapError .compile
  | .nothing => .error (.compile .nothing)

/-- Compiles a target, with the compiler's unit or the current one, and keeps the result. -/
def compile (s : Session) (target : Target) (withCompiler : Bool) :
    Except SessionError (Session × Compiled) := do
  let c ← s.outcome (if withCompiler then s.compilerUnit else s.unit) target
  pure ({ s with results := s.results ++ [c] }, c)

def result (s : Session) : Int → Except SessionError Compiled
  | .ofNat index =>
    match s.results[index]? with
    | some c => .ok c
    | none => .error .noSuchResult
  | .negSucc _ => .error .noSuchResult

/-- Whether two results are equal. -/
def same (s : Session) (a b : Int) : Except SessionError Bool := do
  pure ((← s.result a).same (← s.result b))

end Session

end QueryShape
