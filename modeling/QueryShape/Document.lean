import QueryShape.Failure
import QueryShape.Json
import QueryShape.Value.Printer

/-!
# Operation documents

A compiled operation is the text of its selections together with the variables and the fragments they
use. `Compiled.document` puts the whole operation together.
-/

set_option autoImplicit false

namespace QueryShape

structure Variable where
  name : String
  type : Option String
  /-- The paths of the fields with an argument that uses the variable, in order. -/
  usagePaths : List String
  default : Option Value
deriving Repr, Inhabited

structure Fragment where
  name : String
  targetType : String
  /-- The whole definition. -/
  body : String
deriving DecidableEq, Repr, Inhabited

structure Compiled where
  /-- The selections of the root, in braces. -/
  body : String
  vars : List Variable
  /-- Each fragment comes after those it spreads. -/
  fragments : List Fragment
deriving Repr, Inhabited

inductive OperationKind where
  | query
  | mutation
deriving DecidableEq, Repr, Inhabited

def OperationKind.keyword : OperationKind → String
  | query => "query"
  | mutation => "mutation"

/-- The declaration of a variable, which needs a type. -/
def Variable.declaration (v : Variable) : Except Failure String :=
  match v.type with
  | none => .error (.untypedVariable v.name)
  | some type =>
    let head := "$" ++ v.name ++ ": " ++ type
    .ok (v.default.elim head fun d => head ++ " = " ++ d.defaultText)

/-- Equality of variables, with defaults compared as values. -/
def Variable.same (a b : Variable) : Bool :=
  a.name == b.name && a.type == b.type && a.usagePaths == b.usagePaths &&
    match a.default, b.default with
    | none, none => true
    | some x, some y => x.same y
    | _, _ => false

def Variable.toJson (v : Variable) : Json :=
  .object <|
    [("name", .string v.name), ("declared_type", v.type.elim .null .string),
      ("usage_paths", .array (v.usagePaths.map .string))] ++
    v.default.elim [] fun d => [("default", d.toJson)]

def Fragment.toJson (f : Fragment) : Json :=
  .object [("name", .string f.name), ("target_type", .string f.targetType), ("body", .string f.body)]

namespace Compiled

/-- The fields that describe the operation in JSON. -/
def jsonFields (c : Compiled) : List (String × Json) :=
  [("body", .string c.body), ("variables", .array (c.vars.map Variable.toJson)),
    ("fragments", .array (c.fragments.map Fragment.toJson))]

def toJson (c : Compiled) : Json := .object c.jsonFields

/-- Equality of compiled operations. -/
def same (a b : Compiled) : Bool :=
  a.body == b.body && a.fragments == b.fragments &&
    a.vars.length == b.vars.length &&
    (a.vars.zip b.vars).all fun (x, y) => x.same y

/-- The declarations in parentheses, or nothing if there are no variables. -/
def declarations (c : Compiled) : Except Failure String :=
  if c.vars.isEmpty then .ok ""
  else (c.vars.mapM Variable.declaration).map fun ds => "(" ++ ", ".intercalate ds ++ ")"

/-- The operation as a document: the fragments, then the operation with its declarations. An empty name
counts as none. -/
def document (c : Compiled) (kind : OperationKind) (name : Option String) : Except Failure String :=
  c.declarations.map fun declarations =>
    String.join (c.fragments.map (·.body ++ "\n")) ++ kind.keyword ++
      (match name with
        | none => ""
        | some n => if n.isEmpty then "" else " " ++ n) ++
      declarations ++ " " ++ c.body

end Compiled

end QueryShape
