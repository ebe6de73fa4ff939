import QueryShape.Declaration.Derive

/-!
# Declarations in scope

What types mean where a number of declarations are known. A type that is declared refers to its shape;
`Option`, `Vec` and arrays wrap what they hold, pointers stand for what they point to, and every other
type is a scalar. The shapes that a type leads to make up a shape table, in which a generic declaration
has one shape for each choice of its arguments.
-/

set_option autoImplicit false

namespace QueryShape

structure Scope where
  /-- The path in front of the names of the declared types. -/
  modulePath : String
  declarations : List Declaration
  /-- The full names of types that are declared elsewhere. -/
  fullNames : List (String × String) := []

namespace Scope

def declaration? (s : Scope) (name : String) : Option Declaration :=
  s.declarations.find? (·.name = name)

mutual

/-- What a type refers to. -/
def typeRef (s : Scope) : TypeExpr → TypeRef TypeExpr
  | .path segments arguments =>
    let name := segments.getLast?.getD ""
    if (s.declaration? name).isSome then .shape (.path [name] arguments)
    else if name = "Option" then .optional (s.firstRef arguments)
    else if name = "Vec" then .list (s.firstRef arguments)
    else if name = "Box" || name = "Arc" || name = "Rc" then s.firstRef arguments
    else .scalar
  | .array item _ => .list (s.typeRef item)
  | .tuple _ => .scalar
  | .const _ => .scalar
  | .lifetime _ => .scalar
  | .written _ => .scalar

/-- What the first of several types refers to. -/
def firstRef (s : Scope) : List TypeExpr → TypeRef TypeExpr
  | [] => .scalar
  | t :: _ => s.typeRef t

end

mutual

/-- The name of a type with all paths spelled out. -/
def fullName (s : Scope) : TypeExpr → String
  | .path segments arguments =>
    let name := segments.getLast?.getD ""
    let full :=
      if (s.declaration? name).isSome then s.modulePath ++ "::" ++ name
      else (s.fullNames.lookup name).getD ("::".intercalate segments)
    match arguments with
    | [] => full
    | arguments => full ++ "<" ++ ", ".intercalate (s.fullNameList arguments) ++ ">"
  | .array item length => "[" ++ s.fullName item ++ "; " ++ toString length ++ "]"
  | .tuple items => "(" ++ ", ".intercalate (s.fullNameList items) ++ ")"
  | .const n => toString n
  | .lifetime name => "'" ++ name
  | .written source => typeText source

def fullNameList (s : Scope) : List TypeExpr → List String
  | [] => []
  | t :: ts => s.fullName t :: s.fullNameList ts

end

/-- The arguments of a declaration by the names of its type parameters. -/
def arguments : List Parameter → List TypeExpr → List (String × TypeExpr)
  | .type name _ :: ps, t :: ts => (name, t) :: arguments ps ts
  | _ :: ps, _ :: ts => arguments ps ts
  | _, _ => []

/-- The shape of a declared type; its id is the full name. -/
def shape? (s : Scope) (t : TypeExpr) : Option (Shape TypeExpr) :=
  match t with
  | .path segments args => do
    let d ← s.declaration? (segments.getLast?.getD "")
    let derived ← d.derive.toOption
    pure (derived.toShape (s.fullName t) fun u => s.typeRef (u.instantiate (arguments d.parameters args)))
  | _ => none

/-- Adds the shapes of types and of all they lead to, in at most `fuel` steps. -/
def collect (s : Scope) : Nat → List TypeExpr → ShapeTable TypeExpr → ShapeTable TypeExpr
  | 0, _, table => table
  | _, [], table => table
  | fuel + 1, t :: pending, table =>
    if (table.find? t).isSome then s.collect fuel pending table
    else
      match s.shape? t with
      | none => s.collect fuel pending table
      | some shape =>
        s.collect fuel (shape.members.filterMap (·.type.shape?) ++ pending)
          ⟨table.entries ++ [(t, shape)]⟩

/-- How many references are followed at most. Generic declarations could go on for ever. -/
def referenceLimit : Nat := 4096

/-- The shapes that a type leads to. -/
def table (s : Scope) (t : TypeExpr) : ShapeTable TypeExpr := s.collect referenceLimit [t] {}

end Scope

end QueryShape
