import QueryShape.Declaration.Argument
import QueryShape.Declaration.TypeText

/-!
# Type declarations

Declarations of types as a program states them: records, unions and the forms that describe no shape,
with type parameters and attributes.
-/

set_option autoImplicit false

namespace QueryShape

/-- A type as it is written. -/
inductive TypeExpr where
  /-- A path of names, with arguments for its last name. -/
  | path (segments : List String) (arguments : List TypeExpr)
  | array (item : TypeExpr) (length : Int)
  | tuple (items : List TypeExpr)
  /-- A number in the place of a type, which only an argument can be. -/
  | const (n : Int)
  /-- A lifetime in the place of a type, which only an argument can be. -/
  | lifetime (name : String)
  /-- A type that is given as text. -/
  | written (source : String)
deriving Repr, Inhabited

namespace TypeExpr

/-- Whether a text is a name that a path can go through. -/
def isPlainSegment (segment : String) : Bool :=
  segment = "" || (TypeToken.scan segment.toList = [.word segment] && isPathWord segment)

mutual

/-- Equality of types, decided part by part. -/
def same : TypeExpr → TypeExpr → Bool
  | path s as, path t bs => s == t && sameList as bs
  | array a m, array b n => same a b && m == n
  | tuple as, tuple bs => sameList as bs
  | const m, const n => m == n
  | lifetime a, lifetime b => a == b
  | written a, written b => a == b
  | _, _ => false

def sameList : List TypeExpr → List TypeExpr → Bool
  | [], [] => true
  | a :: as, b :: bs => same a b && sameList as bs
  | _, _ => false

end

mutual

theorem same_iff : ∀ {a b : TypeExpr}, same a b = true ↔ a = b
  | path _ _, path _ _ => by simp [same, sameList_iff]
  | array _ _, array _ _ => by simp [same, same_iff]
  | tuple _, tuple _ => by simp [same, sameList_iff]
  | const _, const _ => by simp [same]
  | lifetime _, lifetime _ => by simp [same]
  | written _, written _ => by simp [same]
  | path _ _, array _ _ | path _ _, tuple _ | path _ _, const _ | path _ _, lifetime _
  | path _ _, written _ => by simp [same]
  | array _ _, path _ _ | array _ _, tuple _ | array _ _, const _ | array _ _, lifetime _
  | array _ _, written _ => by simp [same]
  | tuple _, path _ _ | tuple _, array _ _ | tuple _, const _ | tuple _, lifetime _
  | tuple _, written _ => by simp [same]
  | const _, path _ _ | const _, array _ _ | const _, tuple _ | const _, lifetime _
  | const _, written _ => by simp [same]
  | lifetime _, path _ _ | lifetime _, array _ _ | lifetime _, tuple _ | lifetime _, const _
  | lifetime _, written _ => by simp [same]
  | written _, path _ _ | written _, array _ _ | written _, tuple _ | written _, const _
  | written _, lifetime _ => by simp [same]

theorem sameList_iff : ∀ {as bs : List TypeExpr}, sameList as bs = true ↔ as = bs
  | [], [] => by simp [sameList]
  | [], _ :: _ | _ :: _, [] => by simp [sameList]
  | _ :: _, _ :: _ => by simp [sameList, same_iff, sameList_iff]

end

instance : DecidableEq TypeExpr := fun a b => decidable_of_iff (same a b = true) same_iff

def isLifetime : TypeExpr → Bool
  | lifetime _ => true
  | _ => false

mutual

/-- The text of a type without white space. Nothing tells a type in parentheses from a tuple of one
type. -/
def text : TypeExpr → String
  | path segments [] => "::".intercalate segments
  | path segments arguments =>
    "::".intercalate segments ++ GenericArgument.listText (argumentList arguments)
  | array item length => "[" ++ item.text ++ ";" ++ toString length ++ "]"
  | tuple items => "(" ++ ",".intercalate (textList items) ++ ")"
  | const n => toString n
  | lifetime name => "'" ++ name
  | written source => typeText source

def textList : List TypeExpr → List String
  | [] => []
  | t :: ts => t.text :: textList ts

/-- Types as a list of arguments, with a comma between any two. -/
def argumentList : List TypeExpr → List GenericArgument
  | [] => []
  | t :: ts => ⟨t.isLifetime, t.text, !ts.isEmpty⟩ :: argumentList ts

end

/-- The type of a path. A lifetime, and a type of another kind, can stand in the place of a name. -/
def ofPath (segments : List String) (arguments : List TypeExpr) : TypeExpr :=
  if segments.all isPlainSegment then path segments arguments
  else
    match (segments.map fun s => TypeToken.scan s.toList), arguments with
    | [[.lifetime text]], [] => lifetime (String.ofList (text.toList.drop 1))
    | _, [] => written ("::".intercalate segments)
    | _, arguments =>
      written ("::".intercalate segments ++ "<" ++ ",".intercalate (textList arguments) ++ ">")

mutual

/-- The type with types in the place of type parameters. -/
def instantiate (parameters : List (String × TypeExpr)) : TypeExpr → TypeExpr
  | path segments arguments =>
    match segments, arguments with
    | [name], [] => (parameters.lookup name).getD (path [name] [])
    | segments, arguments => path segments (instantiateList parameters arguments)
  | array item length => array (item.instantiate parameters) length
  | tuple items => tuple (instantiateList parameters items)
  | const n => const n
  | lifetime name => lifetime name
  | written source => written source

def instantiateList (parameters : List (String × TypeExpr)) : List TypeExpr → List TypeExpr
  | [] => []
  | t :: ts => t.instantiate parameters :: instantiateList parameters ts

end

end TypeExpr

/-- The value that an attribute assigns; only texts are told apart. -/
inductive AttributeValue where
  | text (s : String)
  | other
deriving DecidableEq, Repr, Inhabited

inductive Attribute where
  /-- A path alone. -/
  | word (path : String)
  | assign (path : String) (value : AttributeValue)
  /-- A path with a list in parentheses. -/
  | list (path : String) (items : List Attribute)
deriving Repr, Inhabited

def Attribute.path : Attribute → String
  | word path => path
  | assign path _ => path
  | list path _ => path

inductive Parameter where
  | type (name : String) (bounds : List String)
  | lifetime (name : String)
  /-- A number. -/
  | const (name : String)
deriving DecidableEq, Repr, Inhabited

structure FieldDeclaration where
  name : String
  type : TypeExpr
  attributes : List Attribute := []
deriving Repr, Inhabited

/-- What a variant of a union holds. -/
inductive Payload where
  | unit
  | named
  | positional (types : List TypeExpr)
deriving Repr, Inhabited

structure VariantDeclaration where
  name : String
  payload : Payload
  attributes : List Attribute := []
deriving Repr, Inhabited

inductive DeclarationBody where
  | record (fields : List FieldDeclaration)
  /-- A record whose fields have no names. -/
  | positional
  | unit
  /-- Fields that share their place in memory. -/
  | overlay
  | union (variants : List VariantDeclaration)
deriving Repr, Inhabited

structure Declaration where
  name : String
  body : DeclarationBody
  parameters : List Parameter := []
  attributes : List Attribute := []
deriving Repr, Inhabited

end QueryShape
