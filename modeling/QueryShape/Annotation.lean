import QueryShape.Value

/-!
# Annotations

An annotation on a member is a list of items divided by commas. The first may be a call, which names
the field and gives its arguments; the others are flags, with or without a value:

`orders(first: 10, after: $:String, status: $status:Status! = OPEN),alias=recent`
-/

set_option autoImplicit false

namespace QueryShape

/-- A flag, as `inline`, or with a value, as `alias=recent`. -/
structure Flag where
  name : String
  value : Option String := none
deriving DecidableEq, Repr

def Flag.isBare (f : Flag) : Bool := f.value.isNone

/-- An argument as an annotation writes it. -/
inductive Argument where
  | literal (value : Value) (type : Option String)
  /-- A variable without a name is named after the place where it is used. -/
  | variable (name : Option String) (type : Option String) (default : Option Value)
deriving Repr, Inhabited

structure Annotation where
  /-- The name of the call, if the annotation starts with one. -/
  name : Option String := none
  arguments : OrderedMap String Argument := []
  flags : List Flag := []
deriving Repr, Inhabited

namespace Annotation

def flag? (a : Annotation) (name : String) : Option Flag := a.flags.find? (·.name == name)

def hasFlag (a : Annotation) (name : String) : Bool := (a.flag? name).isSome

def isInline (a : Annotation) : Bool := a.hasFlag "inline"

def isUnion (a : Annotation) : Bool := a.hasFlag "union"

/-- The value of the first flag `alias`. -/
def alias? (a : Annotation) : Option String := (a.flag? "alias").bind (·.value)

/-- The only flag that has no value and is no marker: it names the field. -/
def namingFlag? (a : Annotation) : Option String :=
  match a.flags.filter fun f => f.isBare && f.name != "inline" && f.name != "union" with
  | [f] => some f.name
  | _ => none

/-- What the reader looked for. -/
inductive Expectation where
  | name
  | value
  | char (c : Char)
deriving DecidableEq, Repr

/-- Why a text is no annotation. -/
inductive Fault where
  /-- Something else was found, or the end of the text. -/
  | expected (what : Expectation) (found : Option Char)
  | lateCall (name : String)
  | duplicateArgument (key : String)
  | unterminatedString
  | invalidNumber (text : String)
deriving DecidableEq, Repr

/-- A fault and the byte offset at which reading stopped. -/
structure SyntaxError where
  fault : Fault
  offset : Nat
deriving DecidableEq, Repr

def Expectation.text : Expectation → String
  | name => "an identifier"
  | value => "a value"
  | char c => s!"`{c}`"

def Fault.text : Fault → String
  | expected what (some c) => s!"expected {what.text}, found `{c}`"
  | expected what none => s!"expected {what.text}, found end of annotation"
  | lateCall name => s!"arguments on `{name}` must come first"
  | duplicateArgument key => s!"duplicate argument `{key}`"
  | unterminatedString => "unterminated string"
  | invalidNumber text => s!"invalid number `{text}`"

def SyntaxError.message (e : SyntaxError) : String := s!"{e.fault.text} at offset {e.offset}"

end Annotation

end QueryShape
