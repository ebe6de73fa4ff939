import QueryShape.Text.Blank
import QueryShape.Text.Name

/-!
# Types in catalogs

The type of a catalog field is a name or a type in brackets, with at most one `!` or `?` after it and
white space anywhere between. Only `?` leaves a trace.
-/

set_option autoImplicit false

namespace QueryShape

inductive TypeText where
  | named (name : String)
  | list (item : TypeText)
  | optional (type : TypeText)
deriving DecidableEq, Repr, Inhabited

namespace TypeText

open Text

/-- The name inside all wrappers. -/
def innermost : TypeText → String
  | named name => name
  | list item => item.innermost
  | optional type => type.innermost

theorem length_lt_of_trim {cs inner : List Char} {c : Char} (h : trim cs = c :: inner) :
    inner.length < cs.length := by
  have := length_trim_le cs
  rw [h, List.length_cons] at this
  omega

mutual

def readChars? (cs : List Char) : Option TypeText :=
  have := length_trim_le cs
  if (trim cs).getLast? = some '?' then (readBare? (trim cs).dropLast).map .optional
  else if (trim cs).getLast? = some '!' then readBare? (trim cs).dropLast
  else readBare? (trim cs)
termination_by 2 * cs.length + 1

/-- A type without a mark after it. -/
def readBare? (cs : List Char) : Option TypeText :=
  match h : trim cs with
  | '[' :: inner =>
    have := length_lt_of_trim h
    if inner.getLast? = some ']' then (readChars? inner.dropLast).map .list else none
  | t => if isName t then some (.named (String.ofList t)) else none
termination_by 2 * cs.length

end

def read? (text : String) : Option TypeText := readChars? text.toList

end TypeText

end QueryShape
