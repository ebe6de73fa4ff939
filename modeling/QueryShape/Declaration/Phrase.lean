import QueryShape.Declaration.Keyword
import QueryShape.Declaration.Token
import QueryShape.Grammar

/-!
# Phrases of declarations

The kinds of phrases that bounds of type parameters are made of, and the rules for single tokens and
brackets. A bound can hold a block of code, so expressions, patterns and whole items are among them.
-/

set_option autoImplicit false

namespace QueryShape

/-- Phrases that stay as they are written. -/
inductive Verbatim where
  | bound
  | type
  | argument
  | pattern
  | expression
  | item
  | traitItem
  | implItem
  | foreignItem
  /-- What no rule fits. -/
  | unread
deriving DecidableEq, Repr, Inhabited

/-- Phrases that say nothing and are left out. -/
inductive Omitted where
  /-- A list of parameters without any. -/
  | generics
  /-- A list of conditions without any. -/
  | conditions
  /-- A colon without bounds. -/
  | colon
  /-- The colons between a path and its arguments in parentheses. -/
  | pathColons
  /-- The visibility of a variant. -/
  | visibility
deriving DecidableEq, Repr, Inhabited

inductive Phrase where
  | verbatim (of : Verbatim)
  | omitted (of : Omitted)
  /-- A token, or brackets with all that is in them. -/
  | tree
  | outerAttribute
  | innerAttribute
  -- Paths and arguments
  | typePath
  | valuePath
  | segment (inType : Bool)
  | arguments
  | captures
  | lifetimeArgument
  | argument
  | constant
  -- Parameters and bounds
  | binder
  | generics
  | lifetimeParameter
  | parameter
  | bound
  /-- A trait after a binder and the mark that makes it optional. -/
  | markedBinder
  | bounds
  -- Types
  | type (sum : Bool)
  | pathType
  -- Patterns
  | pattern
  | onePattern
  | fieldPattern
  /-- The old sign for a range with its end. -/
  | oldRangeSign
  -- Expressions; those before a block hold no records of their own
  | expression (records : Bool)
  | operand (records : Bool)
  | atom (records : Bool)
  | compound
  | block
  | statement
  | arm
  /-- The number of a part. -/
  | index
  -- Items
  | signature
  /-- A parameter of a function that is only a type. -/
  | unnamedParameter
  | item
  | traitItem
  | implItem
  | foreignItem
deriving DecidableEq, Repr, Inhabited

abbrev PhraseRule := Rule Phrase TypeToken

namespace PhraseRule

open Rule

/-! ## Single tokens -/

def word (text : String) : PhraseRule := token fun t => t = .word text

/-- A word that can be a name. -/
def name : PhraseRule :=
  token fun
    | .word text => !keywords.contains text
    | _ => false

/-- A word that can be a part of a path. -/
def pathWord : PhraseRule :=
  token fun
    | .word text => isPathWord text
    | _ => false

def nameOrBlank : PhraseRule := choice [name, word "_"]

def lifetime : PhraseRule :=
  token fun
    | .lifetime _ => true
    | _ => false

def quotedOrNumber : PhraseRule :=
  token fun
    | .literal _ => true
    | _ => false

def literal : PhraseRule := choice [quotedOrNumber, word "true", word "false"]

/-- A literal that may be negative. -/
def signedLiteral : PhraseRule :=
  choice [literal, next (token fun t => t matches .sign '-' _) quotedOrNumber]

/-- Signs that follow one another at once. -/
def signs : List Char → PhraseRule
  | [] => empty
  | [c] => token fun
    | .sign d _ => c == d
    | _ => false
  | c :: cs => next (token fun
    | .sign d joined => c == d && joined
    | _ => false) (signs cs)

def sign (text : String) : PhraseRule := signs text.toList

/-! ## Brackets -/

def opening (c : Char) : PhraseRule := token fun t => t = .opening c

def closing (c : Char) : PhraseRule := token fun t => t = .closing c

def inParentheses (r : PhraseRule) : PhraseRule := sequence [opening '(', r, closing ')']

def inSquares (r : PhraseRule) : PhraseRule := sequence [opening '[', r, closing ']']

def inBraces (r : PhraseRule) : PhraseRule := sequence [opening '{', r, closing '}']

def trees : PhraseRule := many (phrase .tree)

/-- Brackets of any kind with all that is in them. -/
def group : PhraseRule := choice [inParentheses trees, inSquares trees, inBraces trees]

def tree : PhraseRule :=
  choice [group, token fun
    | .opening _ | .closing _ => false
    | _ => true]

/-- Any number of parts with commas between them. -/
def commaList (r : PhraseRule) : PhraseRule := separated r (sign ",")

end PhraseRule

end QueryShape
