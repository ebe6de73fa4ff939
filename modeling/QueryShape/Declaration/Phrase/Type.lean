import QueryShape.Declaration.Phrase

/-!
# Rules for types

Attributes, paths, generic arguments and parameters, bounds and types.
-/

set_option autoImplicit false

namespace QueryShape.PhraseRule

open Rule

/-! ## Attributes -/

/-- A path without arguments. -/
def plainPath : PhraseRule :=
  sequence [optional (sign "::"), pathWord, many (next (sign "::") pathWord)]

/-- The call of a macro. What it holds is for the macro to read. -/
def macroCall : PhraseRule := sequence [plainPath, absent (sign "!="), sign "!", group]

/-- What an attribute says: a path with nothing, a list or a value after it. -/
def attributeContent : PhraseRule :=
  choice
    [sequence
      [choice [word "unsafe", plainPath],
        choice [group, next (sign "=") (phrase (.expression true)), empty],
        ahead (closing ']')],
      trees]

def outerAttribute : PhraseRule := next (sign "#") (inSquares attributeContent)

def innerAttribute : PhraseRule := sequence [sign "#", sign "!", inSquares attributeContent]

def attributes : PhraseRule := many (phrase .outerAttribute)

def innerAttributes : PhraseRule := many (phrase .innerAttribute)

/-! ## Paths -/

/-- The arguments of a name. In a type they follow it at once, in a value after two colons. -/
def segmentArguments (inType : Bool) : PhraseRule :=
  let afterColons := sequence [sign "::", ahead (sign "<"), phrase .arguments]
  if inType then choice [next (absent (sign "<=")) (phrase .arguments), afterColons] else afterColons

def segment (inType : Bool) : PhraseRule :=
  choice
    [word "super", word "self", word "crate", word "try",
      next (choice [name, word "Self"]) (optional (segmentArguments inType))]

/-- Segments after the first one. -/
def segments (inType : Bool) : PhraseRule :=
  many (sequence [absent (next (sign "::") (opening '(')), sign "::", phrase (.segment inType)])

def typePath : PhraseRule :=
  sequence [optional (sign "::"), phrase (.segment true), segments true]

/-- A path that starts from a type in angles. -/
def qualifiedPath (inType : Bool) : PhraseRule :=
  sequence
    [sign "<", phrase (.type true), optional (next (word "as") (phrase .typePath)), sign ">", sign "::",
      phrase (.segment inType), segments inType]

def valuePath : PhraseRule :=
  choice
    [qualifiedPath false,
      sequence [optional (sign "::"), phrase (.segment false), segments false]]

/-- Arguments in parentheses with a result, as those of a function. -/
def callArguments : PhraseRule :=
  sequence
    [optional (phrase (.omitted .pathColons)), inParentheses (commaList (phrase (.type true))),
      optional (next (sign "->") (phrase (.type false)))]

def pathColons : PhraseRule := next (sign "::") (ahead (opening '('))

def pathType : PhraseRule :=
  choice [qualifiedPath true, next (phrase .typePath) (optional callArguments)]

/-! ## Generic arguments -/

def arguments : PhraseRule :=
  sequence
    [sign "<", commaList (choice [phrase .lifetimeArgument, phrase .argument]), sign ">"]

/-- A lifetime that does not start a sum. -/
def lifetimeArgument : PhraseRule := next lifetime (absent (sign "+"))

def constant : PhraseRule := choice [signedLiteral, phrase .block, name]

/-- A constant in braces or a literal, which no type starts with. -/
def plainConstant : PhraseRule :=
  next (ahead (choice [signedLiteral, opening '{'])) (phrase .constant)

def boundList : PhraseRule := separated (phrase .bound) (sign "+")

/-- A type or a constant, or a name with what it is equal to or bounded by. -/
def argument : PhraseRule :=
  choice
    [plainConstant,
      next (phrase (.type true))
        (optional
          (choice
            [next (sign "=") (choice [plainConstant, phrase (.type true)]), next (sign ":") boundList]))]

/-- The names that a hidden type captures. -/
def captures : PhraseRule :=
  sequence
    [sign "<", commaList (choice [phrase .lifetimeArgument, phrase .argument]), sign ">"]

/-! ## Generic parameters -/

def lifetimeBounds : PhraseRule := separated lifetime (sign "+")

/-- A colon before what ends a parameter or the head of an item. -/
def emptyColon : PhraseRule :=
  next (sign ":")
    (ahead (choice [sign ",", sign ">", sign "=", sign ";", opening '{', word "where"]))

def lifetimeParameter : PhraseRule :=
  sequence
    [attributes, lifetime,
      optional (choice [phrase (.omitted .colon), next (sign ":") lifetimeBounds])]

def parameter : PhraseRule :=
  next attributes
    (choice
      [sequence
        [word "const", name, sign ":", phrase (.type true),
          optional (next (sign "=") (phrase .constant))],
        sequence
          [name, optional (choice [phrase (.omitted .colon), next (sign ":") boundList]),
            optional (next (sign "=") (phrase (.type true)))],
        word "_"])

def parameterList : PhraseRule :=
  sequence
    [sign "<", commaList (choice [phrase .lifetimeParameter, phrase .parameter]), sign ">"]

def binder : PhraseRule := next (word "for") parameterList

def emptyGenerics : PhraseRule := next (sign "<") (sign ">")

/-- The parameters of an item, if it has any. -/
def itemGenerics : PhraseRule :=
  optional (choice [phrase (.omitted .generics), phrase .generics])

/-- The word for conditions before what ends the head of an item. -/
def emptyConditions : PhraseRule :=
  next (word "where")
    (ahead (choice [opening '{', sign ";", sign "=", sign ",", sign ":", closing '}', atEnd]))

def condition : PhraseRule :=
  choice
    [sequence [lifetime, sign ":", lifetimeBounds],
      sequence [optional (phrase .binder), phrase (.type true), sign ":", boundList]]

/-- The conditions of an item, if it has any. -/
def conditions : PhraseRule :=
  optional (choice [phrase (.omitted .conditions), next (word "where") (commaList condition)])

/-! ## Bounds -/

def traitRest : PhraseRule := next (phrase .typePath) (optional callArguments)

def markedBinder : PhraseRule := sequence [phrase .binder, sign "?", traitRest]

def trait : PhraseRule :=
  choice
    [phrase .markedBinder, sequence [optional (sign "?"), optional (phrase .binder), traitRest]]

/-- A trait that has to hold for constants. -/
def constTrait : PhraseRule :=
  sequence
    [optional (phrase .binder),
      choice [word "const", inSquares (word "const"), next (sign "~") (word "const")],
      optional (sign "?"), optional (phrase .binder), traitRest]

def verbatimBound : PhraseRule := choice [inParentheses constTrait, constTrait]

def bound : PhraseRule :=
  choice
    [lifetime, next (word "use") (phrase .captures), phrase (.verbatim .bound), inParentheses trait,
      trait]

/-- Bounds after a word, as a sum where one is allowed. -/
def boundsOf (sum : Bool) : PhraseRule := if sum then boundList else phrase .bound

/-- More bounds after a type that turns out to be the first of a sum. -/
def moreBounds (sum : Bool) : PhraseRule :=
  if sum then next (many (next (sign "+") (phrase .bound))) (optional (sign "+")) else empty

/-- The bounds of a type parameter. What is no bound is read up to the next plus sign. -/
def bounds : PhraseRule :=
  separated
    (choice
      [next (phrase .bound) (ahead (choice [sign "+", atEnd])), phrase (.verbatim .unread)])
    (sign "+")

def unread : PhraseRule := next (phrase .tree) (many (next (absent (sign "+")) (phrase .tree)))

/-! ## Types -/

/-- The parameter that stands for the value itself, as a variable. -/
def verbatimArgument : PhraseRule :=
  choice
    [sequence [word "mut", word "self", optional (next (sign ":") (phrase (.type true)))],
      sequence [choice [nameOrBlank, word "self"], sign ":", word "mut", word "self"]]

/-- A name in front of a type. -/
def argumentName : PhraseRule :=
  sequence [choice [nameOrBlank, word "self"], absent (sign "::"), sign ":"]

def functionArgument : PhraseRule :=
  next attributes
    (choice
      [sign "...", next argumentName (sign "..."), phrase (.verbatim .argument),
        next (optional argumentName) (phrase (.type true))])

/-- The convention that calls follow. -/
def convention : PhraseRule := next (word "extern") (optional quotedOrNumber)

def functionType : PhraseRule :=
  sequence
    [optional (word "unsafe"), optional convention, word "fn", inParentheses (commaList functionArgument),
      optional (next (sign "->") (phrase (.type false)))]

def verbatimType : PhraseRule :=
  choice
    [sequence [word "builtin", sign "#", name, inParentheses trees],
      sequence [word "dyn", sign "*", boundList]]

/-- What stands in the parentheses of a type: a sum that starts with a lifetime or an optional trait, one
type, or several for a tuple. -/
def parenthesised : PhraseRule :=
  choice
    [next (ahead lifetime) boundList, next (ahead (sign "?")) (phrase .bound),
      commaList (phrase (.type true))]

def type (sum : Bool) : PhraseRule :=
  choice
    [next (phrase .binder)
      (choice
        [functionType, next (word "dyn") (boundsOf sum), next (phrase .pathType) (moreBounds sum)]),
      next (inParentheses parenthesised) (moreBounds sum),
      functionType,
      phrase (.verbatim .type),
      macroCall,
      next (word "dyn") (boundsOf sum),
      next (word "impl") (boundsOf sum),
      next (phrase .pathType) (moreBounds sum),
      inSquares
        (next (phrase (.type true)) (optional (next (sign ";") (phrase (.expression true))))),
      sequence [sign "*", choice [word "const", word "mut"], phrase (.type false)],
      sequence [sign "&", optional lifetime, optional (word "mut"), phrase (.type false)],
      sign "!",
      word "_",
      next (ahead lifetime) boundList]

end QueryShape.PhraseRule
