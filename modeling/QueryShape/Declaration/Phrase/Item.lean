import QueryShape.Declaration.Phrase.Type

/-!
# Rules for items

Functions, types, traits and the other things that a block can declare. Some forms are accepted but have no
meaning of their own; they stay as they are written.
-/

set_option autoImplicit false

namespace QueryShape.PhraseRule

open Rule

def publicMark : PhraseRule :=
  next (word "pub")
    (optional
      (inParentheses
        (choice [word "crate", word "self", word "super", next (word "in") plainPath])))

def visibility : PhraseRule := optional publicMark

/-- The type of a name. -/
def ofType : PhraseRule := next (sign ":") (phrase (.type true))

/-- The value of a name. -/
def withValue : PhraseRule := next (sign "=") (phrase (.expression true))

/-- The bounds that the head of an item states. -/
def headBounds : PhraseRule :=
  optional (choice [phrase (.omitted .colon), next (sign ":") boundList])

/-- All up to a semicolon. -/
def upToSemicolon : PhraseRule :=
  next (many (next (absent (sign ";")) (phrase .tree))) (sign ";")

def itemMacro : PhraseRule :=
  sequence [plainPath, absent (sign "!="), sign "!", optional name, group, optional (sign ";")]

/-! ## Functions -/

/-- The parameter that stands for the value itself. -/
def receiver : PhraseRule :=
  sequence
    [optional (next (sign "&") (optional lifetime)), optional (word "mut"), word "self",
      optional ofType, ahead (choice [sign ",", closing ')'])]

def unnamedParameter : PhraseRule :=
  next (ahead (next name (sign "<"))) (phrase (.type true))

def functionParameter : PhraseRule :=
  next attributes
    (choice
      [sign "...", receiver, phrase .unnamedParameter,
        sequence
          [phrase .onePattern, sign ":", choice [sign "...", phrase (.type true)]]])

def signature : PhraseRule :=
  sequence
    [optional (word "const"), optional (word "async"), optional (word "unsafe"), optional convention,
      word "fn", name, itemGenerics, inParentheses (commaList functionParameter),
      optional (next (sign "->") (phrase (.type true))), conditions]

def functionItem : PhraseRule := sequence [visibility, phrase .signature, phrase .block]

/-! ## Constants and names of types -/

def staticHead : PhraseRule := sequence [word "static", optional (word "mut"), name]

def constHead : PhraseRule := next (word "const") nameOrBlank

def typeHead : PhraseRule := next (word "type") name

def genericConst : PhraseRule :=
  sequence [constHead, itemGenerics, ofType, optional withValue, conditions, sign ";"]

/-! ## Types -/

/-- The type of a field, or the fields of a type without a name. -/
def fieldType : PhraseRule :=
  choice
    [next (choice [word "struct", word "union"]) (inBraces trees), phrase (.type true)]

def namedFields : PhraseRule :=
  inBraces
    (commaList (sequence [attributes, visibility, nameOrBlank, sign ":", fieldType]))

def tupleFields : PhraseRule :=
  inParentheses (commaList (sequence [attributes, visibility, phrase (.type true)]))

def structItem : PhraseRule :=
  sequence
    [visibility, word "struct", name, itemGenerics,
      choice
        [next conditions namedFields, sequence [tupleFields, conditions, sign ";"],
          next conditions (sign ";")]]

def unionItem : PhraseRule :=
  sequence [visibility, word "union", name, itemGenerics, conditions, namedFields]

def variant : PhraseRule :=
  sequence
    [attributes, optional (phrase (.omitted .visibility)), name,
      optional (choice [namedFields, tupleFields]), optional withValue]

def enumItem : PhraseRule :=
  sequence
    [visibility, word "enum", name, itemGenerics, conditions, inBraces (commaList variant)]

/-! ## Traits and implementations -/

def bodyOf (r : PhraseRule) : PhraseRule := inBraces (next innerAttributes (many (next attributes r)))

def traitDefinition : PhraseRule :=
  sequence
    [visibility, optional (word "unsafe"), optional (word "auto"), word "trait", name, itemGenerics,
      headBounds, conditions, bodyOf (phrase .traitItem)]

def traitAlias : PhraseRule :=
  sequence
    [visibility, word "trait", name, itemGenerics, sign "=", boundList, conditions, sign ";"]

/-- The parameters of an implementation, where the angle does not start a path. -/
def implGenerics : PhraseRule :=
  optional
    (next
      (ahead
        (next (sign "<")
          (choice
            [sign ">", sign "#", word "const",
              next (choice [lifetime, name])
                (choice [next (absent (sign "::")) (sign ":"), sign ",", sign ">", sign "="])])))
      itemGenerics)

def implHead : PhraseRule :=
  sequence [optional (word "default"), optional (word "unsafe"), word "impl", implGenerics]

def constMark : PhraseRule := next (optional (sign "?")) (word "const")

def implementation : PhraseRule :=
  sequence
    [implHead, absent constMark,
      choice
        [sequence
          [optional (sign "!"), phrase .pathType, absent (sign "+"), word "for", phrase (.type true)],
          next (phrase (.type true)) (absent (word "for"))],
      conditions, bodyOf (phrase .implItem)]

def traitItem : PhraseRule :=
  choice
    [sequence [constHead, ofType, optional withValue, sign ";"],
      next (phrase .signature) (choice [phrase .block, sign ";"]),
      sequence
        [typeHead, itemGenerics, headBounds, optional (next (sign "=") (phrase (.type true))),
          conditions, sign ";"],
      itemMacro,
      phrase (.verbatim .traitItem)]

def defaultMark : PhraseRule := next visibility (optional (word "default"))

def verbatimTraitItem : PhraseRule :=
  next defaultMark
    (choice
      [genericConst,
        next (phrase .signature) (choice [inBraces trees, sign ";"]),
        next typeHead upToSemicolon])

def implItem : PhraseRule :=
  choice
    [sequence [defaultMark, phrase .signature, phrase .block],
      sequence [defaultMark, constHead, ofType, withValue, sign ";"],
      sequence
        [defaultMark, typeHead, itemGenerics, sign "=", phrase (.type true), conditions, sign ";"],
      itemMacro,
      phrase (.verbatim .implItem)]

def verbatimImplItem : PhraseRule :=
  next defaultMark
    (choice [next (phrase .signature) (sign ";"), genericConst, next typeHead upToSemicolon])

/-! ## Modules and foreign code -/

def moduleItem : PhraseRule :=
  sequence
    [visibility, optional (word "unsafe"), word "mod", name,
      choice [sign ";", bodyOf (choice [phrase .item, itemMacro])]]

def foreignModule : PhraseRule :=
  sequence [optional (word "unsafe"), convention, bodyOf (phrase .foreignItem)]

def foreignItem : PhraseRule :=
  choice
    [sequence [visibility, phrase .signature, sign ";"],
      sequence [visibility, staticHead, ofType, sign ";"],
      sequence [visibility, typeHead, itemGenerics, conditions, sign ";"],
      itemMacro,
      phrase (.verbatim .foreignItem)]

def verbatimForeignItem : PhraseRule :=
  next visibility
    (choice
      [sequence
        [optional (word "safe"), phrase .signature, choice [sign ";", inBraces trees]],
        sequence
          [optional (choice [word "unsafe", word "safe"]), staticHead, ofType, optional withValue,
            sign ";"],
        next typeHead upToSemicolon])

def externCrate : PhraseRule :=
  sequence [visibility, word "extern", word "crate", upToSemicolon]

def useItem : PhraseRule := sequence [visibility, word "use", upToSemicolon]

/-! ## Items -/

/-- The definition of a macro by rules. -/
def macroRules : PhraseRule :=
  sequence [plainPath, sign "!", choice [name, word "try"], group, optional (sign ";")]

def verbatimItem : PhraseRule :=
  choice
    [sequence [visibility, phrase .signature, sign ";"],
      sequence [visibility, staticHead, optional ofType, optional withValue, sign ";"],
      next visibility genericConst,
      sequence [visibility, typeHead, upToSemicolon],
      sequence [visibility, word "macro", name, optional (inParentheses trees), inBraces trees],
      sequence
        [visibility, implHead, optional constMark, optional (sign "!"), phrase (.type true),
          optional (next (word "for") (phrase (.type true))), conditions, inBraces trees]]

def item : PhraseRule :=
  choice
    [functionItem,
      sequence [visibility, staticHead, ofType, withValue, sign ";"],
      sequence [visibility, constHead, ofType, withValue, sign ";"],
      sequence
        [visibility, typeHead, itemGenerics, conditions, sign "=", phrase (.type true), sign ";"],
      structItem, enumItem, unionItem, traitDefinition, traitAlias, implementation, moduleItem,
      foreignModule, externCrate, useItem, macroRules, phrase (.verbatim .item)]

end QueryShape.PhraseRule
