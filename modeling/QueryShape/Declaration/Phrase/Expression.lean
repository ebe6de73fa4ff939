import QueryShape.Declaration.Phrase.Type

/-!
# Rules for patterns and expressions

How strongly operators bind makes no difference to what is written, so an expression is a row of operands
with operators between them.
-/

set_option autoImplicit false

namespace QueryShape.PhraseRule

open Rule

/-! ## Patterns -/

def rangeSign : PhraseRule := choice [sign "..=", sign ".."]

def oldRangeSign : PhraseRule := sign "..."

def constBlock : PhraseRule := next (word "const") (phrase .block)

def rangeBound : PhraseRule := choice [signedLiteral, constBlock, phrase .valuePath]

/-- The sign of a range after its start, and its end. -/
def rangeRest : PhraseRule :=
  next (choice [phrase .oldRangeSign, rangeSign]) (optional rangeBound)

/-- The name or the number of a part. -/
def member : PhraseRule := choice [name, phrase .index]

def verbatimPattern : PhraseRule := next (word "box") (phrase .onePattern)

def fieldPattern : PhraseRule :=
  next attributes
    (choice
      [sign "..", phrase (.verbatim .pattern),
        sequence [member, sign ":", phrase .pattern],
        sequence [optional (word "ref"), optional (word "mut"), name]])

/-- A variable, perhaps with a pattern that its value has to fit. -/
def variablePattern : PhraseRule :=
  let rest := sign "@"
  choice
    [sequence
      [choice [next (word "ref") (optional (word "mut")), word "mut"], choice [name, word "self"],
        optional (next rest (phrase .onePattern))],
      sequence [choice [name, word "self"], rest, phrase .onePattern]]

def onePattern : PhraseRule :=
  choice
    [phrase (.verbatim .pattern),
      sequence [sign "&", optional (word "mut"), phrase .onePattern],
      inParentheses (commaList (phrase .pattern)),
      inSquares (commaList (phrase .pattern)),
      next rangeSign (optional rangeBound),
      next (choice [signedLiteral, constBlock]) (optional rangeRest),
      macroCall,
      variablePattern,
      next (phrase .valuePath)
        (optional
          (choice
            [inBraces (commaList (phrase .fieldPattern)), inParentheses (commaList (phrase .pattern)),
              rangeRest])),
      word "_"]

def pattern : PhraseRule :=
  sequence
    [optional (sign "|"), phrase .onePattern, many (next (sign "|") (phrase .onePattern))]

/-! ## Expressions -/

def operator : PhraseRule :=
  choice
    ((["<<=", ">>=", "&&", "||", "==", "!=", "<=", ">=", "+=", "-=", "*=", "/=", "%=", "^=", "&=", "|=",
      "<<", ">>", "+", "-", "*", "/", "%", "^", "&", "|", "<", ">", "="] : List String).map sign)

/-- An expression, or before a block one that does not start with a brace. -/
def value (records : Bool) : PhraseRule :=
  if records then phrase (.expression true)
  else next (absent (opening '{')) (phrase (.expression false))

def rangeEnd (records : Bool) : PhraseRule :=
  if records then phrase (.operand true)
  else next (absent (opening '{')) (phrase (.operand false))

/-- What can follow the first operand. -/
def operations (records : Bool) : PhraseRule :=
  many
    (choice
      [next (word "as") (phrase (.type false)),
        next rangeSign (optional (rangeEnd records)),
        next operator (phrase (.operand records))])

def expression (records : Bool) : PhraseRule :=
  next (phrase (.operand records)) (operations records)

def callValues : PhraseRule := inParentheses (commaList (phrase (.expression true)))

/-- A call, a member, an element or the sign that hands on a failure. -/
def trailer : PhraseRule :=
  choice
    [callValues,
      inSquares (phrase (.expression true)),
      sign "?",
      sequence
        [absent (sign ".."), sign ".",
          choice
            [word "await",
              sequence [name, optional (next (sign "::") (phrase .arguments))],
              phrase .index]]]

def operand (records : Bool) : PhraseRule :=
  next attributes
    (choice
      [sequence
        [sign "&", word "raw", choice [word "const", word "mut"], phrase (.operand records)],
        sequence [sign "&", optional (word "mut"), phrase (.operand records)],
        next (choice [sign "*", sign "!", sign "-"]) (phrase (.operand records)),
        next (phrase (.atom records)) (many trailer)])

def closureParameter : PhraseRule :=
  sequence
    [attributes, phrase .onePattern, optional (next (sign ":") (phrase (.type true)))]

def closure (records : Bool) : PhraseRule :=
  sequence
    [optional (phrase .binder), optional (word "const"), optional (word "static"),
      optional (word "async"), optional (word "move"), sign "|", commaList closureParameter, sign "|",
      choice
        [sequence [sign "->", phrase (.type true), phrase .block], phrase (.expression records)]]

def verbatimExpression : PhraseRule :=
  choice
    [sequence [word "builtin", sign "#", name, inParentheses trees],
      next (word "become") (phrase (.expression true))]

/-- The fields of a record, and what the others are taken from. -/
def recordBody : PhraseRule :=
  inBraces
    (next
      (commaList
        (sequence [attributes, member, optional (next (sign ":") (phrase (.expression true)))]))
      (optional (next (sign "..") (optional (phrase (.expression true))))))

/-- What follows the first element of an array: how often it is repeated, or the others. -/
def elements : PhraseRule :=
  choice
    [next (sign ";") (phrase (.expression true)),
      next (many (next (sign ",") (phrase (.expression true)))) (optional (sign ","))]

def atom (records : Bool) : PhraseRule :=
  choice
    [literal,
      sequence [word "async", optional (word "move"), phrase .block],
      phrase .compound,
      closure records,
      phrase (.verbatim .expression),
      macroCall,
      next (phrase .valuePath) (if records then optional recordBody else empty),
      inParentheses (next innerAttributes (commaList (phrase (.expression true)))),
      inSquares (next innerAttributes (optional (next (phrase (.expression true)) elements))),
      sequence [word "break", optional lifetime, optional (value records)],
      next (word "continue") (optional lifetime),
      next (choice [word "return", word "yield"]) (optional (value records)),
      sequence [word "let", phrase .pattern, sign "=", phrase (.expression false)],
      next rangeSign (optional (rangeEnd records)),
      word "_"]

/-! ## Blocks -/

def block : PhraseRule := inBraces (next innerAttributes (many (phrase .statement)))

/-- An expression that ends with a block and needs no semicolon after it. -/
def compound : PhraseRule :=
  choice
    [next (optional (next lifetime (sign ":")))
      (choice
        [phrase .block,
          next (word "loop") (phrase .block),
          sequence [word "while", phrase (.expression false), phrase .block],
          sequence
            [word "for", phrase .pattern, word "in", phrase (.expression false), phrase .block]]),
      sequence
        [word "if", phrase (.expression false), phrase .block,
          optional (next (word "else") (phrase .compound))],
      sequence
        [word "match", phrase (.expression false),
          inBraces (next innerAttributes (many (phrase .arm)))],
      next (choice [word "unsafe", word "const", word "try"]) (phrase .block)]

/-- An expression where a statement can end. One that ends with a block goes on only after a point or the
sign that hands on a failure. -/
def statementExpression : PhraseRule :=
  choice
    [sequence
      [attributes, phrase .compound,
        optional
          (sequence
            [ahead (choice [next (absent (sign "..")) (sign "."), sign "?"]), many trailer,
              operations true])],
      phrase (.expression true)]

def arm : PhraseRule :=
  sequence
    [attributes, phrase .pattern, optional (next (word "if") (phrase (.expression true))), sign "=>",
      statementExpression, optional (sign ",")]

def letStatement : PhraseRule :=
  sequence
    [word "let", phrase .pattern, optional (next (sign ":") (phrase (.type true))),
      optional
        (sequence
          [sign "=", phrase (.expression true), optional (next (word "else") (phrase .block))]),
      sign ";"]

/-- The call of a macro that is a statement by itself. -/
def macroStatement : PhraseRule :=
  sequence
    [plainPath, sign "!", inBraces trees,
      absent (choice [next (absent (sign "..")) (sign "."), sign "?"])]

def statement : PhraseRule :=
  choice
    [sign ";",
      next attributes (choice [letStatement, phrase .item, macroStatement]),
      next statementExpression (optional (sign ";"))]

end QueryShape.PhraseRule
