import QueryShape.Declaration.Phrase.Expression
import QueryShape.Declaration.Phrase.Item

/-!
# The grammar of bounds

`Phrase.rule` gives the rule for each kind of phrase, and `Phrase.read` follows it.
-/

set_option autoImplicit false

namespace QueryShape

def Verbatim.rule : Verbatim → PhraseRule
  | bound => PhraseRule.verbatimBound
  | type => PhraseRule.verbatimType
  | argument => PhraseRule.verbatimArgument
  | pattern => PhraseRule.verbatimPattern
  | expression => PhraseRule.verbatimExpression
  | item => PhraseRule.verbatimItem
  | traitItem => PhraseRule.verbatimTraitItem
  | implItem => PhraseRule.verbatimImplItem
  | foreignItem => PhraseRule.verbatimForeignItem
  | unread => PhraseRule.unread

def Omitted.rule : Omitted → PhraseRule
  | generics => PhraseRule.emptyGenerics
  | conditions => PhraseRule.emptyConditions
  | colon => PhraseRule.emptyColon
  | pathColons => PhraseRule.pathColons
  | visibility => PhraseRule.publicMark

namespace Phrase

def rule : Phrase → PhraseRule
  | verbatim of => of.rule
  | omitted of => of.rule
  | tree => PhraseRule.tree
  | outerAttribute => PhraseRule.outerAttribute
  | innerAttribute => PhraseRule.innerAttribute
  | typePath => PhraseRule.typePath
  | valuePath => PhraseRule.valuePath
  | segment inType => PhraseRule.segment inType
  | arguments => PhraseRule.arguments
  | captures => PhraseRule.captures
  | lifetimeArgument => PhraseRule.lifetimeArgument
  | argument => PhraseRule.argument
  | constant => PhraseRule.constant
  | binder => PhraseRule.binder
  | generics => PhraseRule.parameterList
  | lifetimeParameter => PhraseRule.lifetimeParameter
  | parameter => PhraseRule.parameter
  | bound => PhraseRule.bound
  | markedBinder => PhraseRule.markedBinder
  | bounds => PhraseRule.bounds
  | type sum => PhraseRule.type sum
  | pathType => PhraseRule.pathType
  | pattern => PhraseRule.pattern
  | onePattern => PhraseRule.onePattern
  | fieldPattern => PhraseRule.fieldPattern
  | oldRangeSign => PhraseRule.oldRangeSign
  | expression records => PhraseRule.expression records
  | operand records => PhraseRule.operand records
  | atom records => PhraseRule.atom records
  | compound => PhraseRule.compound
  | block => PhraseRule.block
  | statement => PhraseRule.statement
  | arm => PhraseRule.arm
  | index => PhraseRule.quotedOrNumber
  | signature => PhraseRule.signature
  | unnamedParameter => PhraseRule.unnamedParameter
  | item => PhraseRule.item
  | traitItem => PhraseRule.traitItem
  | implItem => PhraseRule.implItem
  | foreignItem => PhraseRule.foreignItem

/-- How deep phrases can be nested per token. There are fewer kinds of phrases, and no phrase starts with
one of its own kind. -/
def depthPerToken : Nat := 64

/-- Reads a phrase from the start of the tokens. -/
def read (p : Phrase) (tokens : List TypeToken) :
    Option (PhraseTree Phrase TypeToken × List TypeToken) :=
  Rule.readPhrase rule (depthPerToken * (tokens.length + 1)) p tokens

/-- Reads a phrase that all the tokens make up. -/
def readAll (p : Phrase) (tokens : List TypeToken) : Option (PhraseTree Phrase TypeToken) :=
  match p.read tokens with
  | some (t, []) => some t
  | _ => none

end Phrase

end QueryShape
