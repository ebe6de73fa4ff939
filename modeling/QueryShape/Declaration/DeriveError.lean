/-!
# Errors of deriving
-/

set_option autoImplicit false

namespace QueryShape

/-- Why a declaration has no shape. -/
inductive DeriveError where
  | lifetimeParameter
  | unnamedFields
  | overlay
  | variantPayload
  | unknownContainerItem
  | unknownItem
  /-- An attribute without a list. -/
  | missingArguments (path : String)
  /-- An attribute with a value in the place of a list. -/
  | missingParentheses (path : String)
  | missingEquals
  | missingComma
  | missingString
  | renameWithoutString
  /-- A keyword in the place of a name. -/
  | keyword (word : String)
  | missingName
  /-- A path that stops after two colons. -/
  | missingSegment
  /-- A path of any words that stops after two colons. -/
  | missingWord
  | missingItem
  | strayLiteral
  | strayToken
  /-- Nothing follows where something is missing. -/
  | endOfInput (e : DeriveError)
deriving DecidableEq, Repr, Inhabited

def DeriveError.message : DeriveError → String
  | lifetimeParameter => "GraphQLShape cannot be derived for types with lifetime parameters"
  | unnamedFields => "GraphQLShape can only be derived on structs with named fields"
  | overlay => "GraphQLShape can only be derived on structs and enums"
  | variantPayload => "union variants must wrap exactly one shape, like `Variant(Shape)`"
  | unknownContainerItem => "unknown graphql container attribute; expected `name`"
  | unknownItem => "unknown graphql attribute; expected `tag`, `flatten`, `skip` or `scalar`"
  | missingArguments path => s!"expected attribute arguments in parentheses: #[{path}(...)]"
  | missingParentheses path => s!"expected parentheses: #[{path}(...)]"
  | missingEquals => "expected `=`"
  | missingComma => "expected `,`"
  | missingString => "expected string literal"
  | renameWithoutString => "expected a string literal for serde `rename`"
  | keyword word => s!"expected identifier, found keyword `{word}`"
  | missingName => "expected identifier"
  | missingSegment => "expected path segment after `::`"
  | missingWord => "expected ident"
  | missingItem => "expected nested attribute"
  | strayLiteral => "unexpected literal in nested attribute, expected ident"
  | strayToken => "unexpected token in nested attribute, expected ident"
  | endOfInput e => "unexpected end of input, " ++ e.message

end QueryShape
