import LetFn.Token

namespace LetFn

/-- What can be wrong with a source. -/
inductive Problem where
  /-- Only an `expected` token can follow, and an `actual` one does. -/
  | unexpectedPeek (expected actual : TokenKind)
  /-- No expression starts with a token of this kind. -/
  | noPrefixRule (kind : TokenKind)
  /-- The literal is not a number of 64 bits. -/
  | integerRange (literal : String)
deriving DecidableEq, Inhabited

namespace Problem

/-- The short name that heads a report. -/
def name : Problem → String
  | unexpectedPeek _ _ => "UnexpectedPeek"
  | noPrefixRule _ => "NoPrefixParseFn"
  | integerRange _ => "IntegerParse"

/-- The problem in a sentence. -/
def message : Problem → String
  | unexpectedPeek expected actual =>
    "expected next token to be " ++ expected.text ++ ", got " ++ actual.text ++ " instead"
  | noPrefixRule kind => "no prefix parse function for " ++ kind.text ++ " found"
  | integerRange literal => "could not parse " ++ literal ++ " as integer"

/-- A suggestion, where there is one to make. A closing sign that is missing is likely to be forgotten. -/
def tip : Problem → Option String
  | unexpectedPeek .semicolon _ | unexpectedPeek .rparen _ | unexpectedPeek .rbrace _ =>
    some "is a closing delimiter missing?"
  | unexpectedPeek expected actual => some ("expected `" ++ expected.text ++ "`, found `" ++ actual.text ++ "`")
  | noPrefixRule .illegal => some "this character is not part of the language"
  | noPrefixRule _ => none
  | integerRange literal => some ("Invalid number: `" ++ literal ++ "`, is it above the integer limit?")

end Problem

/-- A problem and the place where it shows. -/
structure Diagnostic where
  problem : Problem
  span : Span
deriving DecidableEq, Inhabited

end LetFn
