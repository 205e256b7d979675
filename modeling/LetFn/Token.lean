import LetFn.Span
import LetFn.Text.Quoted

namespace LetFn

/-- What a token is, whatever its characters. The last seven are the reserved words. -/
inductive TokenKind where
  | illegal
  | eof
  | ident
  | int
  | assign
  | plus
  | minus
  | bang
  | asterisk
  | slash
  | lt
  | gt
  | eq
  | notEq
  | comma
  | semicolon
  | lparen
  | rparen
  | lbrace
  | rbrace
  | fnWord
  | letWord
  | trueWord
  | falseWord
  | ifWord
  | elseWord
  | returnWord
deriving DecidableEq, Inhabited

/-- The name of a kind in messages and listings: signs stand for themselves, words are in capitals. -/
def TokenKind.text : TokenKind → String
  | illegal => "ILLEGAL"
  | eof => "EOF"
  | ident => "IDENT"
  | int => "INT"
  | assign => "="
  | plus => "+"
  | minus => "-"
  | bang => "!"
  | asterisk => "*"
  | slash => "/"
  | lt => "<"
  | gt => ">"
  | eq => "=="
  | notEq => "!="
  | comma => ","
  | semicolon => ";"
  | lparen => "("
  | rparen => ")"
  | lbrace => "\x7b"
  | rbrace => "\x7d"
  | fnWord => "FUNCTION"
  | letWord => "LET"
  | trueWord => "TRUE"
  | falseWord => "FALSE"
  | ifWord => "IF"
  | elseWord => "ELSE"
  | returnWord => "RETURN"

/-- The kind of a word. Case counts, so `Let` is an ordinary identifier. -/
def TokenKind.ofWord (word : String) : TokenKind :=
  if word = "fn" then fnWord
  else if word = "let" then letWord
  else if word = "true" then trueWord
  else if word = "false" then falseWord
  else if word = "if" then ifWord
  else if word = "else" then elseWord
  else if word = "return" then returnWord
  else ident

/-- A token with the characters it was read from and the place where they stand. -/
structure Token where
  kind : TokenKind
  literal : String
  span : Span
deriving DecidableEq, Inhabited

namespace Token

/-- Whether the token is of one of `kinds`. -/
def isOneOf (token : Token) (kinds : List TokenKind) : Bool :=
  kinds.contains token.kind

/-- One line of a token listing. Only the kinds that leave the characters open show them. -/
def summary (token : Token) : String :=
  match token.kind with
  | .ident | .int | .illegal => token.kind.text ++ " (" ++ token.literal ++ ")"
  | kind => kind.text ++ " ()"

/-- Kind and literal in full, the literal quoted. -/
def description (token : Token) : String :=
  "Token \x7b kind: " ++ token.kind.text ++ ", literal: " ++ Text.quoted token.literal ++ " \x7d"

end Token

end LetFn
